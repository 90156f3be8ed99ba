import ReviewDesk.Web.Basic
import ReviewDesk.Severity
import ReviewDesk.Time.Moment
import ReviewDesk.Value.Json

/-!
# The store

Five tables, the rows of each in the order of their numbers. A new row gets the number after the
largest one. Addresses, names and identities of users are unique; that a row refers to another one
is not checked, and taking a row away leaves the rows that refer to it.
-/

namespace ReviewDesk

namespace Store

/-!
## Columns

A statement takes null, numbers and texts as parameters. A column brings what is written to it to
its own kind where that loses nothing: a numeric column keeps the number that a text reads as, a
text column keeps the digits of a number. Comparing a column with a parameter does the same to the
parameter.
-/

/-- What a numeric column holds: null, a number, or a text that reads as none. -/
abbrev Figure := Value

def fits (n : Int) : Bool := -9223372036854775808 ≤ n && n ≤ 9223372036854775807

variable (v : Value)

def parameter : Outcome Value :=
  match v with
  | .bool b => .ok (.int (if b then 1 else 0))
  | .int n => if fits n then .ok v else .error (.tooLarge "integer too large for a column")
  | .real x => .ok (if x.isNaN then .null else v)
  | .list _ | .object _ => .error (.badParameter s!"type '{v.kindName}' is not supported")
  | v => .ok v

def isSpace (c : Char) : Bool := c = ' ' || (9 ≤ c.toNat && c.toNat ≤ 13)

/-- The number that a text reads as: digits, maybe with a sign, a point and an exponent. -/
def numberOfText? (s : String) : Option Value := do
  let (negative, r) :=
    Decimal.takeSign ((s.toList.dropWhile isSpace).reverse.dropWhile isSpace).reverse
  let (whole, r) := r.span Char.isDigit
  let (point, fraction, r) := match r with
    | '.' :: r => (true, r.span Char.isDigit)
    | r => (false, [], r)
  guard (whole ++ fraction != [])
  let (exponent?, r) ← match r with
    | c :: r' =>
      if c = 'e' || c = 'E' then
        let (down, r') := Decimal.takeSign r'
        let (ds, r') := r'.span Char.isDigit
        let n : Int := Json.digitsValue ds
        if ds.isEmpty then none else some (some (if down then -n else n), r')
      else none
    | [] => some (none, [])
  guard r.isEmpty
  let digits := Json.digitsValue (whole ++ fraction)
  let n : Int := if negative then -(digits : Int) else digits
  if !point && exponent?.isNone && fits n then return .int n
  else
    let x := Decimal.floatOfDigits digits (exponent?.getD 0 - fraction.length)
    return .real (if negative then -x else x)

def asNumber : Value → Value
  | .text s => (numberOfText? s).getD (.text s)
  | v => v

def asInteger : Value :=
  match asNumber v with
  | .real x =>
    let n := Decimal.truncate x
    if x.isInf || !fits n || Decimal.compareInt n x != .eq then .real x else .int n
  | v => v

def asReal : Value :=
  match asNumber v with
  | .int n => .real (Decimal.floatOfInt n)
  | v => v

def asText? : Value → Option String
  | .null => none
  | v => some v.plain

/-! ## Writing -/

def textColumn : Outcome (Option String) := return asText? (← parameter v)

def integerColumn : Outcome Figure := return asInteger (← parameter v)

def realColumn : Outcome Figure := return asReal (← parameter v)

/-- The truth that a column of truths keeps: zero and one stand for it too. -/
def flagColumn : Outcome (Option Bool) :=
  if v.isNull then .ok none
  else if v.same (.bool true) then .ok (some true)
  else if v.same (.bool false) then .ok (some false)
  else .error (.mistyped s!"Not a boolean value: {v.shown}")

/-- The moment that a column of moments keeps; a zone is dropped. -/
def timeColumn : Outcome (Option Moment) :=
  match v with
  | .null => .ok none
  | .text s =>
    match ZonedMoment.ofText? s.toList with
    | some z => .ok (some z.moment)
    | none => .error (.mistyped "not a moment")
  | _ => .error (.mistyped "not a moment")

/-- The integer of a column that holds nothing else. -/
def wholeColumn : Outcome (Option Int) := do
  match ← integerColumn v with
  | .null => return none
  | .int n => return some n
  | v => throw (.badParameter s!"{v.shown} is no integer")

def floatColumn : Outcome (Option Float) := do
  match ← realColumn v with
  | .null => return none
  | .real x => return some x
  | v => throw (.badParameter s!"{v.shown} is no real number")

def required {α : Type} (column : String) (x : Option α) : Outcome α :=
  match x with
  | some a => .ok a
  | none => .error (.conflict ("NOT NULL constraint failed: " ++ column))

def requiredFigure (column : String) (v : Figure) : Outcome Figure :=
  if v.isNull then .error (.conflict ("NOT NULL constraint failed: " ++ column)) else .ok v

/-- The columns that are given for a new row. A null leaves a column at its default, except a column
of objects, which keeps it. -/
def givenColumns (objects : List String) (fs : Fields) : Fields :=
  fs.filter fun f => !f.2.isNull || objects.contains f.1

/-! ## Showing -/

def ofMoment (m : Moment) : Value := .text m.iso

def ofMoment? : Option Moment → Value := Value.ofOption ofMoment

def ofFlag? : Option Bool → Value := Value.ofOption .bool

def ofInt? : Option Int → Value := Value.ofOption .int

def ofReal? : Option Float → Value := Value.ofOption .real

/-! ## Comparing -/

def figureIs (cell : Figure) (p : Value) : Bool :=
  match p with
  | .null => cell.isNull
  | p => !cell.isNull && cell.same (asNumber p)

def intIs (cell : Int) (p : Value) : Bool := figureIs (.int cell) p

def textIs (cell : Option String) (p : Value) : Bool := cell == asText? p

/-- The row that a query found, if it found one at all. -/
def one {α : Type} : List α → Outcome (Option α)
  | [] => .ok none
  | [a] => .ok (some a)
  | _ => .error .severalRows

end Store

/-!
## Users and repositories

The rows of two tables. A password is kept as it is given; `User.report` is the row as an object.
-/

structure User where
  id : Int
  email : String
  username : String
  fullName : Option String := none
  password : String
  avatarUrl : Option String := none
  bio : Option String := none
  location : Option String := none
  company : Option String := none
  website : Option String := none
  isActive : Bool := true
  isVerified : Bool := false
  isSuperuser : Bool := false
  githubId : Option String := none
  gitlabId : Option String := none
  bitbucketId : Option String := none
  preferences : Value := .object []
  notificationSettings : Value := .object []
  lastLogin : Option Moment := none
  createdAt : Moment
  updatedAt : Option Moment

namespace User

open Store

def report (u : User) : Fields :=
  [("id", .int u.id), ("email", .text u.email), ("username", .text u.username),
   ("full_name", .ofText? u.fullName), ("hashed_password", .text u.password),
   ("avatar_url", .ofText? u.avatarUrl), ("bio", .ofText? u.bio), ("location", .ofText? u.location),
   ("company", .ofText? u.company), ("website", .ofText? u.website),
   ("is_active", .bool u.isActive), ("is_verified", .bool u.isVerified),
   ("is_superuser", .bool u.isSuperuser), ("github_id", .ofText? u.githubId),
   ("gitlab_id", .ofText? u.gitlabId), ("bitbucket_id", .ofText? u.bitbucketId),
   ("preferences", u.preferences), ("notification_settings", u.notificationSettings),
   ("last_login", ofMoment? u.lastLogin), ("created_at", ofMoment u.createdAt),
   ("updated_at", ofMoment? u.updatedAt)]

def identity (u : User) : Provider → Option String
  | .github => u.githubId
  | .gitlab => u.gitlabId
  | .bitbucket => u.bitbucketId

def setIdentity (u : User) (p : Provider) (id : Option String) : User :=
  match p with
  | .github => { u with githubId := id }
  | .gitlab => { u with gitlabId := id }
  | .bitbucket => { u with bitbucketId := id }

def set (u : User) (column : String) (v : Value) : Outcome User := do
  match column with
  | "email" => return { u with email := ← required "users.email" (← textColumn v) }
  | "username" => return { u with username := ← required "users.username" (← textColumn v) }
  | "full_name" => return { u with fullName := ← textColumn v }
  | "hashed_password" =>
    return { u with password := ← required "users.hashed_password" (← textColumn v) }
  | "avatar_url" => return { u with avatarUrl := ← textColumn v }
  | "bio" => return { u with bio := ← textColumn v }
  | "location" => return { u with location := ← textColumn v }
  | "company" => return { u with company := ← textColumn v }
  | "website" => return { u with website := ← textColumn v }
  | "is_active" => return { u with isActive := ← required "users.is_active" (← flagColumn v) }
  | "is_verified" => return { u with isVerified := ← required "users.is_verified" (← flagColumn v) }
  | "is_superuser" =>
    return { u with isSuperuser := ← required "users.is_superuser" (← flagColumn v) }
  | "github_id" => return { u with githubId := ← textColumn v }
  | "gitlab_id" => return { u with gitlabId := ← textColumn v }
  | "bitbucket_id" => return { u with bitbucketId := ← textColumn v }
  | "preferences" => return { u with preferences := v }
  | "notification_settings" => return { u with notificationSettings := v }
  | "last_login" => return { u with lastLogin := ← timeColumn v }
  | "created_at" => return { u with createdAt := ← required "users.created_at" (← timeColumn v) }
  | "updated_at" => return { u with updatedAt := ← timeColumn v }
  | _ => throw (.unknownColumn column)

def setAll (u : User) (changes : Fields) : Outcome User :=
  changes.foldlM (fun u c => u.set c.1 c.2) u

def ofFields (now : Moment) (id : Int) (fs : Fields) : Outcome User := do
  let text (key : String) : Outcome String := do
    required ("users." ++ key) (← textColumn ((Fields.get? fs key).getD .null))
  let u : User := { id, email := ← text "email", username := ← text "username",
                    password := ← text "hashed_password", createdAt := now, updatedAt := some now }
  u.setAll ((givenColumns ["preferences", "notification_settings"] fs).filter fun f =>
    !(["id", "email", "username", "hashed_password"].contains f.1))

/-- Two rows that cannot stand together: they share a name, an address or an identity. -/
def clash (u v : User) : Option String :=
  let shared (x y : Option String) : Bool := x.isSome && x == y
  if u.email == v.email then some "users.email"
  else if u.username == v.username then some "users.username"
  else if shared u.githubId v.githubId then some "users.github_id"
  else if shared u.gitlabId v.gitlabId then some "users.gitlab_id"
  else if shared u.bitbucketId v.bitbucketId then some "users.bitbucket_id"
  else none

def line (u : User) : String :=
  let id := Value.intText u.id
  s!"<User(id={id}, username='{u.username}', email='{u.email}')>"

end User

/-! ## Repositories -/

structure Repository where
  id : Int
  name : String
  fullName : String
  description : Option String := none
  url : String
  cloneUrl : String
  defaultBranch : Option String := some "main"
  language : Option String := none
  size : Store.Figure := .int 0
  isPrivate : Option Bool := some false
  isActive : Option Bool := some true
  isArchived : Option Bool := some false
  provider : String
  externalId : String
  webhookId : Option String := none
  analysisEnabled : Option Bool := some true
  autoReview : Option Bool := some false
  reviewRules : Value := .object []
  notificationSettings : Value := .object []
  totalReviews : Store.Figure := .int 0
  totalIssues : Store.Figure := .int 0
  avgReviewTime : Store.Figure := .int 0
  createdAt : Moment
  updatedAt : Option Moment
  lastAnalysis : Option Moment := none
  ownerId : Store.Figure

namespace Repository

open Store

def report (r : Repository) : Fields :=
  [("id", .int r.id), ("name", .text r.name), ("full_name", .text r.fullName),
   ("description", .ofText? r.description), ("url", .text r.url), ("clone_url", .text r.cloneUrl),
   ("default_branch", .ofText? r.defaultBranch), ("language", .ofText? r.language),
   ("size", r.size), ("is_private", ofFlag? r.isPrivate), ("is_active", ofFlag? r.isActive),
   ("is_archived", ofFlag? r.isArchived), ("provider", .text r.provider),
   ("external_id", .text r.externalId), ("webhook_id", .ofText? r.webhookId),
   ("analysis_enabled", ofFlag? r.analysisEnabled), ("auto_review", ofFlag? r.autoReview),
   ("review_rules", r.reviewRules), ("notification_settings", r.notificationSettings),
   ("total_reviews", r.totalReviews), ("total_issues", r.totalIssues),
   ("avg_review_time", r.avgReviewTime), ("created_at", ofMoment r.createdAt),
   ("updated_at", ofMoment? r.updatedAt), ("last_analysis", ofMoment? r.lastAnalysis),
   ("owner_id", r.ownerId)]

def set (r : Repository) (column : String) (v : Value) : Outcome Repository := do
  let text : Outcome String := do required ("repositories." ++ column) (← textColumn v)
  match column with
  | "name" => return { r with name := ← text }
  | "full_name" => return { r with fullName := ← text }
  | "description" => return { r with description := ← textColumn v }
  | "url" => return { r with url := ← text }
  | "clone_url" => return { r with cloneUrl := ← text }
  | "default_branch" => return { r with defaultBranch := ← textColumn v }
  | "language" => return { r with language := ← textColumn v }
  | "size" => return { r with size := ← integerColumn v }
  | "is_private" => return { r with isPrivate := ← flagColumn v }
  | "is_active" => return { r with isActive := ← flagColumn v }
  | "is_archived" => return { r with isArchived := ← flagColumn v }
  | "provider" => return { r with provider := ← text }
  | "external_id" => return { r with externalId := ← text }
  | "webhook_id" => return { r with webhookId := ← textColumn v }
  | "analysis_enabled" => return { r with analysisEnabled := ← flagColumn v }
  | "auto_review" => return { r with autoReview := ← flagColumn v }
  | "review_rules" => return { r with reviewRules := v }
  | "notification_settings" => return { r with notificationSettings := v }
  | "total_reviews" => return { r with totalReviews := ← integerColumn v }
  | "total_issues" => return { r with totalIssues := ← integerColumn v }
  | "avg_review_time" => return { r with avgReviewTime := ← integerColumn v }
  | "created_at" =>
    return { r with createdAt := ← required "repositories.created_at" (← timeColumn v) }
  | "updated_at" => return { r with updatedAt := ← timeColumn v }
  | "last_analysis" => return { r with lastAnalysis := ← timeColumn v }
  | "owner_id" =>
    return { r with ownerId := ← requiredFigure "repositories.owner_id" (← integerColumn v) }
  | _ => throw (.unknownColumn column)

def setAll (r : Repository) (changes : Fields) : Outcome Repository :=
  changes.foldlM (fun r c => r.set c.1 c.2) r

/-- The columns that have no default and must not be null. -/
def needed : List String :=
  ["name", "full_name", "url", "clone_url", "provider", "external_id", "owner_id"]

def ofFields (now : Moment) (id : Int) (fs : Fields) : Outcome Repository := do
  let column (key : String) : Value := (Fields.get? fs key).getD .null
  let text (key : String) : Outcome String := do
    required ("repositories." ++ key) (← textColumn (column key))
  let r : Repository :=
    { id, name := ← text "name", fullName := ← text "full_name", url := ← text "url",
      cloneUrl := ← text "clone_url", provider := ← text "provider",
      externalId := ← text "external_id",
      createdAt := now, updatedAt := some now,
      ownerId := ← requiredFigure "repositories.owner_id" (← integerColumn (column "owner_id")) }
  r.setAll ((givenColumns ["review_rules", "notification_settings"] fs).filter fun f => !("id" ::
    needed).contains f.1)

def ownedBy (r : Repository) (user : Value) : Bool := figureIs r.ownerId user

def line (r : Repository) : String :=
  let id := Value.intText r.id
  s!"<Repository(id={id}, name='{r.name}', provider='{r.provider}')>"

end Repository

/-!
## Reviews, issues and comments

The rows of the tables of reviews, of the issues found in them, and of the comments on them.
-/

inductive ReviewStatus where
  | pending
  | inProgress
  | completed
  | failed
  deriving DecidableEq, Repr, Inhabited

namespace ReviewStatus

def all : List ReviewStatus := [pending, inProgress, completed, failed]

def name : ReviewStatus → String
  | pending => "pending"
  | inProgress => "in_progress"
  | completed => "completed"
  | failed => "failed"

def ofName? (s : String) : Option ReviewStatus := all.find? (·.name == s)

theorem ofName?_name (s : ReviewStatus) : ofName? s.name = some s := by cases s <;> decide

/-- The word that a status is stored as. -/
def label (s : ReviewStatus) : String := Text.uppered s.name

end ReviewStatus

def Severity.label (s : Severity) : String := Text.uppered s.name

structure Review where
  id : Int
  title : String
  description : Option String := none
  status : ReviewStatus := .pending
  progress : Option Float := some 0
  prNumber : Option Int := none
  prTitle : Option String := none
  prUrl : Option String := none
  sourceBranch : Option String := none
  targetBranch : Option String := none
  totalFiles : Store.Figure := .int 0
  analyzedFiles : Store.Figure := .int 0
  totalIssues : Store.Figure := .int 0
  criticalIssues : Store.Figure := .int 0
  highIssues : Store.Figure := .int 0
  mediumIssues : Store.Figure := .int 0
  lowIssues : Store.Figure := .int 0
  qualityScore : Store.Figure := .null
  securityScore : Store.Figure := .null
  maintainabilityScore : Store.Figure := .null
  testCoverage : Store.Figure := .null
  summary : Option String := none
  recommendations : Value := .list []
  metadata : Value := .object []
  createdAt : Moment
  updatedAt : Option Moment
  completedAt : Option Moment := none
  repositoryId : Int
  authorId : Store.Figure

namespace Review

open Store

def report (r : Review) : Fields :=
  [("id", .int r.id), ("title", .text r.title), ("description", .ofText? r.description),
   ("status", .text r.status.name), ("progress", ofReal? r.progress),
   ("pr_number", ofInt? r.prNumber), ("pr_title", .ofText? r.prTitle), ("pr_url", .ofText? r.prUrl),
   ("source_branch", .ofText? r.sourceBranch), ("target_branch", .ofText? r.targetBranch),
   ("total_files", r.totalFiles), ("analyzed_files", r.analyzedFiles),
   ("total_issues", r.totalIssues), ("critical_issues", r.criticalIssues),
   ("high_issues", r.highIssues), ("medium_issues", r.mediumIssues), ("low_issues", r.lowIssues),
   ("code_quality_score", r.qualityScore), ("security_score", r.securityScore),
   ("maintainability_score", r.maintainabilityScore), ("test_coverage", r.testCoverage),
   ("ai_summary", .ofText? r.summary), ("ai_recommendations", r.recommendations),
   ("analysis_metadata", r.metadata), ("created_at", ofMoment r.createdAt),
   ("updated_at", ofMoment? r.updatedAt), ("completed_at", ofMoment? r.completedAt),
   ("repository_id", .int r.repositoryId), ("author_id", r.authorId)]

/-- The status that a column keeps; a text that names none cannot be written. -/
def statusColumn (v : Value) : Outcome ReviewStatus :=
  match v with
  | .null => .error (.conflict "NOT NULL constraint failed: reviews.status")
  | v =>
    match v.text?.bind ReviewStatus.ofName? with
    | some s => .ok s
    | none => .error (.missingKey v.plain)

def set (r : Review) (column : String) (v : Value) : Outcome Review := do
  match column with
  | "title" => return { r with title := ← required "reviews.title" (← textColumn v) }
  | "description" => return { r with description := ← textColumn v }
  | "status" => return { r with status := ← statusColumn v }
  | "progress" => return { r with progress := ← floatColumn v }
  | "pr_number" => return { r with prNumber := ← wholeColumn v }
  | "pr_title" => return { r with prTitle := ← textColumn v }
  | "pr_url" => return { r with prUrl := ← textColumn v }
  | "source_branch" => return { r with sourceBranch := ← textColumn v }
  | "target_branch" => return { r with targetBranch := ← textColumn v }
  | "total_files" => return { r with totalFiles := ← integerColumn v }
  | "analyzed_files" => return { r with analyzedFiles := ← integerColumn v }
  | "total_issues" => return { r with totalIssues := ← integerColumn v }
  | "critical_issues" => return { r with criticalIssues := ← integerColumn v }
  | "high_issues" => return { r with highIssues := ← integerColumn v }
  | "medium_issues" => return { r with mediumIssues := ← integerColumn v }
  | "low_issues" => return { r with lowIssues := ← integerColumn v }
  | "code_quality_score" => return { r with qualityScore := ← realColumn v }
  | "security_score" => return { r with securityScore := ← realColumn v }
  | "maintainability_score" => return { r with maintainabilityScore := ← realColumn v }
  | "test_coverage" => return { r with testCoverage := ← realColumn v }
  | "ai_summary" => return { r with summary := ← textColumn v }
  | "ai_recommendations" => return { r with recommendations := v }
  | "analysis_metadata" => return { r with metadata := v }
  | "created_at" => return { r with createdAt := ← required "reviews.created_at" (← timeColumn v) }
  | "updated_at" => return { r with updatedAt := ← timeColumn v }
  | "completed_at" => return { r with completedAt := ← timeColumn v }
  | "repository_id" =>
    return { r with repositoryId := ← required "reviews.repository_id" (← wholeColumn v) }
  | "author_id" =>
    return { r with authorId := ← requiredFigure "reviews.author_id" (← integerColumn v) }
  | _ => throw (.unknownColumn column)

def setAll (r : Review) (changes : Fields) : Outcome Review :=
  changes.foldlM (fun r c => r.set c.1 c.2) r

def ofFields (now : Moment) (id : Int) (fs : Fields) : Outcome Review := do
  let column (key : String) : Value := (Fields.get? fs key).getD .null
  let r : Review :=
    { id, title := ← required "reviews.title" (← textColumn (column "title")), createdAt := now,
      updatedAt := some now,
      repositoryId := ← required "reviews.repository_id" (← wholeColumn (column "repository_id")),
      authorId := ← requiredFigure "reviews.author_id" (← integerColumn (column "author_id")) }
  r.setAll ((givenColumns ["ai_recommendations", "analysis_metadata"] fs).filter fun f =>
    !(["id", "title", "repository_id", "author_id"].contains f.1))

def line (r : Review) : String :=
  let id := Value.intText r.id
  let status := r.status.label
  s!"<Review(id={id}, title='{r.title}', status='ReviewStatus.{status}')>"

end Review

structure Issue where
  id : Int
  title : String
  description : String
  category : String
  severity : Severity
  ruleId : Option String := none
  filePath : String
  lineStart : Int
  lineEnd : Option Int := none
  columnStart : Option Int := none
  columnEnd : Option Int := none
  codeSnippet : Option String := none
  suggestedFix : Option String := none
  explanation : Option String := none
  confidence : Option Float := none
  isResolved : Option Bool := some false
  isFalsePositive : Option Bool := some false
  createdAt : Moment
  updatedAt : Option Moment
  resolvedAt : Option Moment := none
  reviewId : Int

namespace Issue

open Store

def report (i : Issue) : Fields :=
  [("id", .int i.id), ("title", .text i.title), ("description", .text i.description),
   ("category", .text i.category), ("severity", .text i.severity.name),
   ("rule_id", .ofText? i.ruleId), ("file_path", .text i.filePath),
   ("line_start", .int i.lineStart), ("line_end", ofInt? i.lineEnd),
   ("column_start", ofInt? i.columnStart), ("column_end", ofInt? i.columnEnd),
   ("code_snippet", .ofText? i.codeSnippet), ("suggested_fix", .ofText? i.suggestedFix),
   ("ai_explanation", .ofText? i.explanation), ("confidence_score", ofReal? i.confidence),
   ("is_resolved", ofFlag? i.isResolved), ("is_false_positive", ofFlag? i.isFalsePositive),
   ("created_at", ofMoment i.createdAt), ("updated_at", ofMoment? i.updatedAt),
   ("resolved_at", ofMoment? i.resolvedAt), ("review_id", .int i.reviewId)]

def severityColumn (v : Value) : Outcome Severity :=
  match v with
  | .null => .error (.conflict "NOT NULL constraint failed: issues.severity")
  | v =>
    match v.text?.bind Severity.ofName? with
    | some s => .ok s
    | none => .error (.missingKey v.plain)

def set (i : Issue) (column : String) (v : Value) : Outcome Issue := do
  match column with
  | "title" => return { i with title := ← required "issues.title" (← textColumn v) }
  | "description" =>
    return { i with description := ← required "issues.description" (← textColumn v) }
  | "category" => return { i with category := ← required "issues.category" (← textColumn v) }
  | "severity" => return { i with severity := ← severityColumn v }
  | "rule_id" => return { i with ruleId := ← textColumn v }
  | "file_path" => return { i with filePath := ← required "issues.file_path" (← textColumn v) }
  | "line_start" => return { i with lineStart := ← required "issues.line_start" (← wholeColumn v) }
  | "line_end" => return { i with lineEnd := ← wholeColumn v }
  | "column_start" => return { i with columnStart := ← wholeColumn v }
  | "column_end" => return { i with columnEnd := ← wholeColumn v }
  | "code_snippet" => return { i with codeSnippet := ← textColumn v }
  | "suggested_fix" => return { i with suggestedFix := ← textColumn v }
  | "ai_explanation" => return { i with explanation := ← textColumn v }
  | "confidence_score" => return { i with confidence := ← floatColumn v }
  | "is_resolved" => return { i with isResolved := ← flagColumn v }
  | "is_false_positive" => return { i with isFalsePositive := ← flagColumn v }
  | "created_at" => return { i with createdAt := ← required "issues.created_at" (← timeColumn v) }
  | "updated_at" => return { i with updatedAt := ← timeColumn v }
  | "resolved_at" => return { i with resolvedAt := ← timeColumn v }
  | "review_id" => return { i with reviewId := ← required "issues.review_id" (← wholeColumn v) }
  | _ => throw (.unknownColumn column)

def setAll (i : Issue) (changes : Fields) : Outcome Issue :=
  changes.foldlM (fun i c => i.set c.1 c.2) i

def needed : List String :=
  ["title", "description", "category", "severity", "file_path", "line_start", "review_id"]

def ofFields (now : Moment) (id : Int) (fs : Fields) : Outcome Issue := do
  let column (key : String) : Value := (Fields.get? fs key).getD .null
  let text (key : String) : Outcome String := do
    required ("issues." ++ key) (← textColumn (column key))
  let whole (key : String) : Outcome Int := do
    required ("issues." ++ key) (← wholeColumn (column key))
  let i : Issue :=
    { id, title := ← text "title", description := ← text "description",
      category := ← text "category",
      severity := ← severityColumn (column "severity"), filePath := ← text "file_path",
      lineStart := ← whole "line_start", reviewId := ← whole "review_id", createdAt := now,
      updatedAt := some now }
  i.setAll ((givenColumns [] fs).filter fun f => !("id" :: needed).contains f.1)

def line (i : Issue) : String :=
  let id := Value.intText i.id
  let severity := i.severity.label
  s!"<Issue(id={id}, title='{i.title}', severity='IssueSeverity.{severity}')>"

end Issue

structure Comment where
  id : Int
  content : String
  kind : Option String := some "general"
  filePath : Option String := none
  lineNumber : Option Int := none
  isResolved : Option Bool := some false
  createdAt : Moment
  updatedAt : Option Moment
  authorId : Store.Figure
  reviewId : Store.Figure := .null
  issueId : Option Int := none
  parentId : Option Int := none

namespace Comment

open Store

def report (c : Comment) : Fields :=
  [("id", .int c.id), ("content", .text c.content), ("comment_type", .ofText? c.kind),
   ("file_path", .ofText? c.filePath), ("line_number", ofInt? c.lineNumber),
   ("is_resolved", ofFlag? c.isResolved), ("created_at", ofMoment c.createdAt),
   ("updated_at", ofMoment? c.updatedAt), ("author_id", c.authorId), ("review_id", c.reviewId),
   ("issue_id", ofInt? c.issueId), ("parent_id", ofInt? c.parentId)]

def set (c : Comment) (column : String) (v : Value) : Outcome Comment := do
  match column with
  | "content" => return { c with content := ← required "comments.content" (← textColumn v) }
  | "comment_type" => return { c with kind := ← textColumn v }
  | "file_path" => return { c with filePath := ← textColumn v }
  | "line_number" => return { c with lineNumber := ← wholeColumn v }
  | "is_resolved" => return { c with isResolved := ← flagColumn v }
  | "created_at" => return { c with createdAt := ← required "comments.created_at" (← timeColumn v) }
  | "updated_at" => return { c with updatedAt := ← timeColumn v }
  | "author_id" =>
    return { c with authorId := ← requiredFigure "comments.author_id" (← integerColumn v) }
  | "review_id" => return { c with reviewId := ← integerColumn v }
  | "issue_id" => return { c with issueId := ← wholeColumn v }
  | "parent_id" => return { c with parentId := ← wholeColumn v }
  | _ => throw (.unknownColumn column)

def setAll (c : Comment) (changes : Fields) : Outcome Comment :=
  changes.foldlM (fun c x => c.set x.1 x.2) c

def ofFields (now : Moment) (id : Int) (fs : Fields) : Outcome Comment := do
  let column (key : String) : Value := (Fields.get? fs key).getD .null
  let c : Comment :=
    { id, content := ← required "comments.content" (← textColumn (column "content")),
      authorId := ← requiredFigure "comments.author_id" (← integerColumn (column "author_id")),
      createdAt := now, updatedAt := some now }
  c.setAll ((givenColumns [] fs).filter fun f => !(["id", "content", "author_id"].contains f.1))

def line (c : Comment) : String :=
  let id := Value.intText c.id
  let author := c.authorId.plain
  s!"<Comment(id={id}, author_id={author})>"

end Comment

namespace Store

/-! ## Search -/

def foldChar (c : Char) : Char := c.toLower

/-- Whether a text fits a pattern: `%` stands for any characters, `_` for any single one, and the
case of ASCII letters does not count. -/
def fitsPattern : Chars → Chars → Bool
  | [], [] => true
  | [], _ :: _ => false
  | '%' :: ps, [] => fitsPattern ps []
  | '%' :: ps, c :: cs => fitsPattern ps (c :: cs) || fitsPattern ('%' :: ps) cs
  | _ :: _, [] => false
  | p :: ps, c :: cs => (p = '_' || foldChar p == foldChar c) && fitsPattern ps cs
termination_by ps cs => ps.length + cs.length

/-- A text up to its first NUL, behind which no search looks. -/
def legible (cs : Chars) : Chars := cs.takeWhile (· != '\x00')

/-- Whether a column contains what is searched for; the signs of a pattern count as such. A pattern
of more than 50000 bytes finds nothing. -/
def contains (cell : Option String) (wanted : String) : Bool :=
  match cell with
  | some s =>
    wanted.utf8ByteSize ≤ 49998 &&
      fitsPattern (legible ('%' :: wanted.toList ++ ['%'])) (legible s.toList)
  | none => false

/-! ## Order

Rows that are equal in the order stay as they stand.
-/

/-- The order of texts, null before all others. -/
def nullFirst {α : Type} (compare : α → α → Ordering) : Option α → Option α → Ordering
  | none, none => .eq
  | none, some _ => .lt
  | some _, none => .gt
  | some a, some b => compare a b

def compareTimes (a b : Moment) : Ordering := compare a.micros b.micros

def compareTexts (a b : String) : Ordering := compareOfLessAndEq a b

def compareFlags : Bool → Bool → Ordering
  | false, true => .lt
  | true, false => .gt
  | _, _ => .eq

def ascending {α : Type} (order : α → α → Ordering) (rows : List α) : List α :=
  rows.mergeSort fun a b => order a b != .gt

def descending {α : Type} (order : α → α → Ordering) (rows : List α) : List α :=
  rows.mergeSort fun a b => order a b != .lt

/-! ## Pages -/

/-- How many rows are left out and how many are given; without a limit all others are. -/
structure Page where
  skip : Nat := 0
  limit : Option Nat := none

/-- A number of rows: a text of digits stands for it too, and a fraction is cut off. -/
def rowCount (v : Value) : Outcome (Option Int) :=
  let checked (n : Int) : Outcome (Option Int) := do
    discard (parameter (.int n))
    return some n
  match v with
  | .null => .ok none
  | .bool b => .ok (some (if b then 1 else 0))
  | .int n => checked n
  | .real x =>
    if x.isNaN || x.isInf then .error (.invalid "cannot convert float to integer")
    else checked (Decimal.truncate x)
  | .text s =>
    match Decimal.intOfText? s.toList with
    | some n => checked n
    | none => .error (.invalid ("invalid literal for int() with base 10: " ++ Text.quoted s))
  | _ => .error (.mistyped "a number of rows is needed")

/-- A negative number of rows to skip is none; a negative limit is no limit. -/
def Page.of (skip limit : Value) : Outcome Page := do
  let skip ← rowCount skip
  let limit ← rowCount limit
  return { skip := (skip.getD 0).toNat
           limit := limit.bind fun n => if n < 0 then none else some n.toNat }

def Page.take {α : Type} (p : Page) (rows : List α) : List α :=
  match p.limit with
  | some n => (rows.drop p.skip).take n
  | none => rows.drop p.skip

end Store

structure Store where
  users : List User := []
  repositories : List Repository := []
  reviews : List Review := []
  issues : List Issue := []
  comments : List Comment := []

namespace Store

def nextId (ids : List Int) : Int := ids.foldl max 0 + 1

def changeWhere {α : Type} (picks : α → Bool) (f : α → Outcome α) (rows : List α) :
    Outcome (List α) :=
  rows.mapM fun r => if picks r then f r else .ok r

/-! ## Users -/

/-- Refuses users that cannot stand together. -/
def checkUsers : List User → Outcome Unit
  | [] => .ok ()
  | u :: us =>
    match us.findSome? u.clash with
    | some column => .error (.conflict ("UNIQUE constraint failed: " ++ column))
    | none => checkUsers us

def addUser (make : Int → Outcome User) (s : Store) : Outcome (User × Store) := do
  let u ← make (nextId (s.users.map (·.id)))
  let users := s.users ++ [u]
  checkUsers users
  return (u, { s with users })

variable (id : Value)

def changeUser (f : User → Outcome User) (s : Store) : Outcome Store := do
  let p ← parameter id
  let users ← changeWhere (fun u => intIs u.id p) f s.users
  checkUsers users
  return { s with users }

variable (s : Store)

def dropUser : Outcome Store := do
  let p ← parameter id
  return { s with users := s.users.filter fun u => !intIs u.id p }

def userById : Outcome (Option User) := do
  let p ← parameter id
  one (s.users.filter fun u => intIs u.id p)

/-! ## Repositories -/

def addRepository (make : Int → Outcome Repository) (s : Store) : Outcome (Repository × Store) := do
  let r ← make (nextId (s.repositories.map (·.id)))
  return (r, { s with repositories := s.repositories ++ [r] })

def changeRepository (f : Repository → Outcome Repository) (s : Store) : Outcome Store := do
  let p ← parameter id
  return { s with repositories := ← changeWhere (fun r => intIs r.id p) f s.repositories }

def dropRepository : Outcome Store := do
  let p ← parameter id
  return { s with repositories := s.repositories.filter fun r => !intIs r.id p }

def repositoryById : Outcome (Option Repository) := do
  let p ← parameter id
  one (s.repositories.filter fun r => intIs r.id p)

def repositoriesOf (user : Value) (s : Store) : Outcome (List Repository) := do
  let p ← parameter user
  return s.repositories.filter (·.ownedBy p)

/-! ## Reviews -/

def addReview (make : Int → Outcome Review) (s : Store) : Outcome (Review × Store) := do
  let r ← make (nextId (s.reviews.map (·.id)))
  return (r, { s with reviews := s.reviews ++ [r] })

def changeReview (f : Review → Outcome Review) (s : Store) : Outcome Store := do
  let p ← parameter id
  return { s with reviews := ← changeWhere (fun r => intIs r.id p) f s.reviews }

def dropReview : Outcome Store := do
  let p ← parameter id
  return { s with reviews := s.reviews.filter fun r => !intIs r.id p }

def reviewById : Outcome (Option Review) := do
  let p ← parameter id
  one (s.reviews.filter fun r => intIs r.id p)

def repositoryOf? (r : Review) : Option Repository :=
  s.repositories.find? (·.id == r.repositoryId)

/-- Whether a review hangs off a repository that belongs to a user. -/
def underOwner (owner : Value) (r : Review) : Bool :=
  (s.repositoryOf? r).any (·.ownedBy owner)

def reviewsOf (user : Value) (s : Store) : Outcome (List Review) := do
  return s.reviews.filter (s.underOwner (← parameter user))

def ownedReview (id user : Value) (s : Store) : Outcome (Option Review) := do
  let p ← parameter id
  let q ← parameter user
  one (s.reviews.filter fun r => intIs r.id p && s.underOwner q r)

/-! ## Issues -/

def addIssue (make : Int → Outcome Issue) (s : Store) : Outcome (Issue × Store) := do
  let i ← make (nextId (s.issues.map (·.id)))
  return (i, { s with issues := s.issues ++ [i] })

def changeIssue (f : Issue → Outcome Issue) (s : Store) : Outcome Store := do
  let p ← parameter id
  return { s with issues := ← changeWhere (fun i => intIs i.id p) f s.issues }

def issueById : Outcome (Option Issue) := do
  let p ← parameter id
  one (s.issues.filter fun i => intIs i.id p)

def reviewOf? (i : Issue) : Option Review := s.reviews.find? (·.id == i.reviewId)

def issuesOf (user : Value) (s : Store) : Outcome (List Issue) := do
  let p ← parameter user
  return s.issues.filter fun i => (s.reviewOf? i).any (s.underOwner p)

def issuesIn (review : Int) : List Issue := s.issues.filter (·.reviewId == review)

/-! ## Comments -/

def addComment (make : Int → Outcome Comment) (s : Store) : Outcome (Comment × Store) := do
  let c ← make (nextId (s.comments.map (·.id)))
  return (c, { s with comments := s.comments ++ [c] })

def commentsOn (review : Int) : List Comment :=
  s.comments.filter (figureIs ·.reviewId (.int review))

/-! ## Whole tables -/

def seed (table : String) (now : Moment) (rows : List Fields) (s : Store) : Outcome Store :=
  rows.foldlM (fun s fs => match table with
    | "User" => do return (← s.addUser fun id => User.ofFields now id fs).2
    | "Repository" => do return (← s.addRepository fun id => Repository.ofFields now id fs).2
    | "Review" => do return (← s.addReview fun id => Review.ofFields now id fs).2
    | "Issue" => do return (← s.addIssue fun id => Issue.ofFields now id fs).2
    | "Comment" => do return (← s.addComment fun id => Comment.ofFields now id fs).2
    | _ => .ok s) s

def rows (table : String) (s : Store) : List Fields :=
  match table with
  | "users" => s.users.map (·.report)
  | "repositories" => s.repositories.map (·.report)
  | "reviews" => s.reviews.map (·.report)
  | "issues" => s.issues.map (·.report)
  | "comments" => s.comments.map (·.report)
  | _ => []

def lines (table : String) (s : Store) : List String :=
  match table with
  | "users" => s.users.map (·.line)
  | "repositories" => s.repositories.map (·.line)
  | "reviews" => s.reviews.map (·.line)
  | "issues" => s.issues.map (·.line)
  | "comments" => s.comments.map (·.line)
  | _ => []

end Store

end ReviewDesk
