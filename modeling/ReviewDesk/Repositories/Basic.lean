import ReviewDesk.Accounts.Basic
import ReviewDesk.Reviews.Basic

/-!
# Connected repositories

Connecting, finding, changing and disconnecting the repositories of users.
-/

namespace ReviewDesk.Repositories

open Work Store

def defaultRules : Fields :=
  [("auto_review_enabled", .bool true), ("security_checks", .bool true),
   ("quality_checks", .bool true),
    ("performance_checks", .bool true), ("style_checks", .bool false),
    ("complexity_threshold", .int 10),
    ("min_test_coverage", .int 80),
    ("ignore_patterns", .ofTexts
      ["*.min.js", "*.min.css", "node_modules/*", "__pycache__/*", ".git/*", "*.log", "*.tmp"]),
    ("custom_rules", .list []),
    ("severity_thresholds", .object [("critical", .int 0), ("high", .int 5), ("medium", .int 20),
      ("low", .int 50)])]

def defaultNotifications : Fields :=
  [("email_on_review_complete", .bool true), ("email_on_critical_issues", .bool true),
   ("email_on_security_issues", .bool true), ("slack_notifications", .bool false),
   ("slack_webhook_url", .null), ("webhook_notifications", .bool false), ("webhook_url", .null),
   ("notify_on_improvement", .bool true), ("daily_summary", .bool false),
   ("weekly_summary", .bool true)]

/-! ## Connecting

A connection first looks for the same repository of the same user and then adds the row.
-/

def connected (externalId provider user : Value) (s : Store) : Outcome (Option Repository) := do
  let e ← parameter externalId
  let p ← parameter provider
  let u ← parameter user
  one (s.repositories.filter fun r =>
    textIs (some r.externalId) e && textIs (some r.provider) p && r.ownedBy u)

def newRepository (f : Filled) (owner : Value) (now : Moment) (id : Int) : Outcome Repository := do
  return { id, name := f.text "name", fullName := f.text "full_name",
           description := f.text? "description"
           url := f.text "url", cloneUrl := f.text "clone_url"
           defaultBranch := f.text? "default_branch"
           language := f.text? "language", isPrivate := some (f.get "is_private").truthy
           provider := f.text "provider", externalId := f.text "external_id"
           reviewRules := .object defaultRules
           notificationSettings := .object defaultNotifications, createdAt := now
           updatedAt := some now
           ownerId := ← requiredFigure "repositories.owner_id" (← integerColumn owner) }

def alreadyConnected : Fault := .invalid "Repository already connected"

def connect (f : Filled) (owner : Value) : Work Repository :=
  tryCatch (do
      if (← query (connected (f.get "external_id") (f.get "provider") owner)).isSome then
        throw alreadyConnected
      add (addRepository (newRepository f owner (← now))))
    fun fault => do
      match fault with
      | .invalid _ => throw fault
      | _ =>
        rollback
        throw (Accounts.conflictAs
          (.invalid "Repository with this external ID already exists") fault)

/-! ## Finding -/

def find (id : Value) : Work (Option Repository) := orElse (query (repositoryById id)) none

def owned (id user : Value) (s : Store) : Outcome (Option Repository) := do
  let p ← parameter id
  let u ← parameter user
  one (s.repositories.filter fun r => intIs r.id p && r.ownedBy u)

def findOwned (id user : Value) : Work (Option Repository) := orElse (query (owned id user)) none

def findConnected (externalId provider user : Value) : Work (Option Repository) :=
  orElse (query (connected externalId provider user)) none

structure Filter where
  search : Value := .null
  provider : Value := .null
  isActive : Value := .null

def Filter.picks (f : Filter) : Outcome (Repository → Bool) := do
  let provider ← parameter f.provider
  let active ← if f.isActive.isNull then .ok (none : Option Bool) else flagColumn f.isActive
  let search := f.search.plain
  return fun r =>
    (!f.search.truthy || contains (some r.name) search ||
      contains (some r.fullName) search ||
      contains r.description search) &&
    (!f.provider.truthy || textIs (some r.provider) provider) &&
      (active.isNone || r.isActive == active)

/-- The order by the last analysis and then by the time of connection. -/
def byRecency (a b : Repository) : Ordering :=
  (nullFirst compareTimes a.lastAnalysis b.lastAnalysis).then
    (compareTimes a.createdAt b.createdAt)

def listed (user : Value) (f : Filter) (skip limit : Value) (s : Store) : Outcome
    (List Repository) := do
  let rs ← s.repositoriesOf user
  let picks ← f.picks
  return (← Store.Page.of skip limit).take (descending byRecency (rs.filter picks))

def list (user : Value) (f : Filter) (skip limit : Value) : Work (List Repository) :=
  orElse (query (listed user f skip limit)) []

/-! ## Changes -/

def write (id : Value) (f : Repository → Outcome Repository) : Work Unit := do
  let t ← now
  change (changeRepository id fun r => do return { ← f r with updatedAt := some t })
  commit

def update (id : Value) (f : Filled) : Work (Option Repository) :=
  orRollback do
    if !f.changes.isEmpty then write id (·.setAll f.changes)
    find id

def setWebhook (id hook : Value) : Work Bool :=
  succeeds do
    let hook ← ofOutcome (textColumn hook)
    write id fun r => .ok { r with webhookId := hook }

def setFigures (id figures : Value) : Work Bool :=
  succeeds do
    let fs ← match figures with
      | .object fs => pure fs
      | _ => throw (.noAttribute "figures are an object")
    let files := (Fields.get? fs "total_files").getD (.int 0)
    let size ← ofOutcome (integerColumn files)
    let language ← ofOutcome (textColumn ((Fields.get? fs "primary_language").getD .null))
    let t ← now
    write id fun r =>
      .ok { r with size := if files.isNull then r.size else size
                   language := language.orElse fun _ => r.language
                   lastAnalysis := some t }

def disconnect (id : Value) : Work Bool :=
  succeeds do
    change (dropRepository id)
    commit

/-! ## Figures of a repository -/

def endOf (r : Review) : Moment := r.completedAt.getD r.createdAt

/-- Reviews per month, if the first and the last one are days apart. -/
def frequency (done : List Review) : Value :=
  match Reviews.earliest? (·.createdAt) done, Reviews.latest? (·.createdAt) done with
  | some first, some last =>
    let days := (Moment.mk (last.createdAt.micros - first.createdAt.micros)).days
    if 1 < done.length && 0 < days then
      .real (done.length.toFloat / (Decimal.floatOfInt days / 30))
    else .int 0
  | _, _ => .int 0

def trend (done : List Review) : Outcome String := do
  let recent := Reviews.lastOf 3 (Reviews.byAge done)
  match recent.map (·.qualityScore) with
  | [a, b, c] =>
    if a.truthy && b.truthy && c.truthy then
      if ← a.less c then return "improving"
      else if ← c.less a then return "declining"
      else return "stable"
    else return "stable"
  | _ => return "stable"

def figures (reviews : List Review) : Outcome Fields := do
  let done := Reviews.completed reviews
  return [("total_reviews", .ofNat reviews.length), ("completed_reviews", .ofNat done.length),
    ("pending_reviews", .ofNat (reviews.countP fun r =>
      r.status == .pending || r.status == .inProgress)),
    ("failed_reviews", .ofNat (Reviews.withStatus .failed reviews)),
    ("average_quality_score", ← Reviews.meanScore (·.qualityScore) done),
    ("average_security_score", ← Reviews.meanScore (·.securityScore) done),
    ("total_issues_found", ← Reviews.total (·.totalIssues) done),
    ("critical_issues_found", ← Reviews.total (·.criticalIssues) done),
    ("last_review_date", Value.ofOption (fun r => ofMoment (endOf r))
      (Reviews.latest? endOf done)),
    ("review_frequency", frequency done), ("improvement_trend", .text (← trend done))]

def recentReport (r : Review) : Value :=
  .object [("id", .int r.id), ("title", .text r.title), ("status", .text r.status.name),
           ("progress", ofReal? r.progress), ("total_issues", r.totalIssues),
           ("critical_issues", r.criticalIssues), ("code_quality_score", r.qualityScore),
           ("created_at", ofMoment r.createdAt),
           ("completed_at", ofMoment? r.completedAt)]

def reviewsIn (id : Value) (s : Store) : Outcome (List Review) := do
  let p ← parameter id
  return s.reviews.filter fun r => intIs r.repositoryId p

def byCreation (a b : Review) : Ordering := compareTimes a.createdAt b.createdAt

def recent (id limit : Value) : Work (List Value) :=
  orElse (query fun s => do
      let rs ← reviewsIn id s
      return ((← Store.Page.of .null limit).take (descending byCreation rs)).map recentReport)
    []

def daysBefore (now : Moment) (days : Value) : Outcome Moment := do
  let micros ← match days.number? with
    | some (.whole n) => .ok (n * Moment.day)
    | some (.real x) =>
      if x.isNaN || x.isInf then .error (.tooLarge "days out of range")
      else .ok (ZonedMoment.microsOf 86400000000 x)
    | none => .error (.mistyped "days are a number")
  let m := now.addMicros (-micros)
  if m.inCalendar then return m else throw (.tooLarge "date value out of range")

def qualityTrend (id days : Value) : Work (List Value) :=
  orElse (do
      let start ← ofOutcome (daysBefore (← now) days)
      query fun s => do
        let rs ← reviewsIn id s
        let scored := rs.filterMap fun r =>
          match r.completedAt with
          | some t =>
            if r.status == .completed && decide (start ≤ t) && !r.qualityScore.isNull then
              some (t, r)
            else none
          | none => none
        let ordered := ascending (fun a b => compareTimes a.1 b.1) scored
        return ordered.map fun (t, r) =>
          .object [("date", ofMoment t), ("quality_score", r.qualityScore),
                   ("security_score", r.securityScore), ("total_issues", r.totalIssues),
                   ("critical_issues", r.criticalIssues)])
    []

def withFigures (id user : Value) : Work (Option Fields) :=
  orElse (do
      match ← query (owned id user) with
      | none => return none
      | some r =>
        let reviews := (← get).store.reviews.filter (·.repositoryId == r.id)
        let stats := Outcome.getD (figures reviews) []
        let recent ← recent id (.int 5)
        let trend ← qualityTrend id (.int 30)
        let columns := r.report.filter fun f =>
          !(["total_reviews", "total_issues", "avg_review_time", "owner_id"].contains f.1)
        return some (columns ++ [("stats", .object stats), ("recent_reviews", .list recent),
          ("quality_trend", .list trend)]))
    none

end ReviewDesk.Repositories
