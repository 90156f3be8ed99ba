import ReviewDesk.Severity
import ReviewDesk.Time.Moment
import ReviewDesk.Value.Basic

/-!
# Forms

A form says which fields an object must or can have, and of which kind. Reading an object by a form
gives its fields in the order of the form, each brought to its kind, or all faults that were found.
-/

namespace ReviewDesk

namespace Form

/-! ## E-mail addresses

An address may stand in angle brackets after a name. It has one `@`; the part before it is made of
atoms between dots, the part after it is the name of a host with at least one dot, which is kept in
small letters.
-/

open Pattern

def namedAddress : Pattern :=
  capture 1 (run (fun c => Text.isWord c || c = ' ') 0 false) ++ run (· = ' ') 0 true ++ char '<' ++
    capture 2 line ++ char '>' ++ run (· = ' ') 0 true

def bareAddress (cs : Chars) : Chars :=
  Text.trim (((namedAddress.matchWhole cs).bind (·.group? 2)).getD cs)

def isAtomChar (c : Char) : Bool :=
  c.isAlphanum || "!#$%&'*+-/=?^_`\x7b|\x7d~".toList.contains c || 128 ≤ c.toNat

/-- Parts that are not empty and hold only characters that are allowed. -/
def dottedParts (ok : Chars → Bool) (cs : Chars) : Bool :=
  (Text.splitAtText ['.'] cs).all fun p => !p.isEmpty && ok p

def isLocal (cs : Chars) : Bool := cs.length ≤ 64 && dottedParts (·.all isAtomChar) cs

def isHostChar (c : Char) : Bool :=
  if c.toNat < 128 then c.isAlphanum || c = '-' else Text.isLetterOrDigit c

def isHostPart (cs : Chars) : Bool :=
  cs.length ≤ 63 && cs.all isHostChar && cs.head? != some '-' && cs.getLast? != some '-'

/-- Endings of hosts that are kept for other uses. -/
def reservedHosts : List String := ["arpa", "invalid", "local", "localhost", "onion", "test"]

def isHost (cs : Chars) : Bool :=
  let parts := Text.splitAtText ['.'] cs
  cs.length ≤ 253 && 2 ≤ parts.length && parts.all (fun p => !p.isEmpty && isHostPart p) &&
    (match cs.getLast? with
      | some c => c.isAlpha || 128 ≤ c.toNat
      | none => false) &&
    !reservedHosts.contains (Text.lowered (.ofList (parts.getLast?.getD [])))

def email? (s : String) : Option String :=
  let cs := bareAddress s.toList
  match Text.splitAtText ['@'] cs with
  | [name, host] =>
    if cs.length ≤ 254 && isLocal name && isHost host then
      some (.ofList (name ++ '@' :: Text.lower host))
    else none
  | _ => none

mutual

inductive Kind where
  | any
  | text (least : Nat) (most : Option Nat)
  | email
  | int (least most : Option Int)
  | real
  | flag
  | time
  | oneOf (members : List String)
  | dict
  | list (item : Kind)
  | form (name : String) (slots : List Slot)

/-- A field of a form. A field that has no default must be given. -/
inductive Slot where
  | mk (name : String) (kind : Kind) (nullable : Bool) (default : Option Value)
    (rule : Value → Option String)

end

def Slot.name : Slot → String
  | .mk name _ _ _ _ => name

/-! ## Building forms -/

def need (name : String) (kind : Kind) : Slot := .mk name kind false none fun _ => none

def with_ (name : String) (kind : Kind) (default : Value) : Slot :=
  .mk name kind false (some default) fun _ => none

/-- A field that can be null, and is if it is not given. -/
def may (name : String) (kind : Kind) : Slot := .mk name kind true (some .null) fun _ => none

def aText : Kind := .text 0 none

def anInt : Kind := .int none none

/-- A value that was read, or the faults of its fields. -/
abbrev Reading (α : Type) := Except (List FieldError) α

/-! ## Faults -/

variable (place : List Value)

def fault (kind message : String) : FieldError := { place, kind, message }

def missing : FieldError := fault place "value_error.missing" "field required"

def nullFault : FieldError :=
  fault place "type_error.none.not_allowed" "none is not an allowed value"

def limitFault (kind message : String) (limit : Int) : FieldError :=
  { place, kind, message, context := some [("limit_value", .int limit)] }

/-! ## Single values -/

variable (v : Value)

def readText : Reading String :=
  match v with
  | .text s => .ok s
  | .int _ | .real _ | .bool _ => .ok v.plain
  | _ => .error [fault place "type_error.str" "str type expected"]

def checkLength (least : Nat) (most : Option Nat) (s : String) : Reading String :=
  let n := s.length
  if n < least then
    .error [limitFault place "value_error.any_str.min_length"
      s!"ensure this value has at least {least} characters" least]
  else
    match most with
    | some m =>
      if m < n then
        .error [limitFault place "value_error.any_str.max_length"
          s!"ensure this value has at most {m} characters" m]
      else .ok s
    | none => .ok s

def readEmail : Reading String := do
  match email? (← readText place v) with
  | some s => return s
  | none => throw [fault place "value_error.email" "value is not a valid email address"]

/-- A whole number; an infinite one cannot be brought to this kind at all. -/
def readInt : Outcome (Reading Int) :=
  let bad : Outcome (Reading Int) :=
    .ok (.error [fault place "type_error.integer" "value is not a valid integer"])
  match v with
  | .int n => .ok (.ok n)
  | .bool b => .ok (.ok (if b then 1 else 0))
  | .real x =>
    if x.isNaN then bad
    else if x.isInf then .error (.tooLarge "an infinite number is no whole number")
    else .ok (.ok (Decimal.truncate x))
  | .text s =>
    match Decimal.intOfText? s.toList with
    | some n => .ok (.ok n)
    | none => bad
  | _ => bad

def checkBounds (least most : Option Int) (n : Int) : Reading Int :=
  match least, most with
  | some a, some b => if n < a then below a else if b < n then above b else .ok n
  | some a, none => if n < a then below a else .ok n
  | none, some b => if b < n then above b else .ok n
  | none, none => .ok n
where
  below (a : Int) : Reading Int :=
    .error [limitFault place "value_error.number.not_ge"
      s!"ensure this value is greater than or equal to {a}" a]
  above (b : Int) : Reading Int :=
    .error [limitFault place "value_error.number.not_le"
      s!"ensure this value is less than or equal to {b}" b]

/-- A floating-point number; an integer beyond its range cannot be brought to this kind at all. -/
def readReal : Outcome (Reading Float) :=
  let bad : Outcome (Reading Float) :=
    .ok (.error [fault place "type_error.float" "value is not a valid float"])
  match v with
  | .real x => .ok (.ok x)
  | .int n =>
    let x := Decimal.floatOfInt n
    if x.isInf then .error (.tooLarge "too large for a real number") else .ok (.ok x)
  | .bool b => .ok (.ok (if b then 1 else 0))
  | .text s =>
    match Decimal.floatOfText? s.toList with
    | some x => .ok (.ok x)
    | none => bad
  | _ => bad

def trueWords : List String := ["1", "on", "t", "true", "y", "yes"]

def falseWords : List String := ["0", "off", "f", "false", "n", "no"]

def readFlag : Reading Bool :=
  let bad : Reading Bool :=
    .error [fault place "type_error.bool" "value could not be parsed to a boolean"]
  match v with
  | .bool b => .ok b
  | .text s =>
    let w := Text.lowered s
    if trueWords.contains w then .ok true else if falseWords.contains w then .ok false else bad
  | v => if v.same (.int 1) then .ok true else if v.same (.int 0) then .ok false else bad

def readTime : Reading ZonedMoment :=
  let bad : Reading ZonedMoment :=
    .error [fault place "value_error.datetime" "invalid datetime format"]
  let ofNumber (x : Float) : Reading ZonedMoment :=
    if x.isNaN then .error [fault place "value_error" "cannot convert float NaN to integer"]
    else .ok (.ofSeconds x)
  match v with
  | .int n => ofNumber (Decimal.floatOfInt n)
  | .bool b => ofNumber (if b then 1 else 0)
  | .real x => ofNumber x
  | .text s =>
    match Decimal.floatOfText? s.toList with
    | some x => ofNumber x
    | none =>
      match ZonedMoment.ofText? s.toList with
      | some z => .ok z
      | none => bad
  | _ =>
    .error [fault place "type_error" "invalid type; expected datetime, string, bytes, int or float"]

def readMember (members : List String) (v : Value) : Reading String :=
  match v with
  | .text s => if members.contains s then .ok s else bad
  | _ => bad
where
  bad : Reading String :=
    .error [{ place
              kind := "type_error.enum"
              message := "value is not a valid enumeration member; permitted: " ++
                ", ".intercalate (members.map Text.quoted)
              context := some [("enum_values", .ofTexts members)] }]

/-! ## Objects -/

def pair? : Option (Value × Value) :=
  match v with
  | .list [a, b] => some (a, b)
  | .text s =>
    match s.toList with
    | [a, b] => some (.text (.ofList [a]), .text (.ofList [b]))
    | _ => none
  | .object [(a, _), (b, _)] => some (.text a, .text b)
  | _ => none

def isKey : Value → Bool
  | .list _ | .object _ => false
  | _ => true

def setPair (pairs : List (Value × Value)) (key v : Value) : List (Value × Value) :=
  if pairs.any (·.1.same key) then pairs.map fun p => if p.1.same key then (p.1, v) else p
  else pairs ++ [(key, v)]

def pairs? : Option (List (Value × Value)) :=
  match v with
  | .object fs => some (fs.map fun f => (.text f.1, f.2))
  | .text "" => some []
  | .list vs =>
    match vs.mapM pair? with
    | some ps =>
      if ps.all (isKey ·.1) then some (ps.foldl (fun acc p => setPair acc p.1 p.2) []) else none
    | none => none
  | _ => none

def dictFault : FieldError :=
  fault place "type_error.dict" "value is not a valid dict"

def readPairs (place : List Value) : List (Value × Value) → Reading Fields
  | [] => .ok []
  | (k, v) :: rest =>
    let key : Reading String :=
      match k with
      | .null => .error [nullFault (place ++ [.text "__key__"])]
      | k => readText (place ++ [.text "__key__"]) k
    match key, readPairs place rest with
    | .ok s, .ok fs => .ok ((s, v) :: fs)
    | .error e, .ok _ => .error e
    | .ok _, .error es => .error es
    | .error e, .error es => .error (e ++ es)

def readDict : Reading Fields :=
  match pairs? v with
  | some ps => (readPairs place ps).map fun fs => Fields.merge [] fs
  | none => .error [dictFault place]

/-! ## Forms -/

/-- Puts two readings together, with the faults of both. -/
def both {α β : Type} (a : Reading α) (b : Reading β) : Reading (α × β) :=
  match a, b with
  | .ok x, .ok y => .ok (x, y)
  | .error e, .ok _ => .error e
  | .ok _, .error e => .error e
  | .error e, .error e' => .error (e ++ e')

def allOf {α : Type} : List (Reading α) → Reading (List α)
  | [] => .ok []
  | r :: rs => (both r (allOf rs)).map fun p => p.1 :: p.2

/-- A field is checked by its rule after it was read. -/
def checkRule (rule : Value → Option String) (v : Value) : Reading Value :=
  match rule v with
  | some message => .error [fault place "value_error" message]
  | none => .ok v

mutual

def Kind.read (place : List Value) (v : Value) : Kind → Outcome (Reading Value)
  | .any => .ok (.ok v)
  | .text least most => .ok (do return .text (← checkLength place least most (← readText place v)))
  | .email => .ok (do return .text (← readEmail place v))
  | .int least most => do
    let r ← readInt place v
    return do return .int (← checkBounds place least most (← r))
  | .real => do
    let r ← readReal place v
    return do return .real (← r)
  | .flag => .ok (do return .bool (← readFlag place v))
  | .time => .ok (do return .text (← readTime place v).iso)
  | .oneOf members => .ok (do return .text (← readMember place members v))
  | .dict => .ok (do return .object (← readDict place v))
  | .list item =>
    match v with
    | .list vs => do
      let rs ← vs.zipIdx.mapM fun (x, i) =>
        let p := place ++ [.ofNat i]
        if x.isNull then .ok (.error [nullFault p]) else item.read p x
      return do return .list (← allOf rs)
    | _ => .ok (.error [fault place "type_error.list" "value is not a valid list"])
  | .form _ slots =>
    match v with
    | .object fs => do
      let r ← readSlots place fs slots
      return do return .object (← r)
    | _ =>
      match pairs? v with
      | some ps => do
        let r ← readSlots place (ps.map fun p => (p.1.plain, p.2)) slots
        return do return .object (← r)
      | none => .ok (.error [dictFault place])

def Slot.read (place : List Value) (data : Fields) : Slot → Outcome (Reading Value)
  | .mk name kind nullable default rule =>
    let p := place ++ [.text name]
    match Fields.get? data name, default with
    | none, some d => .ok (.ok d)
    | none, none => .ok (.error [missing p])
    | some .null, _ => if nullable then .ok (.ok .null) else .ok (.error [nullFault p])
    | some v, _ => do
      let r ← kind.read p v
      return do checkRule p rule (← r)

def readSlots (place : List Value) (data : Fields) : List Slot → Outcome (Reading Fields)
  | [] => .ok (.ok [])
  | s :: rest => do
    let r ← s.read place data
    let rs ← readSlots place data rest
    return (both r rs).map fun p => (s.name, p.1) :: p.2

end

end Form

structure Form where
  name : String
  slots : List Form.Slot

/-- An object that was read: all fields of the form, and the names of those that were given. -/
structure Filled where
  values : Fields
  given : List String

namespace Filled

def changes (f : Filled) : Fields := f.values.filter fun v => f.given.contains v.1

def get (f : Filled) (key : String) : Value := (Fields.get? f.values key).getD .null

def text (f : Filled) (key : String) : String := (f.get key).plain

def text? (f : Filled) (key : String) : Option String := (f.get key).text?

end Filled

namespace Form

def kind (f : Form) : Kind := .form f.name f.slots

def readAt (f : Form) (place : List Value) (data : Fields) : Outcome (Reading Filled) := do
  let r ← readSlots place data f.slots
  return r.map fun values => { values, given := (f.slots.map (·.name)).filter (Fields.has data) }

def read (f : Form) (v : Value) : Outcome Filled := do
  let data ← match v with
    | .object fs => .ok fs
    | v =>
      match pairs? v with
      | some ps => .ok (ps.map fun p => (p.1.plain, p.2))
      | none =>
        .error (.invalidFields [fault [.text "__root__"] "type_error"
          (f.name ++ " expected dict not " ++ v.kindName)])
  match ← f.readAt [] data with
  | .ok filled => return filled
  | .error es => throw (.invalidFields es)

end Form

namespace Form

/-! ## Forms about repositories -/

def repositoryBase : List Slot :=
  [need "name" aText, need "full_name" aText, may "description" aText, need "url" aText,
   need "clone_url" aText, with_ "default_branch" aText (.text "main"), may "language" aText,
   with_ "is_private" .flag (.bool false)]

def providers : List String := ["github", "gitlab", "bitbucket"]

def provider : Slot :=
  .mk "provider" aText false none fun v =>
    if providers.contains v.plain then none
    else some ("Provider must be one of: " ++ (Value.ofTexts providers).shown)

def repositoryCreate : Form :=
  ⟨"RepositoryCreate", repositoryBase ++ [provider, need "external_id" aText]⟩

def repositoryUpdate : Form :=
  ⟨"RepositoryUpdate",
    [may "name" aText, may "description" aText, may "default_branch" aText, may "is_active" .flag,
     may "analysis_enabled" .flag, may "auto_review" .flag, may "review_rules" .dict,
     may "notification_settings" .dict]⟩

def repositorySlots : List Slot :=
  repositoryBase ++
    [need "id" anInt, with_ "size" anInt (.int 0), with_ "is_active" .flag (.bool true),
     with_ "is_archived" .flag (.bool false), need "provider" aText, need "external_id" aText,
     may "webhook_id" aText, with_ "analysis_enabled" .flag (.bool true),
     with_ "auto_review" .flag (.bool true), with_ "review_rules" .dict (.object []),
     with_ "notification_settings" .dict (.object []), with_ "total_reviews" anInt (.int 0),
     with_ "total_issues" anInt (.int 0), with_ "avg_review_time" anInt (.int 0),
     need "created_at" .time, may "updated_at" .time, may "last_analysis" .time,
     need "owner_id" anInt]

def repository : Form := ⟨"Repository", repositorySlots⟩

def reviewOfRepository : Form :=
  ⟨"ReviewSummary",
    [need "id" anInt, need "title" aText, need "status" aText, need "created_at" .time,
      with_ "total_issues" anInt (.int 0), may "code_quality_score" .real]⟩

def repositoryWithStats : Form :=
  ⟨"RepositoryWithStats", repositorySlots ++
    [with_ "recent_reviews" (.list reviewOfRepository.kind) (.list []),
     with_ "quality_trend" (.list .dict) (.list [])]⟩

def connectRepositoryRequest : Form :=
  ⟨"ConnectRepositoryRequest", [provider, need "repository_url" aText, may "access_token" aText]⟩

def webhookSetupRequest : Form :=
  ⟨"WebhookSetupRequest",
    [need "repository_id" anInt, need "webhook_url" aText,
      with_ "events" (.list aText) (.ofTexts ["push", "pull_request"])]⟩

def repositoryForms : List Form :=
  [⟨"RepositoryBase", repositoryBase⟩, repositoryCreate, repositoryUpdate,
   ⟨"RepositoryInDBBase", repositorySlots⟩, repository, reviewOfRepository, repositoryWithStats,
   connectRepositoryRequest, webhookSetupRequest]

/-! ## Forms about reviews -/

def reviewStatus : Kind := .oneOf ["pending", "in_progress", "completed", "failed"]

/-- The severities, from the least to the greatest. -/
def severity : Kind := .oneOf (Severity.all.reverse.map Severity.name)

def reviewBase : List Slot :=
  [need "title" aText, may "description" aText, may "pr_number" anInt, may "pr_title" aText,
   may "pr_url" aText, may "source_branch" aText, may "target_branch" aText]

def reviewCreate : Form := ⟨"ReviewCreate", reviewBase ++ [need "repository_id" anInt]⟩

def reviewUpdate : Form :=
  ⟨"ReviewUpdate", [may "title" aText, may "description" aText, may "status" reviewStatus]⟩

def issueBase : List Slot :=
  [need "title" aText, need "description" aText, need "category" aText, need "severity" severity,
   may "rule_id" aText, need "file_path" aText, need "line_start" anInt, may "line_end" anInt,
   may "column_start" anInt, may "column_end" anInt, may "code_snippet" aText,
   may "suggested_fix" aText]

def issueCreate : Form :=
  ⟨"IssueCreate", issueBase ++ [need "review_id" anInt, may "ai_explanation" aText,
    may "confidence_score" .real]⟩

def issueUpdate : Form := ⟨"IssueUpdate", [may "is_resolved" .flag, may "is_false_positive" .flag]⟩

def issue : Form :=
  ⟨"Issue", issueBase ++
    [need "id" anInt, need "review_id" anInt, may "ai_explanation" aText,
     may "confidence_score" .real, with_ "is_resolved" .flag (.bool false),
     with_ "is_false_positive" .flag (.bool false), need "created_at" .time, may "updated_at" .time,
     may "resolved_at" .time]⟩

def commentBase : List Slot :=
  [need "content" aText, with_ "comment_type" aText (.text "general"), may "file_path" aText,
   may "line_number" anInt]

def commentCreate : Form :=
  ⟨"CommentCreate", commentBase ++ [may "review_id" anInt, may "issue_id" anInt,
    may "parent_id" anInt]⟩

def comment : Form :=
  ⟨"Comment", commentBase ++
    [need "id" anInt, need "author_id" anInt, may "review_id" anInt, may "issue_id" anInt,
     may "parent_id" anInt, with_ "is_resolved" .flag (.bool false), need "created_at" .time,
     may "updated_at" .time]⟩

def reviewSlots : List Slot :=
  reviewBase ++
    [need "id" anInt, need "status" reviewStatus, with_ "progress" .real (.real 0),
     with_ "total_files" anInt (.int 0),
      with_ "analyzed_files" anInt (.int 0), with_ "total_issues" anInt (.int 0),
      with_ "critical_issues" anInt (.int 0),
      with_ "high_issues" anInt (.int 0), with_ "medium_issues" anInt (.int 0),
      with_ "low_issues" anInt (.int 0),
      may "code_quality_score" .real, may "security_score" .real, may "maintainability_score" .real,
      may "test_coverage" .real, may "ai_summary" aText, with_ "ai_recommendations" (.list .dict)
        (.list []),
      with_ "analysis_metadata" .dict (.object []), need "created_at" .time, may "updated_at" .time,
      may "completed_at" .time, need "repository_id" anInt, need "author_id" anInt]

def review : Form :=
  ⟨"Review", reviewSlots ++
    [with_ "issues" (.list issue.kind) (.list []), with_ "comments" (.list comment.kind)
      (.list [])]⟩

def reviewSummary : Form :=
  ⟨"ReviewSummary",
    [need "id" anInt, need "title" aText, need "status" reviewStatus, need "progress" .real,
     need "total_issues" anInt, need "critical_issues" anInt, may "code_quality_score" .real,
     need "created_at" .time, may "completed_at" .time, need "repository_id" anInt]⟩

def analysisRequest : Form :=
  ⟨"AnalysisRequest",
    [need "repository_id" anInt, may "branch" aText, may "commit_sha" aText,
     may "files" (.list aText), may "rules" (.list aText)]⟩

def analysisProgress : Form :=
  ⟨"AnalysisProgress",
    [need "review_id" anInt, need "status" reviewStatus, need "progress" .real,
     may "current_file" aText, need "total_files" anInt, need "analyzed_files" anInt,
     may "estimated_time_remaining" anInt]⟩

def reviewForms : List Form :=
  [⟨"ReviewBase", reviewBase⟩, reviewCreate, reviewUpdate, ⟨"IssueBase", issueBase⟩, issueCreate,
   issueUpdate, issue, ⟨"CommentBase", commentBase⟩, commentCreate, comment,
   ⟨"ReviewInDBBase", reviewSlots⟩, review, reviewSummary, analysisRequest, analysisProgress]

end Form

end ReviewDesk
