import ReviewDesk.Analysis.File
import ReviewDesk.Reviews.Basic

/-!
# Jobs

A job is work that is done after the request that asked for it. It tells how far it is.
-/

namespace ReviewDesk.Jobs

open Work

structure Checkout where
  prepared : Outcome Unit := .ok ()
  changed : List Value := []
  read : Value → Outcome Value := fun _ => .ok (.text "")
  figures : Value := .object []

def progress (percent : Nat) (status : String) : Work Unit :=
  tell "PROGRESS" [("current", .ofNat percent), ("total", .int 100), ("status", .text status)]

def success (result : Fields) : Work Fields := do
  tell "SUCCESS" [("current", .int 100), ("total", .int 100), ("result", .object result)]
  return result

def failing (x : Work Fields) : Work Fields :=
  tryCatch x fun fault => do
    tell "FAILURE" [("error", .text fault.message)]
    throw fault

def health (worker : String) : Fields := [("status", .text "healthy"), ("worker_id", .text worker)]

/-!
## The job that analyzes changes

The files of a review are analyzed one after the other and what is found is stored. A file that
cannot be read, or an issue that cannot be stored, ends the work on that file only.
-/

structure AnalysisOrder where
  review : Value
  repository : Value
  /-- The files; without any, those that changed. -/
  files : Value := .null
  rules : Value := .null
  /-- The helpers that are at hand when the file at a position is analyzed. -/
  tools : Nat → Analysis.Tools := fun _ => {}

def projectOf (r : Repository) : Analysis.Project :=
  { name := .text r.name, language := .ofText? r.language, description := .ofText? r.description }

variable (c : Checkout) (o : AnalysisOrder)

def issuesOf (project : Analysis.Project) (index : Nat)
    (path : Value) : Outcome (List Analysis.Issue) := do
  return (Analysis.analyze (o.tools index) project path (← c.read path) o.rules).1

/-- Stores issues up to the first one that cannot be stored; says whether all were. -/
def storeIssues (review : Value) : List Analysis.Issue → Work (List Issue × Bool)
  | [] => return ([], true)
  | i :: rest => do
    match ← attempt (Issues.create review (.object i.fields)) with
    | none => return ([], false)
    | some row =>
      let (rows, all) ← storeIssues review rest
      return (row :: rows, all)

structure Tally where
  analyzed : Nat := 0
  issues : List Issue := []

def analyzeFile (project : Analysis.Project) (total : Nat)
    (t : Tally) (index : Nat) (path : Value) : Work Tally := do
  progress (20 + index * 60 / total) ("Analyzing " ++ path.plain ++ "...")
  match issuesOf c o project index path with
  | .error _ => return t
  | .ok found =>
    let (rows, all) ← storeIssues o.review found
    let t := { t with issues := t.issues ++ rows }
    if all then
      let t := { t with analyzed := t.analyzed + 1 }
      discard (Reviews.setFileCounts o.review (.ofNat total) (.ofNat t.analyzed))
      return t
    else return t

def analyzeFiles (c : Checkout) (o : AnalysisOrder) (project : Analysis.Project) (total : Nat) :
    Tally → Nat → List Value → Work Tally
  | t, _, [] => return t
  | t, index, path :: rest => do
    analyzeFiles c o project total (← analyzeFile c o project total t index path) (index + 1) rest

/-- The figures over stored issues. A row is not read as a finding is, so that only the figures over
no issues are told; all others are put in the middle. -/
def storedMetrics (issues : List Issue) (files : Nat) : Fields :=
  if issues.isEmpty then Analysis.qualityMetrics [] (.ofNat files)
  else Analysis.neutralFields issues.length

def filesOf (files : Value) : Outcome (List Value) :=
  if files.truthy then
    match files.items with
    | .ok xs => .ok xs
    | .error _ => .error (.mistyped s!"object of type '{files.kindName}' has no len()")
  else .ok c.changed

def analysis (c : Checkout) (o : AnalysisOrder) : Work Fields := do
  let review ← Reviews.find o.review
  let repository ← Reviews.repository o.repository
  match review, repository with
  | some _, some repository =>
    discard (Reviews.setStatus o.review .inProgress)
    progress 10 "Cloning repository..."
    ofOutcome c.prepared
    progress 20 "Analyzing files..."
    let files ← ofOutcome (filesOf c o.files)
    let total := files.length
    discard (Reviews.setFileCounts o.review (.ofNat total) (.int 0))
    let t ← analyzeFiles c o (projectOf repository) total {} 0 files
    progress 80 "Generating quality scores..."
    let metrics := storedMetrics t.issues total
    discard (Reviews.setResults o.review (.object metrics) (.ofNat t.issues.length))
    progress 90 "Finalizing analysis..."
    discard (Reviews.setStatus o.review .completed)
    let score (key : String) : Value := (Fields.get? metrics key).getD .null
    success [("review_id", o.review), ("total_files", .ofNat total),
             ("analyzed_files", .ofNat t.analyzed), ("total_issues", .ofNat t.issues.length),
             ("quality_score", score "code_quality_score"),
             ("security_score", score "security_score"), ("status", .text "completed")]
  | _, _ => throw (.invalid "Review or repository not found")

def analysisOrFailed : Work Fields :=
  tryCatch (analysis c o) fun fault => do
    discard (Reviews.setStatus o.review .failed)
    throw fault

def analyzeChanges : Work Fields :=
  failing do
    progress 0 "Starting analysis..."
    analysisOrFailed c o

end ReviewDesk.Jobs
