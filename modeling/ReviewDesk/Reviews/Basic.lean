import ReviewDesk.Desk

/-!
# Reviews of code

A review is made for a repository of its author, goes through an analysis, and can be read by the
owner of the repository.
-/

namespace ReviewDesk

namespace Reviews

/-! ## Tallies over reviews

Counts, sums and means of columns over a list of reviews. A sum over a column that is null
somewhere, or no number, fails.
-/

def completed (rs : List Review) : List Review := rs.filter (·.status == .completed)

def withStatus (status : ReviewStatus) (rs : List Review) : Nat := rs.countP (·.status == status)

def scores (score : Review → Value) (rs : List Review) : List Value :=
  (rs.map score).filter (·.truthy)

def meanScore (score : Review → Value) (rs : List Review) : Outcome Value :=
  Value.mean (scores score rs) (.real 0)

def total (column : Review → Value) (rs : List Review) : Outcome Value := Value.sum (rs.map column)

def latest? (time : Review → Moment) : List Review → Option Review
  | [] => none
  | r :: rs => some (rs.foldl (fun best x => if time best < time x then x else best) r)

def earliest? (time : Review → Moment) : List Review → Option Review
  | [] => none
  | r :: rs => some (rs.foldl (fun best x => if time x < time best then x else best) r)

/-- Whether a review was made at or after a moment of the clock. The clock has a zone and the
moments of a store have none. -/
def madeSince (start : Moment) (r : Review) : Outcome Bool :=
  match ZonedMoment.micros? ⟨start, some 0⟩ ⟨r.createdAt, none⟩ with
  | some n => .ok (0 ≤ n)
  | none => .error .zoneMismatch

def byAge (rs : List Review) : List Review :=
  rs.mergeSort fun a b => decide (a.createdAt ≤ b.createdAt)

def lastOf {α : Type} (n : Nat) (xs : List α) : List α := xs.drop (xs.length - n)

open Work Store

/-! ## Making and finding -/

variable (id : Value)

def repository : Work (Option Repository) :=
  orElse (query (repositoryById id)) none

def noAccess : Fault := .invalid "Repository not found or access denied"

/-- The columns of a new review: what the form says and nothing else. -/
def newReview (f : Filled) (author : Value) (now : Moment) (id : Int) : Outcome Review :=
  Review.ofFields now id (Fields.set f.values "author_id" author)

def create (f : Filled) (author : Value) : Work Review :=
  tryCatch (do
      match ← repository (f.get "repository_id") with
      | none => throw noAccess
      | some r =>
        if !author.same r.ownerId then throw noAccess
        add (addReview (newReview f author (← now))))
    fun fault => do
      match fault with
      | .invalid _ => throw fault
      | _ =>
        rollback
        throw fault

def find : Work (Option Review) := orElse (query (reviewById id)) none

def findOwned (id user : Value) : Work (Option Review) :=
  orElse (query (ownedReview id user)) none

structure Detailed where
  review : Review
  issues : List Issue
  comments : List Comment

def Detailed.report (d : Detailed) : Fields :=
  d.review.report ++
    [("issues", .list (d.issues.map fun i => .object i.report)),
      ("comments", .list (d.comments.map fun c => .object c.report))]

def detailed (s : Store) (r : Review) : Detailed :=
  { review := r, issues := s.issuesIn r.id, comments := s.commentsOn r.id }

/-- A review with all that belongs to it. With a user, only one of a repository of that user. -/
def findDetailed (id user : Value) : Work (Option Detailed) :=
  orElse (query fun s => do
      let r ← if user.truthy then s.ownedReview id user else s.reviewById id
      return r.map (detailed s))
    none

/-! ## Lists -/

def summaryFields (r : Review) : Fields :=
  [("id", .int r.id), ("title", .text r.title), ("status", .text r.status.name),
   ("progress", ofReal? r.progress), ("total_issues", r.totalIssues),
   ("critical_issues", r.criticalIssues), ("code_quality_score", r.qualityScore),
   ("created_at", ofMoment r.createdAt), ("completed_at", ofMoment? r.completedAt),
   ("repository_id", .int r.repositoryId)]

def byCreation (a b : Review) : Ordering := compareTimes a.createdAt b.createdAt

/-- The reviews of a user's repositories, the newest first. A status that is none is not looked at.
-/
def listed (user repository status skip limit : Value) (s : Store) : Outcome (List Review) := do
  let rs ← s.reviewsOf user
  let p ← parameter (if repository.truthy then repository else .null)
  let wanted := status.text?.bind ReviewStatus.ofName?
  let page ← Store.Page.of skip limit
  return page.take (descending byCreation (rs.filter fun r =>
    (!repository.truthy || intIs r.repositoryId p) && wanted.all (· == r.status)))

/-- The summaries of the reviews of a user; none if one of them cannot be summed up. -/
def list (user repository status skip limit : Value) : Work (List Fields) :=
  orElse (do
      let rs ← query (listed user repository status skip limit)
      rs.mapM fun r => do
        return (← ofOutcome (Form.reviewSummary.read (.object (summaryFields r)))).values)
    []

/-- The reviews of a user's repositories that were made between two moments, the newest first. -/
def between (user : Value) (first last : Moment) : Work (List Review) :=
  orElse (query fun s => do
      let rs ← s.reviewsOf user
      return descending byCreation (rs.filter fun r =>
        decide (first ≤ r.createdAt) && decide (r.createdAt ≤ last)))
    []

/-! ## The life of a review -/

/-- A review that is given a status. One that is completed has made all progress. -/
def withState (status : ReviewStatus) (now : Moment) (r : Review) : Review :=
  match status with
  | .completed => { r with status, completedAt := some now, progress := some 1 }
  | _ => { r with status }

def write (f : Review → Outcome Review) : Work Unit := do
  let t ← now
  change (changeReview id fun r => do return { ← f r with updatedAt := some t })
  commit

def update (f : Filled) : Work (Option Review) :=
  orRollback do
    if !f.changes.isEmpty then write id (·.setAll f.changes)
    find id

def setStatus (status : ReviewStatus) : Work Bool :=
  succeeds do
    let t ← now
    write id fun r => .ok (withState status t r)

/-- Progress, kept between none and all. -/
def clamped (progress : Value) : Outcome Float := do
  let one := Value.real 1
  let p := if ← progress.less one then progress else one
  if ← Value.less (.real 0) p then return (p.number?.map (·.toFloat)).getD 0 else return 0

def withCurrentFile (file : Value) (now : Moment) (metadata : Value) : Outcome Value := do
  let fs ← if !metadata.truthy then .ok [] else
    match metadata with
    | .object fs => .ok fs
    | _ => .error (.mistyped "notes are kept in an object")
  return .object (Fields.merge fs
    [("current_file", file), ("last_update", .text (ZonedMoment.iso ⟨now, some 0⟩))])

def setProgress (id progress file : Value) : Work Bool :=
  succeeds do
    let p ← ofOutcome (clamped progress)
    let t ← now
    let metadata : Option Value ←
      if file.truthy then
        match ← find id with
        | some r => some <$> ofOutcome (withCurrentFile file t r.metadata)
        | none => pure none
      else pure none
    write id fun r => .ok { r with progress := some p, metadata := metadata.getD r.metadata }

def setFileCounts (id total analyzed : Value) : Work Bool :=
  succeeds do
    let total ← ofOutcome (integerColumn total)
    let analyzed ← ofOutcome (integerColumn analyzed)
    write id fun r => .ok { r with totalFiles := total, analyzedFiles := analyzed }

/-- The result of an analysis as columns: counters that are missing are zero, scores are null. -/
def resultColumns (metrics : Fields) (total : Value) : Fields :=
  let counter (key : String) : String × Value := (key, (Fields.get? metrics key).getD (.int 0))
  let score (key : String) : String × Value := (key, (Fields.get? metrics key).getD .null)
  [("total_issues", total), counter "critical_issues", counter "high_issues",
   counter "medium_issues", counter "low_issues", score "code_quality_score",
   score "security_score", score "maintainability_score"] ++
  ((Fields.get? metrics "test_coverage").map fun v => ("test_coverage", v)).toList

def setResults (id metrics total : Value) : Work Bool :=
  succeeds do
    let fs ← match metrics with
      | .object fs => pure fs
      | _ => throw (.noAttribute "metrics are an object")
    let columns := resultColumns fs total
    for (_, v) in columns do discard (ofOutcome (parameter v))
    write id (·.setAll columns)

def setSummary (id summary recommendations : Value) : Work Bool :=
  succeeds do
    let text ← ofOutcome (textColumn summary)
    write id fun r => .ok { r with summary := text, recommendations }

def remove : Work Bool :=
  succeeds do
    change (dropReview id)
    commit

/-- The seconds that the analysis of a review will take from now on, by its progress so far. -/
def secondsLeft (now : Moment) (progress : Float) (r : Review) : Outcome Value := do
  if 0 < progress && progress < 1 then
    match ZonedMoment.micros? ⟨r.createdAt, none⟩ ⟨now, some 0⟩ with
    | none => throw .zoneMismatch
    | some _ =>
      let elapsed := Moment.secondsBetween r.createdAt now
      return if 0 < elapsed then .int (Decimal.truncate (elapsed / progress - elapsed)) else .null
  else return .null

def currentFile (r : Review) : Outcome Value :=
  if !r.metadata.truthy then .ok .null
  else
    match r.metadata with
    | .object fs => .ok ((Fields.get? fs "current_file").getD .null)
    | _ => .error (.noAttribute "notes are kept in an object")

def progressFields (now : Moment) (r : Review) : Outcome Fields := do
  match r.progress with
  | none => throw (.mistyped "there is no progress")
  | some p =>
    let left ← secondsLeft now p r
    let file ← currentFile r
    return (← Form.analysisProgress.read (.object
      [("review_id", .int r.id), ("status", .text r.status.name), ("progress", .real p),
       ("current_file", file), ("total_files", r.totalFiles), ("analyzed_files", r.analyzedFiles),
       ("estimated_time_remaining", left)])).values

def progress : Work Fields := do
  match ← find id with
  | none => throw (.invalid "Review not found")
  | some r => ofOutcome (progressFields (← now) r)

end Reviews

namespace Issues

open Work Store

/-! ## Issues and comments -/

/-- The fields of an issue that must be told. -/
def told (v : Value) (review : Value) : Outcome Fields := do
  let title ← v.item "title"
  let description ← v.item "description"
  let category ← v.item "category"
  let severity ← v.item "severity"
  let path ← v.item "file_path"
  let line ← v.item "line_start"
  let other (key : String) : String × Value := (key, v.getD key)
  return [("title", title), ("description", description), ("category", category),
          ("severity", severity), other "rule_id", ("file_path", path), ("line_start", line),
          other "line_end", other "column_start", other "column_end", other "code_snippet",
          other "suggested_fix", ("review_id", review), other "ai_explanation",
          other "confidence_score"]

def newIssue (f : Filled) (now : Moment) (id : Int) : Outcome Issue :=
  Issue.ofFields now id f.values

def create (review issue : Value) : Work Issue :=
  orRollback do
    let fields ← ofOutcome (told issue review)
    let f ← ofOutcome (Form.issueCreate.read (.object fields))
    add (addIssue (newIssue f (← now)))

def find (id : Value) : Work (Option Issue) := orElse (query (issueById id)) none

/-- The order of a list of issues: the words for their severities from the last to the first, then
paths, then lines. -/
def inList (a b : Issue) : Ordering :=
  ((compareTexts a.severity.label b.severity.label).swap.then
    (compareTexts a.filePath b.filePath)).then
    (compare a.lineStart b.lineStart)

/-- Which issues of a review are wanted. A severity that is none is not looked at. -/
structure Filter where
  severity : Value := .null
  category : Value := .null
  resolved : Value := .null

def Filter.picks (f : Filter) : Outcome (Issue → Bool) := do
  let severity := f.severity.text?.bind Severity.ofName?
  let category ← parameter (if f.category.truthy then f.category else .null)
  let resolved ← flagColumn f.resolved
  return fun i =>
    severity.all (· == i.severity) &&
      (!f.category.truthy || textIs (some i.category) category) &&
      (resolved.isNone || i.isResolved == resolved)

def listed (review : Value) (f : Filter) (s : Store) : Outcome (List Issue) := do
  let p ← parameter review
  let picks ← f.picks
  return ascending inList (s.issues.filter fun i => intIs i.reviewId p && picks i)

def list (review : Value) (f : Filter) : Work (List Issue) := orElse (query (listed review f)) []

/-- Changes to an issue; one that is resolved is resolved now. -/
def changed (changes : Fields) (now : Moment) (i : Issue) : Outcome Issue := do
  let i ← i.setAll changes
  match Fields.get? changes "is_resolved" with
  | some (.bool true) => return { i with resolvedAt := some now, updatedAt := some now }
  | _ => return { i with updatedAt := some now }

def update (id : Value) (f : Filled) : Work (Option Issue) :=
  orRollback do
    if !f.changes.isEmpty then
      change (changeIssue id (changed f.changes (← now)))
      commit
    find id

end Issues

namespace Comments

open Work Store

/-- The row of a comment, by its form. A review that is told beside the form counts. -/
def newComment (f : Filled) (author review : Value) (now : Moment) (id : Int) : Outcome Comment :=
  let fields := Fields.set f.values "author_id" author
  Comment.ofFields now id (if review.truthy then Fields.set fields "review_id" review else fields)

def create (f : Filled) (author review : Value) : Work Comment :=
  orRollback do
    add (addComment (newComment f author review (← now)))

def list (review : Value) : Work (List Comment) :=
  orElse (query fun s => do
      let p ← parameter review
      return ascending (fun a b => compareTimes a.createdAt b.createdAt)
        (s.comments.filter fun c => figureIs c.reviewId p))
    []

end Comments

end ReviewDesk
