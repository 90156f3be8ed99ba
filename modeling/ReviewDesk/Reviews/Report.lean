import ReviewDesk.Reviews.Basic

/-!
# Figures and reports

A report looks at the reviews of a time span: how the quality went week by week, what was found, and
what should be done.
-/

namespace ReviewDesk.Reviews

open Work

/-! ## Figures over reviews -/

/-- The mean of minutes between the making and the completion of reviews, if one has an end. -/
def meanMinutes (rs : List Review) : Value :=
  let minutes := rs.filterMap fun r =>
    r.completedAt.map fun t => Moment.secondsBetween r.createdAt t / 60
  if minutes.isEmpty then .int 0 else .real (minutes.foldl (· + ·) 0 / minutes.length.toFloat)

/-- How one mean compares with an earlier one: they differ if they are more than one half apart. -/
def trendOf (before after : Float) : String :=
  if before + 0.5 < after then "improving"
  else if after < before - 0.5 then "declining"
  else "stable"

def qualityTrend (done : List Review) : Outcome String := do
  let recent := lastOf 5 (byAge done)
  let scores := recent.map (·.qualityScore)
  if done.length < 5 || !scores.all (·.truthy) then return "stable"
  let half (vs : List Value) : Outcome Float := do
    return ((← (← Value.sum vs).dividedBy 2).number?.map (·.toFloat)).getD 0
  return trendOf (← half (scores.take 2)) (← half (lastOf 2 scores))

/-- How often each name occurs: the most frequent first, and the last by letter first among equals.
-/
def ranking (names : List String) : List (String × Nat) :=
  (Tally.counts names).mergeSort fun a b => decide (b.2 < a.2) || (a.2 == b.2 && decide (b.1 ≤ a.1))

variable (user : Value)

def topCategories : Work (List Value) :=
  orElse (query fun s => do
      let issues ← s.issuesOf user
      return ((ranking (issues.map (·.category))).take 10).map fun c =>
        .object [("category", .text c.1), ("count", .ofNat c.2)])
    []

def resolvedCount : Work Nat :=
  orElse (query fun s => do return (← s.issuesOf user).countP (·.isResolved == some true)) 0

def reviewFigures (rs : List Review) : Outcome Fields := do
  let done := completed rs
  return [("total_reviews", .ofNat rs.length), ("completed_reviews", .ofNat done.length),
          ("pending_reviews", .ofNat (withStatus .pending rs)),
          ("in_progress_reviews", .ofNat (withStatus .inProgress rs)),
          ("failed_reviews", .ofNat (withStatus .failed rs)),
          ("average_quality_score", ← meanScore (·.qualityScore) done),
          ("average_security_score", ← meanScore (·.securityScore) done),
          ("total_issues_found", ← total (·.totalIssues) done),
          ("critical_issues_found", ← total (·.criticalIssues) done),
          ("high_issues_found", ← total (·.highIssues) done),
          ("average_review_time", meanMinutes done), ("review_frequency", .int 0),
          ("quality_trend", .text (← qualityTrend done))]

def statistics : Work Fields :=
  orElse (do
      let rs ← query (Store.reviewsOf user)
      let figures ← ofOutcome (reviewFigures rs)
      let (categories, resolved) ←
        if rs.isEmpty then pure ([], 0) else do
          let categories ← topCategories user
          pure (categories, ← resolvedCount user)
      return figures ++ [("top_issue_categories", .list categories),
        ("issues_resolved", .ofNat resolved)])
    []

def repositoryFigures (rs : List Review) : Outcome Fields := do
  if rs.isEmpty then return []
  let done := completed rs
  let issues ← total (·.totalIssues) done
  return [("total_reviews", .ofNat rs.length), ("completed_reviews", .ofNat done.length),
    ("completion_rate", Tally.percent done.length rs.length),
    ("average_quality_score", ← meanScore (·.qualityScore) done), ("total_issues", issues),
    ("critical_issues", ← total (·.criticalIssues) done),
    ("issues_per_review", ← if done.isEmpty then .ok (.real 0) else issues.dividedBy done.length),
    ("last_review_date", Value.ofOption (fun r => Store.ofMoment r.createdAt)
      (latest? (·.createdAt) done))]

def repositoryMetrics (repository : Value) : Work Fields :=
  orElse (query fun s => do
      let p ← Store.parameter repository
      repositoryFigures (s.reviews.filter fun r => Store.intIs r.repositoryId p))
    []

/-! ## Reports on a team -/

/-- What a report reads of a review; what is missing cannot be read. -/
structure Entry where
  status : Option Value := none
  createdAt : Option Value := none
  qualityScore : Option Value := none
  securityScore : Option Value := none
  criticalIssues : Option Value := none
  totalIssues : Option Value := none

namespace Entry

def ofReview (r : Review) : Entry :=
  { status := some (.text r.status.name), createdAt := some (Store.ofMoment r.createdAt)
    qualityScore := some r.qualityScore, securityScore := some r.securityScore
    criticalIssues := some r.criticalIssues, totalIssues := some r.totalIssues }

/-- The entry of an object with fields for it; anything else has nothing to read. -/
def ofValue (v : Value) : Entry :=
  { status := v.get? "status", createdAt := v.get? "created_at",
    qualityScore := v.get? "code_quality_score"
    securityScore := v.get? "security_score", criticalIssues := v.get? "critical_issues"
    totalIssues := v.get? "total_issues" }

def read (x : Option Value) : Outcome Value :=
  match x with
  | some v => .ok v
  | none => .error (.noAttribute "no such attribute")

def made (e : Entry) : Outcome ZonedMoment := do
  match ← read e.createdAt with
  | .text s =>
    match ZonedMoment.ofText? s.toList with
    | some z => return z
    | none => throw (.mistyped "not a moment")
  | _ => throw (.mistyped "not a moment")

end Entry

/-! ## Weeks -/

/-- The week of a year, weeks starting on Sundays: `2024-W02`. -/
def weekOf (m : Moment) : String :=
  let date := m.date
  let dayOfYear := m.days - Date.toDays ⟨date.year, 1, 1⟩
  let weekday := (m.days + 4) % 7
  let week := (dayOfYear + 7 - weekday) / 7
  Value.intText date.year ++ "-W" ++ Moment.padded 2 week.toNat

def addToWeek (week : String) (score : Value) : List (String × List Value) → List
    (String × List Value)
  | [] => [(week, [score])]
  | (w, scores) :: rest =>
    if w == week then (w, scores ++ [score]) :: rest else (w, scores) :: addToWeek week score rest

/-- The entries in the order in which the reviews were made. Moments with a zone have no order with
those without. -/
def inOrder (es : List Entry) : Outcome (List (ZonedMoment × Entry)) := do
  let dated ← es.mapM fun e => do return (← e.made, e)
  let zoned := dated.countP (·.1.offset.isSome)
  if zoned != 0 && zoned != dated.length then throw .zoneMismatch
  return dated.mergeSort fun a b => decide (a.1.instant ≤ b.1.instant)

def weeklyMeans (es : List (ZonedMoment × Entry)) : Outcome (List (String × Float)) := do
  let weeks ← es.foldlM (fun (acc : List (String × List Value)) (z, e) => do
    let score ← Entry.read e.qualityScore
    return if score.truthy then addToWeek (weekOf z.moment) score acc else acc) []
  weeks.mapM fun (week, scores) => do
    let mean ← (← Value.sum scores).dividedBy scores.length
    return (week, (mean.number?.map (·.toFloat)).getD 0)

def meanOf (xs : List Float) : Float := xs.foldl (· + ·) 0 / xs.length.toFloat

/-- The trend from the first half of the weeks to the second one. -/
def weeklyTrend (means : List (String × Float)) : String :=
  if means.length < 2 then "stable"
  else
    let ordered := (means.mergeSort fun a b => decide (a.1 ≤ b.1)).map (·.2)
    let half := ordered.length / 2
    trendOf (meanOf (ordered.take half)) (meanOf (ordered.drop half))

def trends (es : List Entry) : Outcome Fields := do
  if es.length < 2 then return [("trend", .text "insufficient_data")]
  let ordered ← inOrder es
  let means ← weeklyMeans ordered
  return [("trend", .text (weeklyTrend means)),
          ("weekly_averages", .object (means.map fun m => (m.1, .real m.2))),
          ("data_points", .ofNat es.length)]

def trendsOrError (reviews : Outcome (List Entry)) : Fields :=
  Outcome.getD (do trends (← reviews)) [("trend", .text "error")]

/-! ## Issues -/

def endingOf (path : String) : String :=
  if path.contains '.' then (path.splitOn ".").getLastD "" else "unknown"

def mostFrequent? : List (String × Nat) → Option String
  | [] => none
  | c :: cs => some (cs.foldl (fun best x => if best.2 < x.2 then x else best) c).1

def issueReport (issues : List Issue) : Fields :=
  if issues.isEmpty then [("message", .text "No issues found")]
  else
    let categories := Tally.counts (issues.map (·.category))
    [("total_issues", .ofNat issues.length), ("category_breakdown", Tally.report categories),
     ("severity_breakdown", Tally.report (Tally.counts (issues.map (·.severity.name)))),
     ("file_type_breakdown", Tally.report (Tally.counts (issues.map fun i => endingOf i.filePath))),
     ("most_common_category", .ofText? (mostFrequent? categories)),
     ("resolution_rate", Tally.percent (issues.countP (·.isResolved == some true)) issues.length)]

def issuePatterns (first last : Moment) : Work Fields :=
  orElse (query fun s => do
      let p ← Store.parameter user
      return issueReport (s.issues.filter fun i =>
        (s.reviewOf? i).any fun r =>
          s.underOwner p r && decide (first ≤ r.createdAt) && decide (r.createdAt ≤ last)))
    []

/-! ## Advice -/

structure Advice where
  category : String
  priority : String
  title : String
  description : String
  actions : List String

def Advice.report (a : Advice) : Value :=
  .object [("category", .text a.category), ("priority", .text a.priority), ("title", .text a.title),
    ("description", .text a.description), ("actions", .ofTexts a.actions)]

def qualityAdvice (mean : String) : Advice :=
  { category := "code_quality", priority := "high", title := "Improve Code Quality Standards"
    description :=
      s!"Average quality score is {mean}/10. Consider implementing stricter code review guidelines."
    actions := ["Establish coding standards documentation",
                "Implement automated linting and formatting",
                "Provide code quality training for team members",
                "Set quality gates in CI/CD pipeline"] }

def securityAdvice (mean : String) : Advice :=
  { category := "security", priority := "high", title := "Enhance Security Practices"
    description := s!"Average security score is {mean}/10. Security practices need improvement."
    actions := ["Conduct security training sessions",
                "Implement security-focused code review checklist",
                "Add automated security scanning tools", "Regular security audits of codebase"] }

def criticalAdvice (found reviews : String) : Advice :=
  { category := "critical_issues", priority := "high", title := "Reduce Critical Issues"
    description := s!"Found {found} critical issues across {reviews} reviews."
    actions := ["Implement pre-commit hooks for critical issue detection",
                "Enhance unit testing coverage", "Add integration testing for critical paths",
                "Create issue prevention guidelines"] }

def completionAdvice (rate : String) : Advice :=
  { category := "process", priority := "medium", title := "Improve Review Completion Rate"
    description := s!"Only {rate}% of reviews are completed."
    actions := ["Set clear review deadlines", "Implement review assignment system",
                "Add review progress monitoring", "Provide reviewer training and support"] }

/-- The mean of the scores that are neither null nor zero; without any it is zero. -/
def meanEntry (score : Entry → Option Value) (es : List Entry) : Outcome Float := do
  let scores ← es.mapM fun e => Entry.read (score e)
  let mean ← Value.mean (scores.filter (·.truthy)) (.int 0)
  return (mean.number?.map (·.toFloat)).getD 0

def advice (es : List Entry) : Outcome (List Advice) := do
  if es.isEmpty then return []
  let quality ← meanEntry (·.qualityScore) es
  let security ← meanEntry (·.securityScore) es
  let critical ← Value.sum (← es.mapM fun e => Entry.read e.criticalIssues)
  discard (Value.sum (← es.mapM fun e => Entry.read e.totalIssues))
  let many ← Value.less (.ofNat (es.length * 2)) critical
  let states ← es.mapM fun e => Entry.read e.status
  let rate :=
    (states.countP (·.same (.text ReviewStatus.completed.name))).toFloat / es.length.toFloat
  return (if quality < 7 then [qualityAdvice (Decimal.fixedText quality 1)] else []) ++
    (if security < 8 then [securityAdvice (Decimal.fixedText security 1)] else []) ++
    (if many then [criticalAdvice critical.plain (toString es.length)] else []) ++
    (if rate < 0.8 then [completionAdvice (Decimal.fixedText (rate * 100) 1)] else [])

def adviceOrNone (reviews : Outcome (List Entry)) : List Value :=
  (Outcome.getD (do advice (← reviews)) []).map (·.report)

/-! ## The report -/

/-- The days between two moments, if both have a zone or none has. -/
def daysBetween (first last : ZonedMoment) : Outcome Int :=
  match first.micros? last with
  | some n => .ok (n / Moment.day)
  | none => .error .zoneMismatch

def spanReport (first last : ZonedMoment) (rs : List Review) : Outcome Fields := do
  let done := completed rs
  return [
    ("period", .object [("start_date", .text first.iso), ("end_date", .text last.iso),
      ("days", .int (← daysBetween first last))]),
    ("summary", .object [("total_reviews", .ofNat rs.length),
      ("completed_reviews", .ofNat done.length),
      ("completion_rate", Tally.percent done.length rs.length),
      ("average_quality_score", ← meanScore (·.qualityScore) done),
      ("total_issues_found", ← total (·.totalIssues) done),
      ("critical_issues_found", ← total (·.criticalIssues) done)])]

def teamReport (first last : ZonedMoment) : Work Fields :=
  orElse (do
      let rs ← between user first.moment last.moment
      if rs.isEmpty then return [("message", .text "No reviews found for the specified period")]
      let front ← ofOutcome (spanReport first last rs)
      let done := (completed rs).map Entry.ofReview
      let issues ← issuePatterns user first.moment last.moment
      return front ++ [("trends", .object (trendsOrError (.ok done))),
        ("issue_analysis", .object issues), ("recommendations", .list (adviceOrNone (.ok done)))])
    []

end ReviewDesk.Reviews
