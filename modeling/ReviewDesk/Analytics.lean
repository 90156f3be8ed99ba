import ReviewDesk.Accounts.Profile

/-!
# Analytics

Figures over all repositories and reviews of a user, for pages that show how the work goes.
-/

namespace ReviewDesk.Analytics

open Work Store

variable (user : Int)

def repositories : Work (List Repository) := query (repositoriesOf (.int user))

def reviewsIn (repositories : List Repository) (p : Review → Bool) (s : Store) : List Review :=
  s.reviews.filter fun r => repositories.any (·.id == r.repositoryId) && p r

/-! ## Overview -/

/-- The mean of the values that are not null, to two places; without any it is zero. -/
def roundedMean (vs : List Value) : Outcome Value := do
  let mean ← Value.mean (vs.filter (!·.isNull)) (.real 0)
  return .real (Decimal.roundPlaces ((mean.number?.map (·.toFloat)).getD 0) 2)

/-- The sum of the counters that are not null. -/
def knownTotal (column : Review → Value) (rs : List Review) : Outcome Value :=
  Value.sum ((rs.map column).filter (!·.isNull))

/-- The scores for performance. A review has no such score, so that it cannot be read. -/
def performanceScores (rs : List Review) : Outcome (List Value) :=
  if rs.isEmpty then .ok [] else .error (.noAttribute "reviews have no score for performance")

def monthStart (now : Moment) : Moment := (now.addDays (1 - (now.date.day : Int))).midnight

structure Overview where
  totalReviews : Nat := 0
  completedReviews : Nat := 0
  totalIssues : Value := .int 0
  quality : Value := .real 0
  security : Value := .real 0
  performance : Value := .real 0
  reviewsThisMonth : Nat := 0
  criticalIssues : Value := .int 0
  repositories : Nat := 0
  activeRepositories : Nat := 0

def Overview.report (o : Overview) : Fields :=
  [("total_reviews", .ofNat o.totalReviews), ("completed_reviews", .ofNat o.completedReviews),
   ("total_issues_found", o.totalIssues), ("average_quality_score", o.quality),
   ("average_security_score", o.security), ("average_performance_score", o.performance),
   ("reviews_this_month", .ofNat o.reviewsThisMonth), ("critical_issues", o.criticalIssues),
   ("repositories_count", .ofNat o.repositories),
   ("active_repositories", .ofNat o.activeRepositories)]

def overviewOf (now : Moment) (repositories : List Repository) (reviews : List Review) :
    Outcome Overview := do
  let done := Reviews.completed reviews
  let recent ← reviews.filterM (Reviews.madeSince (monthStart now))
  return { totalReviews := reviews.length, completedReviews := done.length
           totalIssues := ← knownTotal (·.totalIssues) done
           quality := ← roundedMean (done.map (·.qualityScore))
           security := ← roundedMean (done.map (·.securityScore))
           performance := ← roundedMean (← performanceScores done)
           reviewsThisMonth := recent.length, criticalIssues := ← knownTotal (·.criticalIssues) done
           repositories := repositories.length
           activeRepositories := repositories.countP Accounts.isInUse }

def overview : Work Overview :=
  orElse (do
      let rs ← repositories user
      if rs.isEmpty then return {}
      let reviews ← query fun s => .ok (reviewsIn rs (fun _ => true) s)
      ofOutcome (overviewOf (← now) rs reviews))
    {}

/-! ## Languages and quality -/

/-- A language and the number of repositories in it; the language may be unknown. -/
structure LanguageCount where
  language : Option String
  count : Nat

/-- The languages by the number of repositories, the most frequent one first; among equals the last
by letter, and the unknown one after all others. -/
def languageRanking (rs : List Repository) : List LanguageCount :=
  let languages := (rs.map (·.language)).eraseDups
  let counts :=
    languages.map fun l => { language := l, count := rs.countP (·.language == l) : LanguageCount }
  descending (fun a b => (compare a.count b.count).then
    (nullFirst compareTexts a.language b.language)) counts

def LanguageCount.report (c : LanguageCount) : Value :=
  let name := c.language.getD ""
  .object [("language", .text (if name == "" then "Unknown" else name)), ("count", .ofNat c.count)]

def topLanguages : Work (List LanguageCount) :=
  orElse (query fun s => do return (languageRanking (← s.repositoriesOf (.int user))).take 5) []

structure Trend where
  direction : String
  improvement : Float := 0

def Trend.report (t : Trend) : Value :=
  .object [("trend", .text t.direction), ("average_improvement", .real t.improvement)]

def trendOf (scores : List Value) : Outcome Trend := do
  if scores.length < 2 then return { direction := "insufficient_data" }
  let mean (vs : List Value) : Outcome Float := do
    return ((← Value.mean vs (.real 0)).number?.map (·.toFloat)).getD 0
  let half := scores.length / 2
  let before ← mean (scores.take half)
  let improvement := (← mean (scores.drop half)) - before
  let direction := if 5 < improvement then "improving"
    else if improvement < -5 then "declining" else "stable"
  return { direction
           improvement := Decimal.roundPlaces improvement 2 }

def qualityTrend : Work Trend :=
  orElse (do
      let rs ← repositories user
      if rs.isEmpty then return { direction := "stable" }
      let start := (← now).addDays (-90)
      let reviews ← query fun s => .ok (ascending Reviews.byCreation (reviewsIn rs (fun r =>
        r.status == .completed && !r.qualityScore.isNull && decide (start ≤ r.createdAt)) s))
      ofOutcome (trendOf (reviews.map (·.qualityScore))))
    { direction := "stable" }

/-! ## Pages -/

def failing {α : Type} (x : Work α) (detail : String) : Work α :=
  tryCatch x fun _ => throw (.denied 500 detail)

def latestReviews (repositories : List Repository) (start : Moment) (s : Store) : List Review :=
  (descending Reviews.byCreation
    (reviewsIn repositories (fun r => decide (start ≤ r.createdAt)) s)).take 10

def dashboard (user : Int) : Work Fields :=
  failing (do
      let overview ← overview user
      let t ← now
      let rs ← repositories user
      let recent ←
          if rs.isEmpty then pure [] else query fun s => .ok (latestReviews rs (t.addDays (-30)) s)
      let weekly := (← ofOutcome (recent.filterM (Reviews.madeSince (t.addDays (-7))))).length
      let languages ← topLanguages user
      let trend ← qualityTrend user
      return overview.report ++
        [("recent_activity", .object [("weekly_reviews", .ofNat weekly),
          ("recent_reviews", .ofNat recent.length),
          ("trend_direction", .text (if 0 < weekly then "up" else "stable"))]),
          ("top_languages", .list (languages.map (·.report))), ("quality_trends", trend.report)])
    "Failed to generate dashboard analytics"

def repositoryLine (r : Repository) : Work Value := do
  let count ← query fun s => .ok (s.reviews.countP (·.repositoryId == r.id))
  let latest ← query fun s =>
    .ok (descending Reviews.byCreation (s.reviews.filter (·.repositoryId == r.id))).head?
  return .object [("id", .int r.id), ("name", .text r.name), ("full_name", .text r.fullName),
    ("provider", .text r.provider), ("language", .ofText? r.language),
    ("is_active", ofFlag? r.isActive), ("total_reviews", .ofNat count),
    ("latest_review", ofMoment? (latest.map (·.createdAt))),
    ("latest_review_status", .ofText? (latest.map (·.status.name)))]

def repositoryPage : Work Fields :=
  failing (do
      let rs ← query fun s => do
        return descending
          (fun a b => nullFirst compareTimes a.updatedAt b.updatedAt)
          (← s.repositoriesOf (.int user))
      let lines ← rs.mapM repositoryLine
      return [("total_repositories", .ofNat rs.length),
              ("active_repositories", .ofNat (rs.countP (·.isActive == some true))),
              ("repositories", .list lines)])
    "Failed to generate repository analytics"

/-- How long reviews took, in hours, and how many there were lately. -/
def performanceOf (now : Moment) (done : List Review) : Outcome Fields := do
  let hours :=
    done.filterMap fun r => r.updatedAt.map fun t => Moment.secondsBetween r.createdAt t / 3600
  let recent ← done.filterM (Reviews.madeSince (now.addDays (-7)))
  let rounded (x : Float) : Value :=
    if hours.isEmpty then .int 0 else .real (Decimal.roundPlaces x 2)
  let fastest := hours.foldl (fun a b => if b < a then b else a) (hours.headD 0)
  let slowest := hours.foldl (fun a b => if a < b then b else a) (hours.headD 0)
  return [("average_review_time", rounded (hours.foldl (· + ·) 0 / hours.length.toFloat)),
    ("fastest_review", rounded fastest), ("slowest_review", rounded slowest),
    ("reviews_per_week", .ofNat recent.length)]

def performancePage : Work Fields :=
  failing (do
      let rs ← repositories user
      if rs.isEmpty then ofOutcome (performanceOf (← now) [])
      else
        let done ← query fun s => .ok (reviewsIn rs (·.status == .completed) s)
        ofOutcome (performanceOf (← now) done))
    "Failed to generate performance analytics"

end ReviewDesk.Analytics
