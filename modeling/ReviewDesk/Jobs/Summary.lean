import ReviewDesk.Jobs.Analysis
import ReviewDesk.Repositories.Basic

/-!
# The jobs that sum up reviews and index repositories
-/

namespace ReviewDesk.Jobs

open Work

/-- The findings that stored issues stand for. A row cannot be read as a finding. -/
def findingsOf (issues : List Issue) : Outcome (List Analysis.Issue) :=
  if issues.isEmpty then .ok [] else .error (.mistyped "'Issue' object is not subscriptable")

def repositoryName (s : Store) (r : Review) : Outcome Value :=
  match s.repositoryOf? r with
  | some repository => .ok (.text repository.name)
  | none => .error (.noAttribute "'NoneType' object has no attribute 'name'")

def reviewSummary (s : Store) (d : Reviews.Detailed) : Outcome String := do
  let findings ← findingsOf d.issues
  Analysis.summaryText (← repositoryName s d.review) d.review.totalFiles findings

def summarize (review : Value) : Work Fields :=
  failing do
    progress 0 "Generating summary..."
    match ← Reviews.findDetailed review .null with
    | none => throw (.invalid "Review not found")
    | some d =>
      progress 30 "Analyzing issues..."
      let summary ← ofOutcome (reviewSummary (← get).store d)
      progress 70 "Generating recommendations..."
      let advice ← ofOutcome (do Analysis.recommendations (← findingsOf d.issues))
      let recommendations := Value.list (advice.map (·.report))
      discard (Reviews.setSummary review (.text summary) recommendations)
      success [("review_id", review), ("summary", .text summary),
               ("recommendations", recommendations), ("status", .text "completed")]

def setUp (c : Checkout) (repository : Value) : Work Fields := do
  match ← Repositories.find repository with
  | none => throw (.invalid "Repository not found")
  | some _ =>
    progress 20 "Cloning repository..."
    ofOutcome c.prepared
    progress 60 "Indexing repository..."
    discard (Repositories.setFigures repository c.figures)
    return [("repository_id", repository), ("status", .text "completed"), ("stats", c.figures)]

end ReviewDesk.Jobs
