import ReviewDesk.Accounts.Basic
import ReviewDesk.Reviews.Basic

/-!
# Public profiles
-/

namespace ReviewDesk.Accounts

open Work

def languages (rs : List Repository) : List (String × Nat) :=
  let named := (rs.filterMap (·.language)).filter (· != "")
  (Tally.counts named).mergeSort fun a b => decide (b.2 ≤ a.2)

def isInUse (r : Repository) : Bool := r.isActive == some true && r.isArchived != some true

def profileFigures (u : User) (repositories : List Repository) (reviews : List Review) :
    Outcome Fields := do
  let done := Reviews.completed reviews
  return [("total_repositories", .ofNat repositories.length),
          ("total_reviews", .ofNat reviews.length),
    ("active_repositories", .ofNat (repositories.countP isInUse)),
    ("completed_reviews", .ofNat done.length),
    ("average_quality_score", ← Reviews.meanScore (·.qualityScore) done),
    ("total_issues_found", ← Reviews.total (·.totalIssues) done),
    ("languages", .list ((languages repositories).map fun l =>
      .object [("name", .text l.1), ("count", .ofNat l.2)])),
    ("join_date", Store.ofMoment u.createdAt)]

def publicProfile (id : Value) : Work (Option Fields) :=
  orElse (do
      match ← find id with
      | none => return none
      | some u =>
        match ← query (Store.userById id) with
        | none => return none
        | some _ =>
          let s := (← get).store
          let owner := Value.int u.id
          let figures := Outcome.getD (profileFigures u (s.repositories.filter (·.ownedBy owner))
            (s.reviews.filter fun r => Store.figureIs r.authorId owner)) []
          return some [("id", .int u.id), ("username", .text u.username),
            ("full_name", .ofText? u.fullName), ("avatar_url", .ofText? u.avatarUrl),
            ("bio", .ofText? u.bio), ("location", .ofText? u.location),
            ("company", .ofText? u.company), ("website", .ofText? u.website),
            ("created_at", Store.ofMoment u.createdAt), ("stats", .object figures),
            ("is_verified", .bool u.isVerified)])
    none

end ReviewDesk.Accounts
