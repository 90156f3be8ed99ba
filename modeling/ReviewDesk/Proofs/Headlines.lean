import ReviewDesk.Analytics
import ReviewDesk.Proofs.Findings
import ReviewDesk.Repositories.Basic
import ReviewDesk.Reviews.Report

/-!
# Figures that agree

Reviews are counted three times over: those of a user, those of a repository, and those that hang
off the row of a repository. The counts come from different queries and agree: the headlines of a
user are the sums of those of the user's repositories.
-/

namespace ReviewDesk

open List Outcome Work Store Reviews

variable {rs : List Review} {s : Store}

/-! ## Sums and means that can be told -/

namespace Value

def whole? : Value → Option Int
  | int n => some n
  | _ => none

lemma plus_numbers {a b : Value} (ha : a.number?.isSome = true) (hb : b.number?.isSome = true) :
    ∃ v, a.plus b = .ok v ∧ v.number?.isSome = true := by
  obtain ⟨m, hm⟩ := Option.isSome_iff_exists.mp ha
  obtain ⟨n, hn⟩ := Option.isSome_iff_exists.mp hb
  unfold plus
  rw [hm, hn]
  cases m <;> cases n <;> exact ⟨_, rfl, rfl⟩

lemma foldlM_plus {vs : List Value} (h : ∀ v ∈ vs, v.number?.isSome = true) {a : Value}
    (ha : a.number?.isSome = true) : ∃ v, vs.foldlM plus a = .ok v ∧ v.number?.isSome = true := by
  induction vs generalizing a with
  | nil => exact ⟨a, rfl, ha⟩
  | cons v vs ih =>
    obtain ⟨b, hb, hnumber⟩ := plus_numbers ha (h v (.head _))
    rw [foldlM_cons, hb, bind_ok]
    exact ih (fun w hw => h w (.tail _ hw)) hnumber

lemma dividedBy_number {v : Value} (h : v.number?.isSome = true) (n : Nat) :
    ∃ w, v.dividedBy n = .ok w := by
  obtain ⟨m, hm⟩ := Option.isSome_iff_exists.mp h
  unfold dividedBy
  rw [hm]
  exact ⟨_, rfl⟩

lemma quotient_numbers (vs : List Value) (n : Nat) (h : ∀ v ∈ vs, v.number?.isSome = true) :
    ∃ a b, sum vs = .ok a ∧ a.dividedBy n = .ok b := by
  obtain ⟨a, ha, hnumber⟩ := foldlM_plus h (a := .int 0) rfl
  obtain ⟨b, hb⟩ := dividedBy_number hnumber n
  exact ⟨a, b, ha, hb⟩

lemma mean_numbers {vs : List Value} (h : ∀ v ∈ vs, v.number?.isSome = true) (default : Value) :
    ∃ v, mean vs default = .ok v := by
  unfold mean
  split
  · exact ⟨default, rfl⟩
  · obtain ⟨a, b, ha, hb⟩ := quotient_numbers vs vs.length h
    exact ⟨b, by rw [ha, bind_ok, hb]⟩

end Value

/-! ## Headlines -/

/-- The numbers of reviews and of issues that every count tells. -/
structure Headline where
  reviews : Int
  completed : Int
  issues : Int
  critical : Int
  deriving DecidableEq

namespace Headline

def zero : Headline := ⟨0, 0, 0, 0⟩

def add (h k : Headline) : Headline :=
  ⟨h.reviews + k.reviews, h.completed + k.completed, h.issues + k.issues, h.critical + k.critical⟩

def total (hs : List Headline) : Headline := hs.foldr add zero

/-- A review counts for one, and its counters count once it is completed. -/
def one (r : Review) : Headline :=
  if r.status = .completed then
    ⟨1, 1, r.totalIssues.whole?.getD 0, r.criticalIssues.whole?.getD 0⟩
  else ⟨1, 0, 0, 0⟩

def ofReviews (rs : List Review) : Headline := total (rs.map one)

/-- The headline of some fields, under the names of the sums. -/
def read? (issues critical : String) (fs : Fields) : Option Headline := do
  let number (key : String) : Option Int := (Fields.get? fs key).bind Value.whole?
  return ⟨← number "total_reviews", ← number "completed_reviews", ← number issues,
    ← number critical⟩

/-- The headline of the figures of a user or of a repository. -/
def ofFigures? (fs : Fields) : Option Headline :=
  read? "total_issues_found" "critical_issues_found" fs

/-- The headline of the metrics of a repository. Without a review there are none. -/
def ofMetrics? (fs : Fields) : Option Headline :=
  if fs.isEmpty then some zero else read? "total_issues" "critical_issues" fs

lemma zero_add (h : Headline) : add zero h = h := by simp [add, zero]

lemma add_zero (h : Headline) : add h zero = h := by simp [add, zero]

lemma add_assoc (h k l : Headline) : add (add h k) l = add h (add k l) := by
  simp only [add, Int.add_assoc]

lemma add_left_comm (h k l : Headline) : add h (add k l) = add k (add h l) := by
  simp only [add, Int.add_left_comm]

lemma total_cons (h : Headline) (hs : List Headline) : total (h :: hs) = add h (total hs) := rfl

lemma ofReviews_cons (r : Review) (rs : List Review) :
    ofReviews (r :: rs) = add (one r) (ofReviews rs) := rfl

lemma total_map_add {α : Type} (f g : α → Headline) (xs : List α) :
    total (xs.map fun x => add (f x) (g x)) = add (total (xs.map f)) (total (xs.map g)) := by
  induction xs with
  | nil => rfl
  | cons x xs ih =>
    simp only [map_cons, total_cons, ih, add_assoc]
    rw [add_left_comm (g x)]

lemma total_map_zero {α : Type} {f : α → Headline} {xs : List α} (h : ∀ x ∈ xs, f x = zero) :
    total (xs.map f) = zero := by
  induction xs with
  | nil => rfl
  | cons x xs ih =>
    rw [map_cons, total_cons, h x (.head _), zero_add]
    exact ih fun y hy => h y (.tail _ hy)

lemma ofReviews_filter_cons (p : Review → Bool) (r : Review) (rs : List Review) :
    ofReviews ((r :: rs).filter p) =
      add (if p r then one r else zero) (ofReviews (rs.filter p)) := by
  cases h : p r with
  | false => simp [h, zero_add]
  | true => simp [h, ofReviews_cons]

/-- Of repositories with different numbers, one at most has a given number. -/
lemma total_hit {ps : List Repository} (hkeys : (ps.map (·.id)).Nodup) (owner : Value) (n : Int)
    (h : Headline) :
    total ((ps.filter (·.ownedBy owner)).map fun p => if n = p.id then h else zero) =
      if (ps.find? (·.id == n)).any (·.ownedBy owner) then h else zero := by
  induction ps with
  | nil => rfl
  | cons p ps ih =>
    obtain ⟨hp, hps⟩ : p.id ∉ ps.map (·.id) ∧ (ps.map (·.id)).Nodup := nodup_cons.mp hkeys
    by_cases hn : p.id = n
    · have hrest : ∀ q ∈ ps.filter (·.ownedBy owner), (if n = q.id then h else zero) = zero := by
        intro q hq
        have hmem := mem_map_of_mem (f := (·.id)) (mem_filter.mp hq).1
        exact if_neg fun heq => hp (hn.trans heq ▸ hmem)
      have hzero := total_map_zero hrest
      cases howned : p.ownedBy owner with
      | false => simp [hn, howned, hzero]
      | true => simp [hn, howned, total_cons, hzero, add_zero]
    · have hfind : (p :: ps).find? (·.id == n) = ps.find? (·.id == n) := by simp [hn]
      rw [hfind, ← ih hps]
      cases howned : p.ownedBy owner with
      | false => simp [howned]
      | true => simp [howned, total_cons, Ne.symm hn, zero_add]

/-- The headline over the reviews of a user is the sum over the user's repositories. -/
lemma total_repositories (hkeys : (s.repositories.map (·.id)).Nodup) (owner : Value)
    (rs : List Review) : total ((s.repositories.filter (·.ownedBy owner)).map fun p =>
      ofReviews (rs.filter (·.repositoryId == p.id))) =
      ofReviews (rs.filter (s.underOwner owner)) := by
  induction rs with
  | nil => exact total_map_zero fun _ _ => rfl
  | cons r rs ih =>
    simp only [ofReviews_filter_cons, beq_iff_eq]
    rw [total_map_add, ih, total_hit hkeys]
    rfl

end Headline

/-! ## Columns -/

/-- The counters of a review are whole numbers, and its scores are numbers if there are any. -/
structure Review.Counted (r : Review) : Prop where
  total : ∃ n, r.totalIssues = .int n
  critical : ∃ n, r.criticalIssues = .int n
  high : ∃ n, r.highIssues = .int n
  quality : r.qualityScore = .null ∨ ∃ x, r.qualityScore = .real x
  security : r.securityScore = .null ∨ ∃ x, r.securityScore = .real x

namespace Reviews

variable {column : Review → Value} {n : Nat}

def wholeTotal (column : Review → Value) (rs : List Review) : Int :=
  rs.foldr (fun r n => (column r).whole?.getD 0 + n) 0

lemma foldlM_whole (h : ∀ r ∈ rs, ∃ n, column r = .int n) (a : Int) :
    (rs.map column).foldlM Value.plus (.int a) = .ok (.int (a + wholeTotal column rs)) := by
  induction rs generalizing a with
  | nil => simp [wholeTotal, pure, Except.pure]
  | cons r rs ih =>
    obtain ⟨n, hn⟩ := h r (.head _)
    have hsum : wholeTotal column (r :: rs) = n + wholeTotal column rs := by
      simp [wholeTotal, hn, Value.whole?]
    have hplus : Value.plus (.int a) (column r) = .ok (.int (a + n)) := by rw [hn]; rfl
    rw [map_cons, foldlM_cons, hplus, bind_ok,
      ih fun r' hr' => h r' (.tail _ hr'), hsum, Int.add_assoc]

lemma total_whole (h : ∀ r ∈ rs, ∃ n, column r = .int n) :
    total column rs = .ok (.int (wholeTotal column rs)) := by
  rw [total, Value.sum, foldlM_whole h, Int.zero_add]

/-- The headline over reviews is made of the numbers and the sums that a count works with. -/
lemma ofReviews_eq (rs : List Review) : Headline.ofReviews rs =
    ⟨rs.length, (completed rs).length, wholeTotal (·.totalIssues) (completed rs),
      wholeTotal (·.criticalIssues) (completed rs)⟩ := by
  induction rs with
  | nil => rfl
  | cons r rs ih =>
    rw [Headline.ofReviews_cons, ih, Headline.one]
    by_cases hr : r.status = .completed
    · simp [hr, completed, Headline.add, wholeTotal, Int.add_comm]
    · simp [hr, completed, Headline.add, Int.add_comm]

lemma length_by_status (rs : List Review) :
    (completed rs).length + withStatus .pending rs + withStatus .inProgress rs +
      withStatus .failed rs = rs.length := by
  induction rs with
  | nil => rfl
  | cons r rs ih =>
    simp only [completed, withStatus, filter_cons, countP_cons, length_cons] at ih ⊢
    cases r.status <;> simp <;> omega

lemma number_of_truthy {v : Value} (h : v = .null ∨ ∃ x, v = .real x) (ht : v.truthy = true) :
    v.number?.isSome = true := by
  rcases h with rfl | ⟨x, rfl⟩
  · cases ht
  · rfl

lemma meanScore_ok {score : Review → Value}
    (h : ∀ r ∈ rs, score r = .null ∨ ∃ x, score r = .real x) : ∃ v, meanScore score rs = .ok v := by
  refine Value.mean_numbers (fun v hv => ?_) _
  obtain ⟨hmem, ht⟩ := mem_filter.mp hv
  obtain ⟨r, hr, rfl⟩ := mem_map.mp hmem
  exact number_of_truthy (h r hr) ht

lemma mem_of_mem_lastOf {α : Type} {x : α} {xs : List α} (h : x ∈ lastOf n xs) : x ∈ xs :=
  mem_of_mem_drop h

lemma mem_of_mem_lastOf_byAge {r : Review} (h : r ∈ lastOf n (byAge rs)) : r ∈ rs :=
  mem_mergeSort.mp (mem_of_mem_lastOf h)

lemma completed_subset {P : Review → Prop} (h : ∀ r ∈ rs, P r) : ∀ r ∈ completed rs, P r :=
  fun r hr => h r (mem_filter.mp hr).1

lemma qualityTrend_ok (h : ∀ r ∈ rs, r.qualityScore = .null ∨ ∃ x, r.qualityScore = .real x) :
    ∃ trend, qualityTrend rs = .ok trend := by
  simp only [qualityTrend]
  split
  · exact ⟨"stable", rfl⟩
  · rename_i hscored
    simp only [Bool.or_eq_true, Bool.not_eq_true', not_or, Bool.not_eq_false,
      all_eq_true] at hscored
    have hscores : ∀ v ∈ (lastOf 5 (byAge rs)).map (·.qualityScore), v.number?.isSome = true := by
      intro v hv
      have ht : v.truthy = true := hscored.2 v hv
      obtain ⟨r, hr, rfl⟩ := mem_map.mp hv
      exact number_of_truthy (h r (mem_of_mem_lastOf_byAge hr)) ht
    obtain ⟨a, a', ha, ha'⟩ := Value.quotient_numbers
      (((lastOf 5 (byAge rs)).map (·.qualityScore)).take 2) 2
      fun v hv => hscores v (mem_of_mem_take hv)
    obtain ⟨b, b', hb, hb'⟩ := Value.quotient_numbers
      (lastOf 2 ((lastOf 5 (byAge rs)).map (·.qualityScore))) 2
      fun v hv => hscores v (mem_of_mem_lastOf hv)
    simp only [ha, ha', hb, hb', bind_ok]
    exact ⟨_, rfl⟩

/-- The reviews of each status add up to all of them. -/
def Balanced (fs : Fields) : Prop :=
  ∃ all done pending running failed : Nat,
    Fields.get? fs "total_reviews" = some (.ofNat all) ∧
    Fields.get? fs "completed_reviews" = some (.ofNat done) ∧
    Fields.get? fs "pending_reviews" = some (.ofNat pending) ∧
    Fields.get? fs "in_progress_reviews" = some (.ofNat running) ∧
    Fields.get? fs "failed_reviews" = some (.ofNat failed) ∧
    done + pending + running + failed = all

/-- The quality scores that the completed reviews have. -/
def knownScores (rs : List Review) : List Value :=
  ((completed rs).map (·.qualityScore)).filter (!·.isNull)

/-- The average is the mean of the scores that are not zero, so of all if none of them is. -/
def TellsAverage (rs : List Review) (fs : Fields) : Prop :=
  ∃ v, Fields.get? fs "average_quality_score" = some v ∧
    Value.mean ((knownScores rs).filter (·.truthy)) (.real 0) = .ok v ∧
    ((∀ x ∈ knownScores rs, x.truthy = true) → Value.mean (knownScores rs) (.real 0) = .ok v)

lemma tellsAverage_of_mean {v : Value} (hv : meanScore (·.qualityScore) (completed rs) = .ok v)
    {fs : Fields} (hfs : Fields.get? fs "average_quality_score" = some v) : TellsAverage rs fs := by
  have hscores : (knownScores rs).filter (·.truthy) = scores (·.qualityScore) (completed rs) := by
    rw [knownScores, filter_filter, scores]
    refine filter_congr fun x _ => ?_
    cases x <;> simp [Value.isNull, Value.truthy]
  have hmean : Value.mean ((knownScores rs).filter (·.truthy)) (.real 0) = .ok v := hscores ▸ hv
  exact ⟨v, hfs, hmean, fun hall => filter_eq_self.mpr hall ▸ hmean⟩

section

variable (h : ∀ r ∈ rs, r.Counted)

include h

lemma total_completed
    (hcolumn : ∀ r : Review, r.Counted → ∃ n, column r = .int n) :
    total column (completed rs) = .ok (.int (wholeTotal column (completed rs))) :=
  total_whole (completed_subset fun r hr => hcolumn r (h r hr))

lemma meanScore_completed {score : Review → Value}
    (hscore : ∀ r : Review, r.Counted → score r = .null ∨ ∃ x, score r = .real x) :
    ∃ v, meanScore score (completed rs) = .ok v :=
  meanScore_ok (completed_subset fun r hr => hscore r (h r hr))

lemma reviewFigures_ok : ∃ fs, reviewFigures rs = .ok fs ∧
    ∀ more, Headline.ofFigures? (fs ++ more) = some (.ofReviews rs) ∧ Balanced (fs ++ more) ∧
      TellsAverage rs (fs ++ more) := by
  obtain ⟨q, hq⟩ := meanScore_completed h fun _ hr => hr.quality
  obtain ⟨s, hs⟩ := meanScore_completed h fun _ hr => hr.security
  obtain ⟨trend, htrend⟩ := qualityTrend_ok (completed_subset fun r hr => (h r hr).quality)
  have htotal := total_completed h fun _ hr => hr.total
  have hcritical := total_completed h fun _ hr => hr.critical
  have hhigh := total_completed h fun _ hr => hr.high
  simp only [reviewFigures, hq, hs, htrend, htotal, hcritical, hhigh, bind_ok]
  refine ⟨_, rfl, fun more => ⟨?_, ?_, tellsAverage_of_mean hq rfl⟩⟩
  · rw [ofReviews_eq]
    rfl
  · exact ⟨_, _, _, _, _, rfl, rfl, rfl, rfl, rfl, length_by_status rs⟩

lemma repositoryFigures_ok : ∃ fs, repositoryFigures rs = .ok fs ∧
    Headline.ofMetrics? fs = some (.ofReviews rs) ∧ (rs ≠ [] → TellsAverage rs fs) := by
  cases hrs : rs with
  | nil => exact ⟨[], rfl, rfl, fun hnone => absurd rfl hnone⟩
  | cons r rest =>
    rw [← hrs]
    obtain ⟨q, hq⟩ := meanScore_completed h fun _ hr => hr.quality
    have htotal := total_completed h fun _ hr => hr.total
    have hcritical := total_completed h fun _ hr => hr.critical
    have hempty : rs.isEmpty = false := by rw [hrs]; rfl
    obtain ⟨v, hv⟩ := Value.dividedBy_number
      (v := .int (wholeTotal (·.totalIssues) (completed rs))) rfl (completed rs).length
    simp only [repositoryFigures, hempty, hq, htotal, hcritical, hv, bind_ok,
      Bool.false_eq_true, ↓reduceIte]
    rw [ofReviews_eq]
    split <;> exact ⟨_, rfl, rfl, fun _ => tellsAverage_of_mean hq rfl⟩

end

end Reviews

namespace Repositories

lemma trend_ok (h : ∀ r ∈ rs, r.qualityScore = .null ∨ ∃ x, r.qualityScore = .real x) :
    ∃ word, trend rs = .ok word := by
  have hscores : ∀ v ∈ (lastOf 3 (byAge rs)).map (·.qualityScore),
      v = .null ∨ ∃ x, v = .real x := by
    intro v hv
    obtain ⟨r, hr, rfl⟩ := mem_map.mp hv
    exact h r (mem_of_mem_lastOf_byAge hr)
  simp only [trend]
  split
  · rename_i a b c hlist
    rw [hlist] at hscores
    have ha := hscores a (by simp)
    have hc := hscores c (by simp)
    split
    · rename_i htruthy
      simp only [Bool.and_eq_true] at htruthy
      have hanumber := number_of_truthy ha htruthy.1.1
      have hcnumber := number_of_truthy hc htruthy.2
      obtain ⟨up, hup⟩ := Analysis.less_of_numbers hanumber hcnumber
      obtain ⟨down, hdown⟩ := Analysis.less_of_numbers hcnumber hanumber
      simp only [hup, hdown, bind_ok]
      cases up <;> cases down <;> exact ⟨_, rfl⟩
    · exact ⟨"stable", rfl⟩
  · exact ⟨"stable", rfl⟩

lemma figures_ok (h : ∀ r ∈ rs, r.Counted) : ∃ fs, figures rs = .ok fs ∧
    Headline.ofFigures? fs = some (.ofReviews rs) ∧ TellsAverage rs fs := by
  obtain ⟨q, hq⟩ := meanScore_completed h fun _ hr => hr.quality
  obtain ⟨s, hs⟩ := meanScore_completed h fun _ hr => hr.security
  obtain ⟨word, hword⟩ := trend_ok (completed_subset fun r hr => (h r hr).quality)
  have htotal := total_completed h fun _ hr => hr.total
  have hcritical := total_completed h fun _ hr => hr.critical
  simp only [figures, hq, hs, hword, htotal, hcritical, bind_ok]
  refine ⟨_, rfl, ?_, tellsAverage_of_mean hq rfl⟩
  rw [ofReviews_eq]
  rfl

end Repositories

namespace Reviews

variable (h : ∀ r ∈ s.reviews, r.Counted) (t : Moment)

include h

lemma gives_statistics {u : Int} (hu : fits u) : ∃ fs,
    Gives (statistics (.int u)) t s (.ok fs) s ∧
      Headline.ofFigures? fs = some (.ofReviews (s.reviews.filter (s.underOwner (.int u)))) ∧
      Balanced fs ∧ TellsAverage (s.reviews.filter (s.underOwner (.int u))) fs := by
  have hreviews : s.reviewsOf (.int u) = .ok (s.reviews.filter (s.underOwner (.int u))) := by
    rw [reviewsOf, parameter_int hu]
    rfl
  have hcounted : ∀ r ∈ s.reviews.filter (s.underOwner (.int u)), r.Counted :=
    fun r hr => h r (mem_filter.mp hr).1
  obtain ⟨fs, hfs, hmore⟩ := reviewFigures_ok hcounted
  obtain ⟨categories, hcategories⟩ : ∃ vs, Gives (topCategories (.int u)) t s (.ok vs) s :=
    ⟨_, gives_orElse_query _ _ t s⟩
  obtain ⟨resolved, hresolved⟩ : ∃ n, Gives (resolvedCount (.int u)) t s (.ok n) s :=
    ⟨_, gives_orElse_query _ _ t s⟩
  -- without a review nothing is asked about issues
  have hgives : ∃ cs n, Gives (statistics (.int u)) t s (.ok (fs ++
      [("top_issue_categories", .list cs), ("issues_resolved", .ofNat n)])) s := by
    cases hempty : (s.reviews.filter (s.underOwner (.int u))).isEmpty with
    | true =>
      refine ⟨[], 0, Gives.orElse_ok ?_ []⟩
      refine (gives_query_ok hreviews t).bind ((gives_ok hfs t s).bind ?_)
      simp only [hempty, ↓reduceIte]
      exact (gives_pure _ t s).bind (gives_pure _ t s)
    | false =>
      refine ⟨categories, resolved, Gives.orElse_ok ?_ []⟩
      refine (gives_query_ok hreviews t).bind ((gives_ok hfs t s).bind ?_)
      simp only [hempty, Bool.false_eq_true, ↓reduceIte]
      exact hcategories.bind (hresolved.bind ((gives_pure _ t s).bind (gives_pure _ t s)))
  obtain ⟨cs, n, hgives⟩ := hgives
  exact ⟨_, hgives, hmore _⟩

lemma gives_repositoryMetrics {n : Int} (hn : fits n) : ∃ fs,
    Gives (repositoryMetrics (.int n)) t s (.ok fs) s ∧
      Headline.ofMetrics? fs = some (.ofReviews (s.reviews.filter (·.repositoryId == n))) ∧
      (s.reviews.filter (·.repositoryId == n) ≠ [] →
        TellsAverage (s.reviews.filter (·.repositoryId == n)) fs) := by
  have hcounted : ∀ r ∈ s.reviews.filter (·.repositoryId == n), r.Counted :=
    fun r hr => h r (mem_filter.mp hr).1
  obtain ⟨fs, hfs, hheadline⟩ := repositoryFigures_ok hcounted
  refine ⟨fs, (gives_query_ok ?_ t).orElse_ok [], hheadline⟩
  simp only [parameter_int hn, bind_ok, intIs_int]
  exact hfs

end Reviews

/-- **The counts of a user, of a repository and of its row agree.** At a calm desk at which the
counters of all reviews are there: the reviews of each status add up to those of the user, the
headline of the user is the sum of those of the user's repositories, and for every repository the
metrics and the figures of its row have the headline over its reviews. -/
theorem statistics_sum_repositories (d : Desk) (u : Int) (hd : Calm d d.now d.store) (hu : fits u)
    (hkeys : (d.store.repositories.map (·.id)).Nodup)
    (hids : ∀ p ∈ d.store.repositories, fits p.id) (hcounted : ∀ r ∈ d.store.reviews, r.Counted) :
    (∃ fs d', (Reviews.statistics (.int u)).run d = (.ok fs, d') ∧ Reviews.Balanced fs ∧
      Headline.ofFigures? fs =
        some (.total ((d.store.repositories.filter (·.ownedBy (.int u))).map fun p =>
          .ofReviews (d.store.reviews.filter (·.repositoryId == p.id))))) ∧
    ∀ p ∈ d.store.repositories,
      (∃ fs d', (Reviews.repositoryMetrics (.int p.id)).run d = (.ok fs, d') ∧
        Headline.ofMetrics? fs =
          some (.ofReviews (d.store.reviews.filter (·.repositoryId == p.id)))) ∧
      ∃ fs, Repositories.figures (d.store.reviews.filter (·.repositoryId == p.id)) = .ok fs ∧
        Headline.ofFigures? fs =
          some (.ofReviews (d.store.reviews.filter (·.repositoryId == p.id))) := by
  refine ⟨?_, fun p hp => ⟨?_, ?_⟩⟩
  · obtain ⟨fs, hgives, hheadline, hbalanced, _⟩ := Reviews.gives_statistics hcounted d.now hu
    obtain ⟨d', hrun, _⟩ := hgives d hd
    exact ⟨fs, d', hrun, hbalanced, by rw [hheadline, Headline.total_repositories hkeys]⟩
  · obtain ⟨fs, hgives, hheadline, _⟩ := Reviews.gives_repositoryMetrics hcounted d.now (hids p hp)
    obtain ⟨d', hrun, _⟩ := hgives d hd
    exact ⟨fs, d', hrun, hheadline⟩
  · obtain ⟨fs, hfs, hheadline, _⟩ :=
      Repositories.figures_ok fun r hr => hcounted r (mem_filter.mp hr).1
    exact ⟨fs, hfs, hheadline⟩

def deskOfTwo : Desk :=
  let repository (id : Int) : Repository :=
    { id, name := "tool", fullName := "ann/tool", url := "", cloneUrl := "", provider := "github"
      externalId := "1", createdAt := ⟨0⟩, updatedAt := none, ownerId := .int 1 }
  let review (id repositoryId : Int) (status : ReviewStatus) : Review :=
    { id, title := "first", status, totalIssues := .int 5, criticalIssues := .int 2
      qualityScore := .real 8, createdAt := ⟨0⟩, updatedAt := none, repositoryId
      authorId := .int 1 }
  let store : Store :=
    { repositories := [repository 3, repository 4]
      reviews := [review 7 3 .completed, review 8 4 .pending, review 9 4 .failed] }
  { store, lasting := store, now := ⟨0⟩ }

/-- Issues of reviews that are not completed do not count. -/
theorem statistics_sum_two_repositories :
    (∃ fs d', (Reviews.statistics (.int 1)).run deskOfTwo = (.ok fs, d') ∧
      Headline.ofFigures? fs = some ⟨3, 1, 5, 2⟩) ∧
    ∃ fs d', (Reviews.repositoryMetrics (.int 4)).run deskOfTwo = (.ok fs, d') ∧
      Headline.ofMetrics? fs = some ⟨2, 0, 0, 0⟩ := by
  have hreviews : ∀ r ∈ deskOfTwo.store.reviews, r.Counted := by
    intro r hr
    simp only [deskOfTwo, mem_cons, not_mem_nil, or_false] at hr
    rcases hr with rfl | rfl | rfl <;>
      exact ⟨⟨5, rfl⟩, ⟨2, rfl⟩, ⟨0, rfl⟩, .inr ⟨8, rfl⟩, .inl rfl⟩
  obtain ⟨⟨fs, d', hrun, _, hheadline⟩, hrepositories⟩ := statistics_sum_repositories deskOfTwo 1
    ⟨fun _ => rfl, rfl, rfl, rfl, rfl⟩ rfl (by decide) (by decide) hreviews
  obtain ⟨⟨fs', d'', hrun', hheadline'⟩, _⟩ := hrepositories _ (.tail _ (.head _))
  exact ⟨⟨fs, d', hrun, hheadline⟩, fs', d'', hrun', hheadline'⟩

/-- **Averages leave out the score zero.** At a calm desk, those of a user, of a repository with a
review and of its row are the means of the scores of completed reviews that are not zero. -/
theorem averages_without_zero (d : Desk) (hd : Calm d d.now d.store)
    (hcounted : ∀ r ∈ d.store.reviews, r.Counted) (n : Int) (hn : fits n) :
    (∃ fs d', (Reviews.statistics (.int n)).run d = (.ok fs, d') ∧
      Reviews.TellsAverage (d.store.reviews.filter (d.store.underOwner (.int n))) fs) ∧
    (∃ fs d', (Reviews.repositoryMetrics (.int n)).run d = (.ok fs, d') ∧
      (d.store.reviews.filter (·.repositoryId == n) ≠ [] →
        Reviews.TellsAverage (d.store.reviews.filter (·.repositoryId == n)) fs)) ∧
    ∃ fs, Repositories.figures (d.store.reviews.filter (·.repositoryId == n)) = .ok fs ∧
      Reviews.TellsAverage (d.store.reviews.filter (·.repositoryId == n)) fs := by
  refine ⟨?_, ?_, ?_⟩
  · obtain ⟨fs, hgives, _, _, haverage⟩ := Reviews.gives_statistics hcounted d.now hn
    obtain ⟨d', hrun, _⟩ := hgives d hd
    exact ⟨fs, d', hrun, haverage⟩
  · obtain ⟨fs, hgives, _, haverage⟩ := Reviews.gives_repositoryMetrics hcounted d.now hn
    obtain ⟨d', hrun, _⟩ := hgives d hd
    exact ⟨fs, d', hrun, haverage⟩
  · obtain ⟨fs, hfs, _, haverage⟩ :=
      Repositories.figures_ok fun r hr => hcounted r (mem_filter.mp hr).1
    exact ⟨fs, hfs, haverage⟩

def deskOfZero : Desk :=
  let scored (r : Review) : Review :=
    { r with status := .completed, qualityScore := if r.id = 7 then .real 0 else .real 8 }
  let store := { deskOfTwo.store with reviews := deskOfTwo.store.reviews.map scored }
  { store, lasting := store, now := ⟨0⟩ }

theorem average_of_zero_and_eights :
    (∃ fs d', (Reviews.statistics (.int 1)).run deskOfZero = (.ok fs, d') ∧
      Fields.get? fs "average_quality_score" = some (.real 8)) ∧
    Reviews.knownScores deskOfZero.store.reviews = [.real 0, .real 8, .real 8] := by
  have hreviews : ∀ r ∈ deskOfZero.store.reviews, r.Counted := by
    intro r hr
    fin_cases hr <;>
      exact ⟨⟨5, rfl⟩, ⟨2, rfl⟩, ⟨0, rfl⟩, .inr ⟨_, rfl⟩, .inl rfl⟩
  obtain ⟨⟨fs, d', hrun, v, hv, hmean, _⟩, _⟩ := averages_without_zero deskOfZero
    ⟨fun _ => rfl, rfl, rfl, rfl, rfl⟩ hreviews 1 rfl
  have height : Except.ok v = Except.ok (.real 8) := hmean.symm.trans rfl
  cases height
  exact ⟨⟨fs, d', hrun, hv⟩, rfl⟩

namespace Analytics

/-!
## When an overview counts

An overview asks which reviews were made this month. The clock has a zone and the moments of a store
have none, so that a single review is enough for the overview to fail, and the overview of a user
who has nothing is shown in its place.
-/

def ownRepositories (u : Int) (s : Store) : List Repository :=
  s.repositories.filter (·.ownedBy (.int u))

def ownReviews (u : Int) (s : Store) : List Review :=
  s.reviews.filter fun r => (ownRepositories u s).any (·.id == r.repositoryId)

def Overview.headline? (o : Overview) : Option Headline := do
  return ⟨o.totalReviews, o.completedReviews, ← o.totalIssues.whole?, ← o.criticalIssues.whole?⟩

/-- The overview counts what a user has. -/
structure Overview.Counts (u : Int) (s : Store) (o : Overview) : Prop where
  headline : o.headline? = some (.ofReviews (ownReviews u s))
  repositories : o.repositories = (ownRepositories u s).length
  active : o.activeRepositories =
    (ownRepositories u s).countP fun p => p.isActive == some true && p.isArchived != some true

/-! ## One overview -/

lemma overviewOf_cons (now : Moment) (ps : List Repository) (r : Review) (rs : List Review) :
    overviewOf now ps (r :: rs) = .error .zoneMismatch := by
  have hrecent : (r :: rs).filterM (Reviews.madeSince (monthStart now)) =
      .error .zoneMismatch := by
    simp only [List.filterM, List.filterAuxM, Reviews.madeSince]
    rfl
  rw [overviewOf, hrecent]
  rfl

lemma overviewOf_nil (now : Moment) (ps : List Repository) : ∃ o, overviewOf now ps [] = .ok o ∧
    o.headline? = some .zero ∧ o.repositories = ps.length ∧
      o.activeRepositories = ps.countP Accounts.isInUse :=
  ⟨_, rfl, rfl, rfl, rfl⟩

lemma not_counts_default {u : Int} (h : ownReviews u s ≠ []) : ¬ ({} : Overview).Counts u s := by
  intro hcounts
  have hnone := hcounts.headline
  rw [Reviews.ofReviews_eq] at hnone
  have hlength : ((ownReviews u s).length : Int) = 0 :=
    (congrArg Headline.reviews (Option.some.inj hnone)).symm
  exact h (eq_nil_of_length_eq_zero (by omega))

section

variable {u : Int} (hu : fits u) (t : Moment)

include hu

lemma gives_repositories : Gives (repositories u) t s (.ok (ownRepositories u s)) s := by
  refine gives_query_ok ?_ t
  rw [repositoriesOf, parameter_int hu]
  rfl

lemma gives_overview_of_none (h : ownRepositories u s = []) :
    Gives (overview u) t s (.ok {}) s := by
  refine Gives.orElse_ok ((gives_repositories hu t).bind ?_) ({} : Overview)
  rw [h]
  exact gives_pure _ t s

lemma gives_overview_of_some (h : ownRepositories u s ≠ []) : Gives (overview u) t s
      (.ok ((overviewOf t (ownRepositories u s) (ownReviews u s)).getD {})) s := by
  have hreviews : Gives (query fun s' => .ok (reviewsIn (ownRepositories u s) (fun _ => true) s')) t
      s (.ok (ownReviews u s)) s := by
    refine gives_query_ok ?_ t
    simp only [reviewsIn, Bool.and_true]
    rfl
  refine Gives.orElse ((gives_repositories hu t).bind ?_) ({} : Overview)
  simp only [List.isEmpty_iff, h, ↓reduceIte]
  exact hreviews.bind ((gives_now t s).bind (gives_ofOutcome _ t s))

end

/-- **An overview counts a user's work only until the first review.** At a calm desk an overview is
always told. It counts what the user has exactly if none of the user's repositories has a review,
and otherwise it is the overview of a user who has nothing. -/
theorem overview_counts_iff_no_review (d : Desk) (u : Int) (hd : Calm d d.now d.store)
    (hu : fits u) : ∃ o d', (overview u).run d = (.ok o, d') ∧
      (o.Counts u d.store ↔ ownReviews u d.store = []) ∧ (ownReviews u d.store ≠ [] → o = {}) := by
  by_cases hnone : ownRepositories u d.store = []
  · obtain ⟨d', hrun, _⟩ := gives_overview_of_none hu d.now hnone d hd
    have hreviews : ownReviews u d.store = [] := by simp [ownReviews, hnone]
    refine ⟨{}, d', hrun, ⟨fun _ => hreviews, fun _ => ⟨?_, ?_, ?_⟩⟩, fun _ => rfl⟩
    · rw [hreviews]
      rfl
    · rw [hnone]
      rfl
    · rw [hnone]
      rfl
  · obtain ⟨d', hrun, _⟩ := gives_overview_of_some hu d.now hnone d hd
    cases hreviews : ownReviews u d.store with
    | nil =>
      obtain ⟨o, ho, hheadline, hall, hactive⟩ := overviewOf_nil d.now (ownRepositories u d.store)
      rw [hreviews, ho] at hrun
      exact ⟨o, d', hrun, ⟨fun _ => rfl, fun _ => ⟨hreviews ▸ hheadline, hall, hactive⟩⟩,
        fun h => absurd rfl h⟩
    | cons r rs =>
      rw [hreviews, overviewOf_cons] at hrun
      refine ⟨{}, d', hrun, ⟨fun h => ?_, fun h => by cases h⟩, fun _ => rfl⟩
      exact absurd h (not_counts_default (by simp [hreviews]))

/-- Three reviews, one of them completed with five issues, and an overview that shows none. -/
theorem overview_misses_three_reviews :
    ∃ o d', (overview 1).run deskOfTwo = (.ok o, d') ∧ o = {} ∧ ¬ o.Counts 1 deskOfTwo.store ∧
      Headline.ofReviews (ownReviews 1 deskOfTwo.store) = ⟨3, 1, 5, 2⟩ := by
  have hreviews : ownReviews 1 deskOfTwo.store ≠ [] := by
    intro h
    have hlength : (ownReviews 1 deskOfTwo.store).length = 3 := by decide
    rw [h] at hlength
    cases hlength
  obtain ⟨o, d', hrun, hcounts, hempty⟩ :=
    overview_counts_iff_no_review deskOfTwo 1 ⟨fun _ => rfl, rfl, rfl, rfl, rfl⟩ rfl
  exact ⟨o, d', hrun, hempty hreviews, fun h => hreviews (hcounts.mp h), by decide⟩

end Analytics

end ReviewDesk
