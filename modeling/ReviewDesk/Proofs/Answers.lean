import ReviewDesk.Http.Routes
import ReviewDesk.Proofs.Rows

/-!
# What answers depend on

What a user is shown depends on the user's part of the store only. For this, work is run twice, once
with the whole store and once with the part: a query that gives the same on both makes no difference,
and neither does what is put together from such queries.
-/

namespace ReviewDesk

open List Outcome Store Repositories Bool

variable {α : Type} {s : Store} {x : Work α} {φ : α → Prop} {u : Int} {p : Repository}

namespace Work

/-! ## Two runs -/

variable {β : Type} {t : Store}

/-- Work that reads and gives the same with two stores, with something that is known of its result. -/
def Alike (s t : Store) (x : Work α) (φ : α → Prop) : Prop :=
  ∀ d : Desk, ∃ (o : Outcome α) (d' : Desk), run x (d.holding s) = (o, d'.holding s) ∧
    run x (d.holding t) = (o, d'.holding t) ∧ ∀ a, o = .ok a → φ a

/-- Work that has the same outcome with two stores, whatever it writes. -/
def SameAnswer (s t : Store) (x : Work α) : Prop :=
  ∀ d : Desk, (run x (d.holding s)).1 = (run x (d.holding t)).1

section

variable {f : α → Work β} {ψ : β → Prop}
variable {a : α} {q : Store → Outcome α}

lemma Alike.sameAnswer (h : Alike s t x φ) : SameAnswer s t x := by
  intro d
  obtain ⟨o, d', hs, ht, _⟩ := h d
  rw [hs, ht]

lemma Alike.imp {φ' : α → Prop} (h : Alike s t x φ) (himp : ∀ a, φ a → φ' a) : Alike s t x φ' := by
  intro d
  obtain ⟨o, d', hs, ht, ho⟩ := h d
  exact ⟨o, d', hs, ht, fun a ha => himp a (ho a ha)⟩

lemma alike_pure (h : φ a) : Alike s t (pure a) φ := by
  refine fun d => ⟨.ok a, d, rfl, rfl, fun b hb => ?_⟩
  cases hb
  exact h

lemma alike_throw (e : Fault) : Alike s t (throw e : Work α) φ :=
  fun d => ⟨.error e, d, rfl, rfl, fun _ hb => by cases hb⟩

lemma alike_ofOutcome (o : Outcome α) : Alike s t (ofOutcome o) (o = .ok ·) :=
  fun d => ⟨o, d, run_ofOutcome o _, run_ofOutcome o _, fun _ ha => ha⟩

lemma alike_now : Alike s t now fun _ => True := fun d => ⟨.ok d.now, d, rfl, rfl, fun _ _ => trivial⟩

lemma Alike.bind (hx : Alike s t x φ) (hf : ∀ a, φ a → Alike s t (f a) ψ) :
    Alike s t (x >>= f) ψ := by
  intro d
  obtain ⟨o, d₁, hs, ht, ho⟩ := hx d
  simp only [run_bind, hs, ht]
  cases o with
  | error e => exact ⟨.error e, d₁, rfl, rfl, fun _ hb => by cases hb⟩
  | ok a => exact hf a (ho a rfl) d₁

lemma Alike.discard (hx : Alike s t x φ) : Alike s t (discard x) fun _ => True :=
  hx.bind fun _ _ => alike_pure trivial

lemma Alike.tryCatch {h : Fault → Work α} (hx : Alike s t x φ) (hh : ∀ e, Alike s t (h e) φ) :
    Alike s t (tryCatch x h) φ := by
  intro d
  obtain ⟨o, d₁, hs, ht, ho⟩ := hx d
  simp only [run_tryCatch, hs, ht]
  cases o with
  | error e => exact hh e d₁
  | ok a => exact ⟨.ok a, d₁, rfl, rfl, ho⟩

lemma Alike.orElse (hx : Alike s t x φ) (ha : φ a) : Alike s t (orElse x a) φ :=
  hx.tryCatch fun _ => alike_pure ha

lemma alike_statement : Alike s t statement fun _ => True := by
  intro d
  simp only [statement, run_bind, run_get, run_set]
  cases htrouble : d.trouble.statement (d.statements + 1) with
  | true =>
    refine ⟨.error (.failed "statement failed"), d.asked, ?_, ?_,
      fun _ _ => trivial⟩ <;> simp [Desk.holding, htrouble]
  | false =>
    refine ⟨.ok (), d.asked, ?_, ?_, fun _ _ => trivial⟩ <;>
      simp [Desk.holding, htrouble]

lemma alike_get {f : Desk → Work β} (hsame : ∀ d : Desk, f (d.holding t) = f (d.holding s))
    (hf : ∀ d : Desk, Alike s t (f (d.holding s)) ψ) : Alike s t (get >>= f) ψ := by
  intro d
  obtain ⟨o, d', hs, ht, ho⟩ := hf d d
  refine ⟨o, d', ?_, ?_, ho⟩
  · rw [run_bind, run_get]
    exact hs
  · rw [run_bind, run_get]
    simp only [hsame]
    exact ht

lemma alike_query (h : q t = q s) : Alike s t (query q) (q s = .ok ·) :=
  alike_statement.bind fun _ _ => alike_get (fun _ => congrArg ofOutcome h) fun _ =>
    alike_ofOutcome (q s)

lemma alike_orElse_query (h : q t = q s) (a : α) : Alike s t (orElse (query q) a) fun _ => True :=
  ((alike_query h).imp fun _ _ => trivial).orElse trivial

lemma alike_web (x : Web α) : Alike s t (web x) fun _ => True := by
  intro d
  exact ⟨_, { d with wire := (x.run d.wire).2 }, run_web x _, run_web x _, fun _ _ => trivial⟩

lemma Alike.mapM {xs : List α} (h : ∀ a ∈ xs, Alike s t (f a) fun _ => True) :
    Alike s t (xs.mapM f) fun _ => True := by
  induction xs with
  | nil => exact alike_pure trivial
  | cons a xs ih =>
    rw [mapM_cons]
    refine (h a (.head _)).bind fun b _ => ?_
    refine (ih fun c hc => h c (.tail _ hc)).bind fun bs _ => alike_pure trivial

end

section

variable {f : α → Work β}

lemma SameAnswer.after (hx : Alike s t x φ) (hf : ∀ a, φ a → SameAnswer s t (f a)) :
    SameAnswer s t (x >>= f) := by
  intro d
  obtain ⟨o, d₁, hs, ht, ho⟩ := hx d
  simp only [run_bind, hs, ht]
  cases o with
  | error e => rfl
  | ok a => exact hf a (ho a rfl) d₁

lemma SameAnswer.of_outcome {y : Work β} (hx : SameAnswer s t x) (F : Outcome α → Outcome β)
    (h : ∀ d, (run y d).1 = F (run x d).1) : SameAnswer s t y := by
  intro d
  rw [h, h, hx d]

lemma SameAnswer.map (hx : SameAnswer s t x) (g : α → β) :
    SameAnswer s t (x >>= fun a => pure (g a)) := by
  refine hx.of_outcome (Except.map g) fun d => ?_
  rw [run_bind]
  rcases run x d with ⟨_ | a, d'⟩ <;> rfl

lemma SameAnswer.orFault (hx : SameAnswer s t x) (e : Fault) :
    SameAnswer s t (tryCatch x fun _ => throw e) := by
  refine hx.of_outcome (Except.mapError fun _ => e) fun d => ?_
  rw [run_tryCatch]
  rcases run x d with ⟨_ | a, d'⟩ <;> rfl

lemma SameAnswer.orRollback (hx : SameAnswer s t x) : SameAnswer s t (orRollback x) := by
  refine hx.of_outcome id fun d => ?_
  rw [Work.orRollback, run_tryCatch]
  rcases run x d with ⟨_ | a, d'⟩ <;> rfl

/-- A statement that fails in both stores or in none, with what is read after it. -/
lemma SameAnswer.change_commit {w : Store → Outcome Store}
    (h : (∃ e, w s = .error e ∧ w t = .error e) ∨
      ∃ s' t', w s = .ok s' ∧ w t = .ok t' ∧ SameAnswer s' t' x) :
    SameAnswer s t (change w >>= fun _ => commit >>= fun _ => x) := by
  intro d
  obtain ⟨o, d₁, hs, ht, _⟩ := alike_statement (s := s) (t := t) d
  simp only [change, bind_assoc, run_bind, hs, ht]
  cases o with
  | error e => rfl
  | ok _ =>
    simp only [run_get, run_ofOutcome]
    rcases h with ⟨e, hes, het⟩ | ⟨s', t', hes, het, hx⟩
    · simp only [Desk.holding, hes, het]
    · simp only [Desk.holding, hes, het, run_set, commit, run_bind, run_get]
      cases d₁.trouble.commit with
      | some e => rfl
      | none => exact hx d₁

end

end Work

namespace Store

/-! ## Queries on the part -/

lemma filter_filter_of_imp {mine picks : α → Bool} {rows : List α}
    (h : ∀ r ∈ rows, picks r = true → mine r = true) :
    (rows.filter mine).filter picks = rows.filter picks := by
  rw [filter_filter]
  refine filter_congr fun r hr => ?_
  cases hpicks : picks r with
  | true => rw [h r hr hpicks, Bool.and_true]
  | false => rw [Bool.false_and]

section

variable {mine picks : α → Bool} {f : α → Outcome α}

lemma picked_changeWhere_cons (r : α) (rows : List α) :
    (changeWhere picks f (r :: rows)).map (List.filter picks) =
      (if picks r then f r else .ok r) >>= fun r' =>
        ((changeWhere picks f rows).map (List.filter picks)).map (List.filter picks [r'] ++ ·) := by
  simp only [changeWhere, mapM_cons]
  cases (if picks r then f r else .ok r) with
  | error e => rfl
  | ok r' =>
    simp only [bind_ok]
    cases rows.mapM fun r => if picks r then f r else .ok r with
    | error e => rfl
    | ok rest =>
      show Except.ok (List.filter picks ([r'] ++ rest)) = Except.ok (_ ++ List.filter picks rest)
      rw [filter_append]

/-- What is written to some rows does not depend on the rows beside them. -/
lemma picked_changeWhere_filter {rows : List α} (h : ∀ r ∈ rows, picks r = true → mine r = true) :
    (changeWhere picks f (rows.filter mine)).map (List.filter picks) =
      (changeWhere picks f rows).map (List.filter picks) := by
  induction rows with
  | nil => rfl
  | cons r rows ih =>
    have hrest := ih fun q hq => h q (.tail _ hq)
    cases hmine : mine r with
    | true =>
      rw [filter_cons_of_pos hmine, picked_changeWhere_cons, picked_changeWhere_cons, hrest]
    | false =>
      have hpicks : picks r = false := by
        cases hpicks : picks r with
        | true => exact absurd (h r (.head _) hpicks) (by rw [hmine]; decide)
        | false => rfl
      rw [filter_cons_of_neg (by rw [hmine]; decide), picked_changeWhere_cons, hrest]
      simp only [hpicks, false_eq_true, ↓reduceIte, bind_ok, filter_cons,
        filter_nil, nil_append]
      cases (changeWhere picks f rows).map (List.filter picks) <;> rfl

end

section

variable {r : Review} {id : Value}

lemma part_userById : (s.part u).userById (.int u) = s.userById (.int u) := by
  refine bind_congr fun p hp => ?_
  obtain ⟨_, rfl⟩ := parameter_int_ok hp
  simp only [part, intIs_int]
  rw [filter_filter_of_imp fun _ _ h => h]

lemma part_repositoriesOf : (s.part u).repositoriesOf (.int u) = s.repositoriesOf (.int u) := by
  refine bind_congr fun p hp => ?_
  obtain ⟨_, rfl⟩ := parameter_int_ok hp
  rw [part, filter_filter_of_imp fun _ _ h => h]

lemma part_owned (id : Value) : owned id (.int u) (s.part u) = owned id (.int u) s := by
  refine bind_congr fun v _ => bind_congr fun p hp => ?_
  obtain ⟨_, rfl⟩ := parameter_int_ok hp
  rw [part, filter_filter_of_imp fun _ _ h => (and_eq_true_iff.mp h).2]

variable (hs : s.Keyed)

include hs

lemma Keyed.part : (s.part u).Keyed where
  repositories := hs.repositories.sublist (filter_sublist.map _)
  reviews := hs.reviews.sublist (filter_sublist.map _)
  issues := hs.issues.sublist (filter_sublist.map _)
  comments := hs.comments.sublist (filter_sublist.map _)

lemma underOwner_iff : s.underOwner (.int u) r = true ↔
      ∃ p ∈ s.repositories, p.id = r.repositoryId ∧ p.ownedBy (.int u) = true := by
  constructor
  · intro h
    obtain ⟨p, hfind, howned⟩ := (Option.any_eq_true _ _).mp h
    exact ⟨p, mem_of_find?_eq_some hfind, by simpa using find?_some hfind, howned⟩
  · rintro ⟨p, hp, hid, howned⟩
    exact underOwner_of_mem hs hp hid howned

lemma part_underOwner (r : Review) :
    (s.part u).underOwner (.int u) r = s.underOwner (.int u) r := by
  rw [Bool.eq_iff_iff, underOwner_iff hs, underOwner_iff hs.part]
  constructor
  · rintro ⟨p, hp, hid, howned⟩
    exact ⟨p, (mem_filter.mp hp).1, hid, howned⟩
  · rintro ⟨p, hp, hid, howned⟩
    exact ⟨p, mem_filter.mpr ⟨hp, howned⟩, hid, howned⟩

lemma part_reviewsOf : (s.part u).reviewsOf (.int u) = s.reviewsOf (.int u) := by
  refine bind_congr fun p hp => ?_
  obtain ⟨_, rfl⟩ := parameter_int_ok hp
  rw [funext (part_underOwner hs), part, filter_filter_of_imp fun _ _ h => h]

lemma part_ownedReview (id : Value) :
    (s.part u).ownedReview id (.int u) = s.ownedReview id (.int u) := by
  refine bind_congr fun v _ => bind_congr fun p hp => ?_
  obtain ⟨_, rfl⟩ := parameter_int_ok hp
  simp only [part_underOwner hs]
  rw [part, filter_filter_of_imp fun _ _ h => (and_eq_true_iff.mp h).2]

/-! ## Queries below a repository or a review of the user -/

lemma part_repositoryById (hp : p ∈ s.repositories)
    (hid : Names id p.id) (howned : p.ownedBy (.int u) = true) :
    (s.part u).repositoryById id = s.repositoryById id := by
  have hall : ∀ q ∈ s.repositories, Names id q.id → q.ownedBy (.int u) = true :=
    forall_named hs.repositories hp hid howned
  refine bind_congr fun v hv => ?_
  rw [part, filter_filter_of_imp]
  exact fun q hq hpicked => hall q hq ⟨v, hv, hpicked⟩

/-- A change of a repository of the user succeeds on both or on none, and then gives the same row. -/
lemma part_changeRepository (hp : p ∈ s.repositories)
    (hid : Names id p.id) (howned : p.ownedBy (.int u) = true) (f : Repository → Outcome Repository) :
    (∃ e, s.changeRepository id f = .error e ∧ (s.part u).changeRepository id f = .error e) ∨
      ∃ s' t', s.changeRepository id f = .ok s' ∧ (s.part u).changeRepository id f = .ok t' ∧
        t'.repositoryById id = s'.repositoryById id := by
  have hall : ∀ q ∈ s.repositories, Names id q.id → q.ownedBy (.int u) = true :=
    forall_named hs.repositories hp hid howned
  unfold changeRepository repositoryById
  cases hv : parameter id with
  | error e => exact .inl ⟨e, rfl, rfl⟩
  | ok v =>
    have hpicked := picked_changeWhere_filter (f := f) fun q hq hpicked => hall q hq ⟨v, hv, hpicked⟩
    simp only [bind_ok, part]
    rcases cases_of_map_eq hpicked with ⟨e, hown, hrows⟩ | ⟨_, _, hown, hrows, hsame⟩
    · rw [hrows, hown]
      exact .inl ⟨e, rfl, rfl⟩
    · rw [hrows, hown]
      exact .inr ⟨_, _, rfl, rfl, congrArg one hsame⟩

lemma part_reviewById (hr : r ∈ s.reviews) (hid : Names id r.id)
    (hunder : s.underOwner (.int u) r = true) : (s.part u).reviewById id = s.reviewById id := by
  refine bind_congr fun v hv => ?_
  rw [part, filter_filter_of_imp]
  exact fun q hq hpicked => forall_named hs.reviews hr hid hunder q hq ⟨v, hv, hpicked⟩

lemma part_filter_reviews (hp : p ∈ s.repositories)
    (howned : p.ownedBy (.int u) = true) {picks : Review → Bool}
    (hpicks : ∀ r ∈ s.reviews, picks r = true → r.repositoryId = p.id) :
    (s.part u).reviews.filter picks = s.reviews.filter picks :=
  filter_filter_of_imp fun r hr hpicked => underOwner_of_mem hs hp (hpicks r hr hpicked).symm howned

lemma part_reviewsIn (hp : p ∈ s.repositories)
    (hid : Names id p.id) (howned : p.ownedBy (.int u) = true) :
    reviewsIn id (s.part u) = reviewsIn id s := by
  refine bind_congr fun v hv => ?_
  rw [part_filter_reviews hs hp howned]
  exact fun r _ hpicked => Names.unique ⟨v, hv, hpicked⟩ hid

lemma part_issuesIn (hr : r ∈ s.reviews) (hunder : s.underOwner (.int u) r = true) :
    (s.part u).issuesIn r.id = s.issuesIn r.id :=
  filter_filter_of_imp fun _ _ hpicked =>
    issueUnder_of_mem hs hr (beq_iff_eq.mp hpicked).symm hunder

lemma part_listed (hr : r ∈ s.reviews) (hid : Names id r.id)
    (hunder : s.underOwner (.int u) r = true) (f : Issues.Filter) :
    Issues.listed id f (s.part u) = Issues.listed id f s := by
  refine bind_congr fun v hv => bind_congr fun picks _ => ?_
  rw [part, filter_filter_of_imp]
  intro i _ hpicked
  have hreview := Names.unique hid ⟨v, hv, (and_eq_true_iff.mp hpicked).1⟩
  exact issueUnder_of_mem hs hr hreview hunder

omit hs in
lemma part_commentsOn (hr : r ∈ s.reviews) (hunder : s.underOwner (.int u) r = true) :
    (s.part u).commentsOn r.id = s.commentsOn r.id :=
  filter_filter_of_imp fun _ _ hpicked => commentUnder_of_mem hr hpicked hunder

omit hs in
lemma part_comments {v : Value} (hr : r ∈ s.reviews) (hid : intIs r.id v = true)
    (hunder : s.underOwner (.int u) r = true) :
    (s.part u).comments.filter (figureIs ·.reviewId v) = s.comments.filter (figureIs ·.reviewId v) :=
  filter_filter_of_imp fun _ _ hpicked => commentUnder_of_mem hr (figureIs_trans hpicked hid) hunder

lemma part_reviewsInAny {rs : List Repository} (hrs : s.repositoriesOf (.int u) = .ok rs)
    (picks : Review → Bool) :
    Analytics.reviewsIn rs picks (s.part u) = Analytics.reviewsIn rs picks s := by
  refine filter_filter_of_imp fun r _ hpicked => ?_
  obtain ⟨p, hp, hid⟩ := any_eq_true.mp (and_eq_true_iff.mp hpicked).1
  obtain ⟨_, hrs⟩ := bind_parameter_int hrs
  cases hrs
  obtain ⟨hmem, howned⟩ := mem_filter.mp hp
  exact underOwner_of_mem hs hmem (beq_iff_eq.mp hid) howned

end

end Store

/-! ## Requests -/

namespace Api

open Work

section

variable (hs : s.Keyed) (user : User) (id : Value)
lemma alike_preferencesOf : Alike s (s.part user.id) (preferencesOf user.id) fun _ => True :=
  (alike_query part_userById).bind fun _ _ => alike_pure trivial

lemma alike_listRepositories (f : Repositories.Filter) (skip limit : Value) :
    Alike s (s.part user.id) (list (.int user.id) f skip limit) fun _ => True := by
  refine alike_orElse_query ?_ _
  simp only [listed, part_repositoriesOf]

lemma alike_availableRepositories :
    Alike s (s.part user.id) (availableRepositories user) fun _ => True := by
  unfold availableRepositories
  split
  · exact alike_throw _
  · refine Alike.tryCatch ?_ fun _ => alike_throw _
    refine Alike.bind ((alike_preferencesOf user).bind fun _ _ => alike_web _) fun found _ => ?_
    refine (alike_listRepositories user _ _ _).bind fun connected _ => Alike.mapM fun r _ => ?_
    exact (alike_ofOutcome _).bind fun _ _ => alike_pure trivial

def FoundRepository (s : Store) (user : User) (id : Value) (p : Repository) : Prop :=
  p ∈ s.repositories ∧ Names id p.id ∧ p.ownedBy (.int user.id) = true

def FoundReview (s : Store) (user : User) (id : Value) (r : Review) : Prop :=
  r ∈ s.reviews ∧ Names id r.id ∧ s.underOwner (.int user.id) r = true

lemma alike_ownRepository :
    Alike s (s.part user.id) (ownRepository user id) (FoundRepository s user id) := by
  refine Alike.bind (φ := fun found => ∀ p, found = some p → FoundRepository s user id p) ?_ ?_
  · refine ((alike_query (part_owned id)).imp fun found hfound p hp => ?_).orElse ?_
    · exact owned_some (hp ▸ hfound)
    · exact fun p hp => by cases hp
  · intro found hfound
    cases found with
    | none => exact alike_throw _
    | some p => exact alike_pure (hfound p rfl)

lemma alike_branches : Alike s (s.part user.id) (branches user id) fun _ => True := by
  refine (alike_ownRepository user id).bind fun p _ => Alike.tryCatch ?_ fun _ => alike_throw _
  refine Alike.bind ((alike_preferencesOf user).bind fun _ _ => alike_web _) fun _ _ => ?_
  exact alike_pure trivial

include hs

lemma alike_recent {id : Value} (hp : p ∈ s.repositories)
    (hid : Names id p.id) (howned : p.ownedBy (.int u) = true) (limit : Value) :
    Alike s (s.part u) (recent id limit) fun _ => True := by
  refine alike_orElse_query ?_ _
  simp only [part_reviewsIn hs hp hid howned]

lemma alike_trend {id : Value} (hp : p ∈ s.repositories)
    (hid : Names id p.id) (howned : p.ownedBy (.int u) = true) (days : Value) :
    Alike s (s.part u) (qualityTrend id days) fun _ => True := by
  refine Alike.orElse (alike_now.bind fun t _ => (alike_ofOutcome _).bind fun start _ => ?_) trivial
  refine (alike_query ?_).imp fun _ _ => trivial
  simp only [part_reviewsIn hs hp hid howned]

lemma alike_withFigures :
    Alike s (s.part user.id) (withFigures id (.int user.id)) fun _ => True := by
  refine Alike.orElse ((alike_query (part_owned id)).bind fun found hfound => ?_) trivial
  cases found with
  | none => exact alike_pure trivial
  | some p =>
    obtain ⟨hp, hid, howned⟩ := owned_some hfound
    refine alike_get (fun d => ?_) fun d => ?_
    · simp only [Desk.holding]
      rw [part_filter_reviews hs hp howned fun r _ hpicked => beq_iff_eq.mp hpicked]
    · refine (alike_recent hs hp hid howned _).bind fun recent _ => ?_
      exact (alike_trend hs hp hid howned _).bind fun trend _ => alike_pure trivial

lemma alike_repositoryWithFigures :
    Alike s (s.part user.id) (repositoryWithFigures user id) fun _ => True := by
  refine (alike_withFigures hs user id).bind fun found _ => ?_
  cases found with
  | none => exact alike_throw _
  | some fs => exact alike_pure trivial

/-- The row that a change gives is the same, though the stores that it leaves differ. -/
lemma sameAnswer_update (hp : FoundRepository s user id p) (f : Filled) :
    SameAnswer s (s.part user.id) (update id f) := by
  obtain ⟨hp, hid, howned⟩ := hp
  have hfind {s t : Store} (h : t.repositoryById id = s.repositoryById id) :
      SameAnswer s t (find id) :=
    (alike_orElse_query h _).sameAnswer
  refine SameAnswer.orRollback ?_
  split
  · simp only [write, bind_assoc]
    refine SameAnswer.after alike_now fun t _ => SameAnswer.change_commit ?_
    refine (part_changeRepository hs hp hid howned _).imp_right ?_
    rintro ⟨s', t', hs', ht', hsame⟩
    exact ⟨s', t', hs', ht', hfind hsame⟩
  · exact hfind (part_repositoryById hs hp hid howned)

lemma sameAnswer_syncRepository : SameAnswer s (s.part user.id) (syncRepository user id) := by
  refine SameAnswer.after (alike_ownRepository user id) fun p hp => SameAnswer.orFault ?_ _
  refine SameAnswer.after ((alike_preferencesOf user).bind fun _ _ => alike_web _) fun info _ => ?_
  refine SameAnswer.after (alike_ofOutcome _) fun name _ => ?_
  refine SameAnswer.after (alike_ofOutcome _).discard fun _ _ => ?_
  refine SameAnswer.after (alike_ofOutcome _).discard fun _ _ => ?_
  refine SameAnswer.after (alike_ofOutcome _) fun form _ => ?_
  exact (sameAnswer_update hs user id hp form).map _

lemma alike_ownReview : Alike s (s.part user.id) (ownReview user id) (FoundReview s user id) := by
  refine Alike.bind (φ := fun found => ∀ r, found = some r → FoundReview s user id r) ?_ ?_
  · refine ((alike_query (part_ownedReview hs id)).imp fun found hfound r hr => ?_).orElse ?_
    · exact ownedReview_some (hr ▸ hfound)
    · exact fun r hr => by cases hr
  · intro found hfound
    cases found with
    | none => exact alike_throw _
    | some r => exact alike_pure (hfound r rfl)

lemma alike_afterReview
    (hx : ∀ r, FoundReview s user id r → Alike s (s.part user.id) x fun _ => True) :
    Alike s (s.part user.id) (do discard (ownReview user id); x) fun _ => True := by
  have hbind : (do discard (ownReview user id); x) = (ownReview user id >>= fun _ => x) :=
    bind_map_left _ _ _
  rw [hbind]
  exact (alike_ownReview hs user id).bind hx

lemma alike_listReviews (repository status skip limit : Value) :
    Alike s (s.part user.id) (Reviews.list (.int user.id) repository status skip limit)
      fun _ => True := by
  refine Alike.orElse ((alike_query ?_).bind fun rs _ => Alike.mapM fun r _ => ?_) trivial
  · simp only [Reviews.listed, part_reviewsOf hs]
  · exact (alike_ofOutcome _).bind fun _ _ => alike_pure trivial

lemma alike_detailedReview (hu : user.id ≠ 0) :
    Alike s (s.part user.id) (detailedReview user id) fun _ => True := by
  have htruthy : (Value.int user.id).truthy = true := by simpa [Value.truthy] using hu
  refine (alike_orElse_query ?_ _).bind fun found _ => ?_
  · simp only [htruthy, ↓reduceIte, part_ownedReview hs]
    cases hr : s.ownedReview id (.int user.id) with
    | error e => rfl
    | ok found =>
      cases found with
      | none => rfl
      | some r =>
        obtain ⟨hmem, _, hunder⟩ := ownedReview_some hr
        simp only [bind_ok, Option.map_some, Reviews.detailed, part_issuesIn hs hmem hunder,
          part_commentsOn hmem hunder]
  · cases found with
    | none => exact alike_throw _
    | some a => exact alike_pure trivial

lemma alike_reviewProgress : Alike s (s.part user.id) (reviewProgress user id) fun _ => True := by
  refine alike_afterReview hs user id fun r ⟨hr, hid, hunder⟩ => ?_
  refine (alike_orElse_query (part_reviewById hs hr hid hunder) _).bind fun found _ => ?_
  cases found with
  | none => exact alike_throw _
  | some r => exact alike_now.bind fun t _ => (alike_ofOutcome _).imp fun _ _ => trivial

lemma alike_reviewIssues (f : Issues.Filter) :
    Alike s (s.part user.id) (reviewIssues user id f) fun _ => True := by
  refine alike_afterReview hs user id fun r ⟨hr, hid, hunder⟩ => ?_
  exact alike_orElse_query (part_listed hs hr hid hunder f) _

lemma alike_reviewComments : Alike s (s.part user.id) (reviewComments user id) fun _ => True := by
  refine alike_afterReview hs user id fun r ⟨hr, ⟨v, hv, hid⟩, hunder⟩ => ?_
  refine alike_orElse_query ?_ _
  simp only [hv, bind_ok, part_comments hr hid hunder]

end

end Api

/-! ## Pages -/

namespace Analytics

open Work

section

variable (hs : s.Keyed) (user : Int)

lemma alike_repositories :
    Alike s (s.part user) (repositories user) (s.repositoriesOf (.int user) = .ok ·) :=
  alike_query part_repositoriesOf

lemma alike_topLanguages : Alike s (s.part user) (topLanguages user) fun _ => True := by
  refine alike_orElse_query ?_ _
  simp only [part_repositoriesOf]

lemma Alike.failing {t : Store} (hx : Alike s t x φ)
    (detail : String) : Alike s t (failing x detail) φ :=
  hx.tryCatch fun _ => alike_throw _

include hs

lemma alike_overview : Alike s (s.part user) (overview user) fun _ => True := by
  refine Alike.orElse ((alike_repositories user).bind fun rs hrs => ?_) trivial
  split
  · exact alike_pure trivial
  · refine (alike_query ?_).bind fun reviews _ => alike_now.bind fun _ _ => ?_
    · simp only [part_reviewsInAny hs hrs]
    · exact (alike_ofOutcome _).imp fun _ _ => trivial

lemma alike_qualityTrend : Alike s (s.part user) (qualityTrend user) fun _ => True := by
  refine Alike.orElse ((alike_repositories user).bind fun rs hrs => ?_) trivial
  split
  · exact alike_pure trivial
  · refine alike_now.bind fun t _ => (alike_query ?_).bind fun reviews _ => ?_
    · simp only [part_reviewsInAny hs hrs]
    · exact (alike_ofOutcome _).imp fun _ _ => trivial

lemma alike_latestReviews {rs : List Repository} (hrs : s.repositoriesOf (.int user) = .ok rs)
    (start : Moment) :
    Alike s (s.part user) (query fun s => .ok (latestReviews rs start s)) fun _ => True := by
  refine (alike_query ?_).imp fun _ _ => trivial
  simp only [latestReviews, part_reviewsInAny hs hrs]

lemma alike_dashboard : Alike s (s.part user) (dashboard user) fun _ => True := by
  refine Alike.failing ?_ _
  refine (alike_overview hs user).bind fun overview _ => alike_now.bind fun t _ => ?_
  refine (alike_repositories user).bind fun rs hrs => ?_
  -- Both cases go on in the same way with the reviews that they give.
  split
  all_goals
    refine Alike.bind (φ := fun _ => True) ?_ fun recent _ => (alike_ofOutcome _).bind fun weekly _ =>
      (alike_topLanguages user).bind fun languages _ => (alike_qualityTrend hs user).bind fun trend _ =>
        alike_pure trivial
  · exact alike_pure trivial
  · exact alike_latestReviews hs user hrs _

lemma alike_repositoryLine (hp : p ∈ s.repositories)
    (howned : p.ownedBy (.int user) = true) :
    Alike s (s.part user) (repositoryLine p) fun _ => True := by
  have hreviews : (s.part user).reviews.filter (·.repositoryId == p.id) =
      s.reviews.filter (·.repositoryId == p.id) :=
    part_filter_reviews hs hp howned fun r _ hpicked => beq_iff_eq.mp hpicked
  refine (alike_query ?_).bind fun count _ => (alike_query ?_).bind fun latest _ =>
    alike_pure trivial
  · simp only [countP_eq_length_filter, hreviews]
  · simp only [hreviews]

lemma alike_repositoryPage : Alike s (s.part user) (repositoryPage user) fun _ => True := by
  refine Alike.failing ((alike_query ?_).bind fun rs hrs => ?_) _
  · simp only [part_repositoriesOf]
  · refine (Alike.mapM fun p hp => ?_).bind fun lines _ => alike_pure trivial
    obtain ⟨own, hown, hrs⟩ := bind_eq_ok hrs
    cases hrs
    have hmem : p ∈ own := mem_mergeSort.mp hp
    obtain ⟨_, hown⟩ := bind_parameter_int hown
    cases hown
    obtain ⟨hp, howned⟩ := mem_filter.mp hmem
    exact alike_repositoryLine hs user hp howned

lemma alike_performancePage : Alike s (s.part user) (performancePage user) fun _ => True := by
  refine Alike.failing ((alike_repositories user).bind fun rs hrs => ?_) _
  split
  · exact alike_now.bind fun _ _ => (alike_ofOutcome _).imp fun _ _ => trivial
  · refine (alike_query ?_).bind fun done _ => alike_now.bind fun _ _ => ?_
    · simp only [part_reviewsInAny hs hrs]
    · exact (alike_ofOutcome _).imp fun _ _ => trivial

end

end Analytics

/-! ## Routes -/

namespace Http

open Work Api Analytics

section

variable (hs : s.Keyed) (user : User) (g : Given)
variable {r : Route}

lemma sameAnswer_shown {t : Store} {answer : α → Answer}
    (hx : Alike s t x φ) : SameAnswer s t (x >>= fun a => pure (answer a)) :=
  hx.sameAnswer.map answer

include hs

lemma sameAnswer_repositoryRoutes (hr : r ∈ repositoryRoutes) (hget : r.methods = ["GET"]) :
    SameAnswer s (s.part user.id) (r.call (some user) g) := by
  fin_cases hr
  all_goals try exact absurd hget (by decide)
  · exact sameAnswer_shown (alike_listRepositories user _ _ _)
  · exact sameAnswer_shown (alike_availableRepositories user)
  · exact sameAnswer_shown (alike_repositoryWithFigures hs user _)
  · exact sameAnswer_shown (alike_branches user _)
  · exact (sameAnswer_syncRepository hs user _).map _

lemma sameAnswer_reviewRoutes (hu : user.id ≠ 0) (hr : r ∈ reviewRoutes)
    (hget : r.methods = ["GET"]) : SameAnswer s (s.part user.id) (r.call (some user) g) := by
  fin_cases hr
  all_goals try exact absurd hget (by decide)
  all_goals apply sameAnswer_shown
  · exact alike_listReviews hs user _ _ _ _
  · exact alike_detailedReview hs user _ hu
  · exact alike_reviewProgress hs user _
  · exact alike_reviewIssues hs user _ _
  · exact alike_reviewComments hs user _

lemma sameAnswer_analyticsRoutes (hr : r ∈ analyticsRoutes) :
    SameAnswer s (s.part user.id) (r.call (some user) g) := by
  fin_cases hr
  · exact fun _ => rfl
  · exact ((alike_overview hs user.id).sameAnswer.map _).map _
  · exact sameAnswer_shown (alike_dashboard hs user.id)
  · exact sameAnswer_shown (alike_repositoryPage hs user.id)
  · exact sameAnswer_shown (alike_performancePage hs user.id)

lemma sameAnswer_part (hu : user.id ≠ 0)
    (hr : r ∈ repositoryRoutes ++ reviewRoutes ++ analyticsRoutes) (hget : r.methods = ["GET"]) :
    SameAnswer s (s.part user.id) (r.call (some user) g) := by
  rcases mem_append.mp hr with hr | hr
  · rcases mem_append.mp hr with hr | hr
    · exact sameAnswer_repositoryRoutes hs user g hr hget
    · exact sameAnswer_reviewRoutes hs user g hu hr hget
  · exact sameAnswer_analyticsRoutes hs user g hr

end

/-- Two stores that have the same part of a user give that user the same answers to all requests that
read, whatever the two hold of others, whichever statements fail and whatever other services reply. -/
theorem answer_of_part {s t : Store} (hs : s.Numbered) (ht : t.Numbered) {user : User}
    (huser : user ∈ s.users) (hpart : s.part user.id = t.part user.id) {r : Route}
    (hr : r ∈ repositoryRoutes ++ reviewRoutes ++ analyticsRoutes) (hget : r.methods = ["GET"])
    (g : Given) (d : Desk) :
    (run (r.call (some user) g) (d.holding s)).1 = (run (r.call (some user) g) (d.holding t)).1 := by
  have hu : user.id ≠ 0 := Int.ne_of_gt (hs.users.pos (mem_map_of_mem huser))
  calc (run (r.call (some user) g) (d.holding s)).1
      = (run (r.call (some user) g) (d.holding (s.part user.id))).1 :=
        sameAnswer_part hs.keyed user g hu hr hget d
    _ = (run (r.call (some user) g) (d.holding (t.part user.id))).1 := by rw [hpart]
    _ = (run (r.call (some user) g) (d.holding t)).1 :=
        (sameAnswer_part ht.keyed user g hu hr hget d).symm

def oneOwner : Store where
  users := [sampleUser 1]
  repositories := [sampleRepository 1 1]
  reviews := [sampleReview 1 1 1]

lemma numbered_oneOwner : oneOwner.Numbered := by
  constructor <;> simp [Ascending, oneOwner, sampleUser, sampleRepository, sampleReview]

def reviewGiven (n : Int) : Given where
  values := [("review_id", .int n)]
  body := ⟨[], []⟩

/-- The first owner sees the own review, and cannot tell whether there is one of another owner: to the
request for the second review the answer is the same if there is no such review. -/
theorem review_of_other_unseen :
    let d : Desk := { now := ⟨0⟩ }
    let ask (n : Int) (s : Store) : Outcome Answer :=
      (run (Route.showReview.call (some (sampleUser 1)) (reviewGiven n)) (d.holding s)).1
    twoOwners.Numbered ∧ oneOwner.Numbered ∧ sampleUser 1 ∈ twoOwners.users ∧
      twoOwners.part 1 = oneOwner.part 1 ∧
      twoOwners.reviews.map (·.id) = [1, 2] ∧ oneOwner.reviews.map (·.id) = [1] ∧
      (ask 1 twoOwners).isOk = true ∧ ask 1 twoOwners = ask 1 oneOwner ∧
      ask 2 twoOwners = ask 2 oneOwner := by
  have huser : sampleUser 1 ∈ twoOwners.users := mem_cons_self ..
  have hr : Route.showReview ∈ repositoryRoutes ++ reviewRoutes ++ analyticsRoutes :=
    mem_append_left _ (mem_append_right _ (by simp [reviewRoutes]))
  have hanswer (n : Int) := answer_of_part numbered_twoOwners numbered_oneOwner huser rfl hr rfl
    (reviewGiven n) { now := ⟨0⟩ }
  exact ⟨numbered_twoOwners, numbered_oneOwner, huser, rfl, rfl, rfl, by decide +kernel, hanswer 1,
    hanswer 2⟩

end Http

end ReviewDesk
