import ReviewDesk.Jobs.Summary
import ReviewDesk.Proofs.Requests

/-!
# Whether users stay apart

A review belongs to its author, and its issues and comments belong to the author of the review that
they were filed under. The number of a row that was taken away can come back, and rows that still
refer to it are then taken for rows of the new one. The main result says that this is the only way
in which users get at each other's reviews: a run keeps all of them apart exactly if it never
recycles such a number.
-/

namespace ReviewDesk

open Work Store List Repositories Reviews

variable {s s' : Store} {k : Nat} {u : Int} {made : List Item} {b : Books} {r : Review}

/-!
## Runs of requests and jobs

Users make requests and jobs are done, one after the other, each at a desk of its own. A `Ledger`
keeps beside the store whose review an issue or a comment was first filed under. `Follows` says what
any step can do to the tables, and `Orderly` what holds at every point of every run.
-/

/-!
## What jobs do

A job belongs to nobody. Whatever happens to it, it writes to rows in place and adds issues, and no
row changes its number, its owner or what it belongs to.
-/

/-- Rows stay in their places with their ties, and new issues have new numbers. -/
structure Upkeep (s s' : Store) : Prop where
  repositories : Kept Repository.SameTies s.repositories s'.repositories
  reviews : Kept Review.SameTies s.reviews s'.reviews
  comments : s'.comments = s.comments
  issues : ∃ new, s'.issues = s.issues ++ new ∧ ∀ i ∈ new, i.id ∉ s.issues.map (·.id)
  numbers : (s.issues.map (·.id)).Nodup → (s'.issues.map (·.id)).Nodup

lemma Upkeep.refl (s : Store) : Upkeep s s where
  repositories := .refl .refl _
  reviews := .refl .refl _
  comments := rfl
  issues := ⟨[], (append_nil _).symm, fun i hi => by cases hi⟩
  numbers := id

lemma Upkeep.trans {a b c : Store} (h : Upkeep a b) (h' : Upkeep b c) : Upkeep a c where
  repositories := h.repositories.trans (fun _ _ _ => .trans) h'.repositories
  reviews := h.reviews.trans (fun _ _ _ => .trans) h'.reviews
  comments := h'.comments.trans h.comments
  issues := by
    obtain ⟨new, hnew, hfresh⟩ := h.issues
    obtain ⟨more, hmore, hfresh'⟩ := h'.issues
    refine ⟨new ++ more, by rw [hmore, hnew, append_assoc], fun i hi => ?_⟩
    rcases mem_append.mp hi with hi | hi
    · exact hfresh i hi
    · intro hold
      refine hfresh' i hi ?_
      rw [hnew, map_append]
      exact mem_append_left _ hold
  numbers := h'.numbers ∘ h.numbers

def Tended (s : Store) (d : Desk) : Prop := ∃ s', At s' d ∧ Upkeep s s'

/-- Work that does nothing but upkeep, whether it succeeds or not. -/
def Tends {α : Type} (x : Work α) : Prop :=
  ∀ s, Ends (At s) x (fun _ => Tended s) (fun _ => Tended s)

section

variable {α β : Type} {x : Work α} {f : α → Work β}

lemma Tended.refl {d : Desk} (h : At s d) : Tended s d := ⟨s, h, .refl s⟩

lemma Tends.of_quiet (hx : ∀ s, Ends (At s) x (fun _ => At s) (fun _ => At s)) : Tends x :=
  fun s => (hx s).mono (fun _ _ => .refl) fun _ _ => .refl

lemma Tends.after (hx : Tends x) (s : Store) :
    Ends (Tended s) x (fun _ => Tended s) (fun _ => Tended s) := by
  refine Ends.exists fun s₁ => Ends.assume fun h => (hx s₁).mono ?_ ?_
  · exact fun _ d ⟨s₂, hd, h'⟩ => ⟨s₂, hd, h.trans h'⟩
  · exact fun _ d ⟨s₂, hd, h'⟩ => ⟨s₂, hd, h.trans h'⟩

lemma tends_pure (a : α) : Tends (pure a) := .of_quiet fun _ => ends_pure fun _ h => h

lemma tends_throw (e : Fault) : Tends (throw e : Work α) :=
  .of_quiet fun _ => ends_throw fun _ h => h

lemma tends_ofOutcome (o : Outcome α) : Tends (ofOutcome o) :=
  .of_quiet fun _ => (ends_ofOutcome o).imp fun _ _ h => h.1

lemma Tends.bind (hx : Tends x) (hf : ∀ a, Tends (f a)) : Tends (x >>= f) :=
  fun s => (hx s).bind fun a => (hf a).after s

lemma Tends.tryCatch {h : Fault → Work α} (hx : Tends x) (hh : ∀ e, Tends (h e)) :
    Tends (tryCatch x h) :=
  fun s => (hx s).tryCatch fun e => (hh e).after s

lemma Tends.discard (hx : Tends x) : Tends (discard x) := fun s => (hx s).discard

lemma Tends.orElse (hx : Tends x) (b : α) : Tends (orElse x b) :=
  hx.tryCatch fun _ => tends_pure b

lemma Tends.attempt (hx : Tends x) : Tends (attempt x) :=
  Tends.orElse (fun s => (hx s).map (Q := fun _ => Tended s)) none

end

/-! ## Rows that jobs write -/

namespace Reviews

variable (id : Value)

lemma tended_write {f : Review → Outcome Review}
    (hf : ∀ r r', f r = .ok r' → r.SameTies r') (id : Value) :
    Ends (At s) (write id f) (fun _ => Tended s) (Lasts s) := by
  refine (ends_write hf id).imp ?_
  rintro _ d ⟨rows, hd, hrows⟩
  exact ⟨_, hd, { Upkeep.refl s with reviews := hrows.kept .refl }⟩

lemma tends_setStatus (status : ReviewStatus) : Tends (setStatus id status) := by
  intro s
  refine Ends.succeeds (ends_now.bind fun t => tended_write (fun r r' h => ?_) id) fun _ => .refl
  cases h
  cases status <;> exact ⟨rfl, rfl, rfl⟩

lemma tends_setFileCounts (total analyzed : Value) : Tends (setFileCounts id total analyzed) := by
  intro s
  refine Ends.succeeds ((ends_value _).bind fun _ => (ends_value _).bind fun _ =>
    tended_write (fun r r' h => ?_) id) fun _ => .refl
  cases h
  exact ⟨rfl, rfl, rfl⟩

lemma tends_setSummary (summary recommendations : Value) :
    Tends (setSummary id summary recommendations) := by
  intro s
  refine Ends.succeeds ((ends_value _).bind fun _ => tended_write (fun r r' h => ?_) id)
    fun _ => .refl
  cases h
  exact ⟨rfl, rfl, rfl⟩

lemma tends_setResults (metrics total : Value) : Tends (setResults id metrics total) := by
  intro s
  refine Ends.succeeds ?_ fun _ => .refl
  cases metrics with
  | object fs =>
    refine Ends.bind (R := fun _ => At s) (ends_pure fun d hd => hd) fun fs => ?_
    refine Ends.bind (ends_forIn fun c _ => ?_) fun _ => tended_write (fun r r' h => ?_) id
    · exact (ends_value _).discard.bind fun _ => ends_pure fun d hd => ⟨hd, rfl⟩
    · exact Review.setAll_ties h fun c hc => resultColumns_free hc
  | _ => exact ends_throw fun d hd => hd.lasting

end Reviews

lemma Issues.tends_create (review issue : Value) : Tends (Issues.create review issue) := by
  intro s
  refine (Issues.ends_made review issue).mono ?_ fun _ _ => .refl
  rintro i d ⟨hd, _, _, _, _, hj⟩
  have hid : i.id = nextId (s.issues.map (·.id)) := (Issue.ofFields_ties hj).1
  have hfresh : i.id ∉ s.issues.map (·.id) := hid ▸ nextId_notMem _
  refine ⟨_, hd, { Upkeep.refl s with
    issues := ⟨[i], rfl, forall_mem_singleton.mpr hfresh⟩
    numbers := fun h => nodup_snoc h hfresh }⟩

lemma tended_write {f : Repository → Outcome Repository}
    (hf : ∀ p p', f p = .ok p' → p.SameTies p') (id : Value) :
    Ends (At s) (Repositories.write id f) (fun _ => Tended s) (Lasts s) := by
  refine (ends_write hf id).imp ?_
  rintro _ d ⟨rows, hd, hrows⟩
  exact ⟨_, hd, { Upkeep.refl s with repositories := hrows.kept .refl }⟩

lemma tends_setFigures (id figures : Value) : Tends (Repositories.setFigures id figures) := by
  intro s
  refine Ends.succeeds ?_ fun _ => .refl
  cases figures with
  | object fs =>
    refine (ends_value _).bind fun size => (ends_value _).bind fun language => ?_
    refine ends_now.bind fun t => tended_write (fun p p' h => ?_) id
    cases h
    exact ⟨rfl, rfl⟩
  | _ => exact ends_throw fun d hd => hd.lasting

/-! ## Jobs -/

namespace Jobs

variable (c : Checkout) (o : AnalysisOrder)

lemma tends_tell (state : String) (details : Fields) : Tends (tell state details) :=
  .of_quiet fun _ _ hd => ⟨hd.store, hd.lasting⟩

lemma tends_storeIssues (review : Value) (found : List Analysis.Issue) :
    Tends (storeIssues review found) := by
  induction found with
  | nil => exact tends_pure _
  | cons i found ih =>
    refine (Issues.tends_create review _).attempt.bind fun row => ?_
    cases row with
    | none => exact tends_pure _
    | some row => exact ih.bind fun _ => tends_pure _

lemma tends_analyzeFile (project : Analysis.Project)
    (total : Nat) (t : Tally) (index : Nat) (path : Value) :
    Tends (analyzeFile c o project total t index path) := by
  refine (tends_tell _ _).bind fun _ => ?_
  split
  · exact tends_pure t
  · refine (tends_storeIssues _ _).bind fun stored => ?_
    obtain ⟨rows, all⟩ := stored
    cases all with
    | true => exact (tends_setFileCounts _ _ _).discard.bind fun _ => tends_pure _
    | false => exact tends_pure _

lemma tends_analyzeFiles (project : Analysis.Project)
    (total : Nat) (t : Tally) (index : Nat) (files : List Value) :
    Tends (analyzeFiles c o project total t index files) := by
  induction files generalizing t index with
  | nil => exact tends_pure t
  | cons path files ih =>
    exact (tends_analyzeFile c o project total t index path).bind fun t' => ih t' (index + 1)

lemma tends_success (result : Fields) : Tends (success result) :=
  (tends_tell _ _).bind fun _ => tends_pure result

lemma Tends.failing {x : Work Fields} (hx : Tends x) : Tends (failing x) :=
  hx.tryCatch fun fault => (tends_tell _ _).bind fun _ => tends_throw fault

lemma tends_analysis : Tends (analysis c o) := by
  have hfound {α : Type} (q : Store → Outcome (Option α)) : Tends (orElse (query q) none) :=
    .of_quiet fun _ => (ends_found q).imp fun _ _ h => h.1
  refine (hfound _).bind fun review => (hfound _).bind fun p => ?_
  cases review with
  | none => exact tends_throw _
  | some r =>
    cases p with
    | none => exact tends_throw _
    | some p =>
      refine (tends_setStatus _ _).discard.bind fun _ => (tends_tell _ _).bind fun _ => ?_
      refine (tends_ofOutcome _).bind fun _ => (tends_tell _ _).bind fun _ => ?_
      refine (tends_ofOutcome _).bind fun files => ?_
      refine (tends_setFileCounts _ _ _).discard.bind fun _ => ?_
      refine (tends_analyzeFiles _ _ _ _ _ _ _).bind fun t => (tends_tell _ _).bind fun _ => ?_
      refine (tends_setResults _ _ _).discard.bind fun _ => (tends_tell _ _).bind fun _ => ?_
      exact (tends_setStatus _ _).discard.bind fun _ => tends_success _

lemma tends_analyzeChanges : Tends (analyzeChanges c o) := by
  refine Tends.failing ((tends_tell _ _).bind fun _ => (tends_analysis c o).tryCatch fun fault => ?_)
  exact (tends_setStatus _ _).discard.bind fun _ => tends_throw fault

lemma tends_summarize (review : Value) : Tends (summarize review) := by
  have hfind : Tends (Reviews.findDetailed review .null) :=
    .of_quiet fun _ => (ends_found _).imp fun _ _ h => h.1
  have hget : Tends (get : Work Desk) := .of_quiet fun _ _ h => h
  refine Tends.failing ((tends_tell _ _).bind fun _ => hfind.bind fun found => ?_)
  cases found with
  | none => exact tends_throw _
  | some a =>
    refine (tends_tell _ _).bind fun _ => hget.bind fun _ => (tends_ofOutcome _).bind fun _ => ?_
    refine (tends_tell _ _).bind fun _ => (tends_ofOutcome _).bind fun _ => ?_
    exact (tends_setSummary _ _ _).discard.bind fun _ => tends_success _

lemma tends_setUp (repository : Value) : Tends (setUp c repository) := by
  have hfind : Tends (Repositories.find repository) :=
    .of_quiet fun _ => (ends_found _).imp fun _ _ h => h.1
  refine hfind.bind fun found => ?_
  cases found with
  | none => exact tends_throw _
  | some p =>
    refine (tends_tell _ _).bind fun _ => (tends_ofOutcome _).bind fun _ => ?_
    refine (tends_tell _ _).bind fun _ => ?_
    exact (tends_setFigures _ _).discard.bind fun _ => tends_pure _

end Jobs

open List Work Store

/-! ## Steps -/

/-- A request of a user, at a desk that may fail in any way. -/
structure Visit where
  user : User
  positive : 0 < user.id
  call : Api.Call
  desk : Desk

inductive Task where
  | analyze (c : Jobs.Checkout) (o : Jobs.AnalysisOrder)
  | summarize (review : Value)
  | setUp (c : Jobs.Checkout) (repository : Value)

def Task.work : Task → Work Fields
  | .analyze c o => Jobs.analyzeChanges c o
  | .summarize review => Jobs.summarize review
  | .setUp c repository => Jobs.setUp c repository

inductive Step where
  | visit (v : Visit)
  | task (t : Task) (desk : Desk)

/-- What a request shows, if it succeeds, and the desk after it. -/
def Visit.run (v : Visit) (s : Store) : Outcome (List Item) × Desk :=
  Work.run (v.call.work v.user) (v.desk.holding s)

def Step.result (s : Store) : Step → Store
  | .visit v => (v.run s).2.lasting
  | .task t desk => (Work.run t.work (desk.holding s)).2.lasting

lemma Task.tends_work (t : Task) : Tends t.work := by
  cases t with
  | analyze c o => exact Jobs.tends_analyzeChanges c o
  | summarize review => exact Jobs.tends_summarize review
  | setUp c repository => exact Jobs.tends_setUp c repository

/-- A request has an effect, and shows what its user could reach or what it made. -/
lemma Visit.effect (v : Visit) (hs : s.Whole) :
    ∃ made, Effect v.user.id s (v.run s).2.lasting made ∧
      ∀ items, (v.run s).1 = .ok items → ∀ x ∈ items, s.Reach v.user.id x ∨ x ∈ made := by
  have h := Api.ends_call hs v.user v.positive v.call (v.desk.holding s) (v.desk.holding_at s)
  show ∃ made, Effect v.user.id s (Work.run (v.call.work v.user) (v.desk.holding s)).2.lasting made ∧
    ∀ items, (Work.run (v.call.work v.user) (v.desk.holding s)).1 = .ok items → _
  revert h
  rcases Work.run (v.call.work v.user) (v.desk.holding s) with ⟨_ | items, d⟩
  · rintro ⟨s', made, hd, heffect, _⟩
    exact ⟨made, hd.lasting ▸ heffect, fun items h => by cases h⟩
  · rintro ⟨s', made, hd, heffect, hshown⟩
    refine ⟨made, hd.lasting ▸ heffect, fun items' h => ?_⟩
    cases h
    exact hshown

lemma Task.upkeep (t : Task) (desk : Desk) (s : Store) :
    Upkeep s (Step.result s (.task t desk)) := by
  have h := t.tends_work s (desk.holding s) (desk.holding_at s)
  show Upkeep s (Work.run t.work (desk.holding s)).2.lasting
  revert h
  rcases Work.run t.work (desk.holding s) with ⟨_ | fs, d⟩
  · rintro ⟨s', hd, hupkeep⟩
    exact hd.lasting ▸ hupkeep
  · rintro ⟨s', hd, hupkeep⟩
    exact hd.lasting ▸ hupkeep

/-! ## Tables after a step -/

/-- A row is an old one with its ties, or it has a new number. -/
structure Follows (s s' : Store) : Prop where
  repositories : ∀ p' ∈ s'.repositories, (∃ p ∈ s.repositories, p.SameTies p') ∨
    p'.id ∉ s.repositories.map (·.id) ∧ ∃ u, p'.ownerId = .int u
  reviews : ∀ r' ∈ s'.reviews, (∃ r ∈ s.reviews, r.SameTies r') ∨
    r'.id = nextId (s.reviews.map (·.id)) ∧
      ∃ u, r'.authorId = .int u ∧ s.Owns u r'.repositoryId
  issues : ∀ i' ∈ s'.issues, (∃ i ∈ s.issues, i.SameTies i') ∨ i'.id ∉ s.issues.map (·.id)
  comments : ∀ c' ∈ s'.comments, c' ∈ s.comments ∨
    c'.id ∉ s.comments.map (·.id) ∧ ∃ n, c'.reviewId = .int n
  keyed : s.Keyed → s'.Keyed

lemma Follows.refl (s : Store) : Follows s s where
  repositories p hp := .inl ⟨p, hp, .refl p⟩
  reviews r hr := .inl ⟨r, hr, .refl r⟩
  issues i hi := .inl ⟨i, hi, rfl, rfl⟩
  comments _ hc := .inl hc
  keyed := id

lemma nodup_filter {α : Type} {key : α → Int} {rows : List α} (h : (rows.map key).Nodup)
    (picks : α → Bool) : ((rows.filter picks).map key).Nodup :=
  h.sublist (filter_sublist.map key)

lemma Store.Effect.follows (h : Effect u s s' made) : Follows s s' := by
  cases h with
  | nothing => exact .refl s
  | connect p hid howner hu =>
    have hfresh : p.id ∉ s.repositories.map (·.id) := hid ▸ nextId_notMem _
    refine { Follows.refl s with repositories := fun p' hp' => ?_, keyed := fun hk => ?_ }
    · rcases mem_append.mp hp' with hp' | hp'
      · exact .inl ⟨p', hp', .refl p'⟩
      · rw [mem_singleton.mp hp']
        exact .inr ⟨hfresh, u, howner⟩
    · exact { hk with repositories := nodup_snoc hk.repositories hfresh }
  | disconnect n h =>
    refine { Follows.refl s with repositories := fun p' hp' => ?_, keyed := fun hk => ?_ }
    · exact .inl ⟨p', (mem_filter.mp hp').1, .refl p'⟩
    · exact { hk with repositories := nodup_filter hk.repositories _ }
  | addReview r hid hauthor h hu =>
    refine { Follows.refl s with reviews := fun r' hr' => ?_, keyed := fun hk => ?_ }
    · rcases mem_append.mp hr' with hr' | hr'
      · exact .inl ⟨r', hr', .refl r'⟩
      · rw [mem_singleton.mp hr']
        exact .inr ⟨hid, u, hauthor, h⟩
    · exact { hk with reviews := nodup_snoc hk.reviews (hid ▸ nextId_notMem _) }
  | editReview n h rows hrows =>
    have hties := hrows.kept .refl
    refine { Follows.refl s with reviews := fun r' hr' => ?_, keyed := fun hk => ?_ }
    · exact .inl (hties.of_mem hr')
    · exact { hk with reviews := hties.map_eq (fun _ _ h => h.id) ▸ hk.reviews }
  | dropReview n h =>
    refine { Follows.refl s with reviews := fun r' hr' => ?_, keyed := fun hk => ?_ }
    · exact .inl ⟨r', (mem_filter.mp hr').1, .refl r'⟩
    · exact { hk with reviews := nodup_filter hk.reviews _ }
  | editIssue i hi h rows hrows =>
    have hties := hrows.kept fun _ => ⟨rfl, rfl⟩
    refine { Follows.refl s with issues := fun i' hi' => ?_, keyed := fun hk => ?_ }
    · exact .inl (hties.of_mem hi')
    · exact { hk with issues := hties.map_eq (fun _ _ h => h.1) ▸ hk.issues }
  | addComment c n hid hreview h =>
    have hfresh : c.id ∉ s.comments.map (·.id) := hid ▸ nextId_notMem _
    refine { Follows.refl s with comments := fun c' hc' => ?_, keyed := fun hk => ?_ }
    · rcases mem_append.mp hc' with hc' | hc'
      · exact .inl hc'
      · rw [mem_singleton.mp hc']
        exact .inr ⟨hfresh, n, hreview⟩
    · exact { hk with comments := nodup_snoc hk.comments hfresh }

lemma Upkeep.follows (h : Upkeep s s') : Follows s s' where
  repositories _ hp' := .inl (h.repositories.of_mem hp')
  reviews _ hr' := .inl (h.reviews.of_mem hr')
  issues i' hi' := by
    obtain ⟨new, hnew, hfresh⟩ := h.issues
    rw [hnew] at hi'
    rcases mem_append.mp hi' with hi' | hi'
    · exact .inl ⟨i', hi', rfl, rfl⟩
    · exact .inr (hfresh i' hi')
  comments c' hc' := .inl (h.comments ▸ hc')
  keyed hk :=
    { repositories := h.repositories.map_eq (fun _ _ h => h.id) ▸ hk.repositories
      reviews := h.reviews.map_eq (fun _ _ h => h.id) ▸ hk.reviews
      issues := h.numbers hk.issues
      comments := h.comments ▸ hk.comments }

lemma Step.follows (x : Step) (hs : s.Whole) : Follows s (x.result s) := by
  cases x with
  | visit v =>
    obtain ⟨made, heffect, _⟩ := v.effect hs
    exact heffect.follows
  | task t desk => exact (t.upkeep desk s).follows

/-- What holds of the store after a number of steps. -/
structure Orderly (k : Nat) (s : Store) : Prop where
  whole : s.Whole
  keyed : s.Keyed
  bounded : ∀ r ∈ s.reviews, r.id ≤ k

lemma Orderly.follows (h : Orderly k s) (hs' : Follows s s') : Orderly (k + 1) s' where
  whole :=
    { owner := fun p' hp' => by
        rcases hs'.repositories p' hp' with ⟨p, hp, hties⟩ | ⟨_, howner⟩
        · exact hties.owner ▸ h.whole.owner p hp
        · exact howner
      comment := fun c' hc' => by
        rcases hs'.comments c' hc' with hc | ⟨_, hreview⟩
        · exact h.whole.comment c' hc
        · exact hreview
      positive := fun r' hr' => by
        rcases hs'.reviews r' hr' with ⟨r, hr, hties⟩ | ⟨hid, _⟩
        · exact hties.id ▸ h.whole.positive r hr
        · exact hid ▸ nextId_pos _ }
  keyed := hs'.keyed h.keyed
  bounded r' hr' := by
    rcases hs'.reviews r' hr' with ⟨r, hr, hties⟩ | ⟨hid, _⟩
    · have hle := h.bounded r hr
      rw [hties.id]
      omega
    · rw [hid]
      exact nextId_le (Int.natCast_nonneg k) (forall_mem_map.mpr h.bounded)

/-! ## Who a row was filed for -/

def Store.authorOf (s : Store) (n : Int) : Option Figure :=
  (s.reviews.find? (·.id == n)).map (·.authorId)

lemma Store.authorOf_eq (hk : s.Keyed) (hr : r ∈ s.reviews) :
    s.authorOf r.id = some r.authorId := by
  rw [authorOf, find?_key hk.reviews hr, Option.map_some]

/-- The authors of the reviews that issues and comments were filed under, by their numbers. -/
structure Ledger where
  issue : Int → Option Figure := fun _ => none
  comment : Int → Option Figure := fun _ => none

namespace Ledger

variable {i : Issue} {c : Comment}

/-- What is filed under a review is filed for its author. -/
def filed (s : Store) : Figure → Option Figure
  | .int n => s.authorOf n
  | _ => none

/-- The ledger when one store follows another. A number that is in use keeps its entry. -/
def next (l : Ledger) (s s' : Store) : Ledger where
  issue n :=
    if n ∈ s.issues.map (·.id) then l.issue n
    else (s'.issues.find? (·.id == n)).bind fun i => filed s' (.int i.reviewId)
  comment n :=
    if n ∈ s.comments.map (·.id) then l.comment n
    else (s'.comments.find? (·.id == n)).bind fun c => filed s' c.reviewId

variable {l : Ledger}

lemma next_issue (hi : i ∈ s.issues) : (l.next s s').issue i.id = l.issue i.id :=
  if_pos (mem_map_of_mem hi)

lemma next_comment (hc : c ∈ s.comments) : (l.next s s').comment c.id = l.comment c.id :=
  if_pos (mem_map_of_mem hc)

lemma next_newIssue (hk : s'.Keyed) (hi : i ∈ s'.issues)
    (hnew : i.id ∉ s.issues.map (·.id)) : (l.next s s').issue i.id = s'.authorOf i.reviewId := by
  have hfind := find?_key hk.issues hi
  simp only [next, if_neg hnew, hfind, Option.bind_some, filed]

lemma next_newComment (hk : s'.Keyed) (hc : c ∈ s'.comments)
    (hnew : c.id ∉ s.comments.map (·.id)) : (l.next s s').comment c.id = filed s' c.reviewId := by
  have hfind := find?_key hk.comments hc
  simp only [next, if_neg hnew, hfind, Option.bind_some]

end Ledger

/-! ## Runs -/

structure Books where
  store : Store
  ledger : Ledger := {}

namespace Books

/-- The books of a desk with nothing but users. -/
def opened (users : List User) : Books := { store := { users } }

def next (b : Books) (s' : Store) : Books := ⟨s', b.ledger.next b.store s'⟩

def step (b : Books) (x : Step) : Books := b.next (x.result b.store)

end Books

lemma orderly_opened (users : List User) : Orderly 0 (Books.opened users).store where
  whole := ⟨fun _ hp => (nomatch hp), fun _ hc => (nomatch hc), fun _ hr => (nomatch hr)⟩
  keyed := ⟨.nil, .nil, .nil, .nil⟩
  bounded _ hr := nomatch hr

lemma Orderly.step (h : Orderly k b.store) (x : Step) : Orderly (k + 1) (b.step x).store :=
  h.follows (x.follows h.whole)

variable {ρ : List Step}

/-! ## Requests that keep to what is the user's -/

namespace Books

def owner (b : Books) : Item → Option Figure
  | .review n => b.store.authorOf n
  | .issue n => b.ledger.issue n
  | .comment n => b.ledger.comment n

/-- Something is another user's. -/
def Foreign (b : Books) (u : Int) (x : Item) : Prop := ∃ a, b.owner x = some a ∧ a ≠ .int u

end Books

/-- A request leaves all that is not its user's as it is and does not show any of it. -/
structure Respects (b : Books) (v : Visit) : Prop where
  reviews : ∀ r : Review, r.authorId ≠ .int v.user.id →
    (r ∈ (b.step (.visit v)).store.reviews ↔ r ∈ b.store.reviews)
  issues : ∀ i : Issue, (b.step (.visit v)).Foreign v.user.id (.issue i.id) →
    (i ∈ (b.step (.visit v)).store.issues ↔ i ∈ b.store.issues)
  comments : ∀ c : Comment, (b.step (.visit v)).Foreign v.user.id (.comment c.id) →
    (c ∈ (b.step (.visit v)).store.comments ↔ c ∈ b.store.comments)
  shown : ∀ items, (v.run b.store).1 = .ok items →
    ∀ x ∈ items, ¬(b.step (.visit v)).Foreign v.user.id x

/-- At no point of a run is there a request that gets at what is another user's. -/
def Isolated (b : Books) : List Step → Prop
  | [] => ∀ v, Respects b v
  | x :: ρ => (∀ v, Respects b v) ∧ Isolated (b.step x) ρ

/-- A new row takes a number that rows of another user refer to. -/
inductive Recycles (b b' : Books) : Prop
  | repository (p : Repository) (hp : p ∈ b'.store.repositories)
      (hnew : p.id ∉ b.store.repositories.map (·.id)) (r : Review) (hr : r ∈ b.store.reviews)
      (hid : p.id = r.repositoryId) (hother : r.authorId ≠ p.ownerId)
  | issue (r : Review) (hr : r ∈ b'.store.reviews) (hnew : r.id ∉ b.store.reviews.map (·.id))
      (i : Issue) (hi : i ∈ b.store.issues) (hid : r.id = i.reviewId) (a : Figure)
      (howner : b.ledger.issue i.id = some a) (hother : a ≠ r.authorId)
  | comment (r : Review) (hr : r ∈ b'.store.reviews) (hnew : r.id ∉ b.store.reviews.map (·.id))
      (c : Comment) (hc : c ∈ b.store.comments) (hid : c.reviewId = .int r.id) (a : Figure)
      (howner : b.ledger.comment c.id = some a) (hother : a ≠ r.authorId)

def NeverRecycles (b : Books) : List Step → Prop
  | [] => True
  | x :: ρ => ¬Recycles b (b.step x) ∧ NeverRecycles (b.step x) ρ

/-! ## Rows that refer to their own -/

/-- Whatever refers to a row by its number belongs to the same user as the row. -/
structure Apart (b : Books) : Prop where
  reviews : ∀ r ∈ b.store.reviews, ∀ p ∈ b.store.repositories, p.id = r.repositoryId →
    r.authorId = p.ownerId
  issues : ∀ i ∈ b.store.issues, ∀ r ∈ b.store.reviews, r.id = i.reviewId →
    ∀ a, b.ledger.issue i.id = some a → a = r.authorId
  comments : ∀ c ∈ b.store.comments, ∀ r ∈ b.store.reviews, c.reviewId = .int r.id →
    ∀ a, b.ledger.comment c.id = some a → a = r.authorId

lemma apart_opened (users : List User) : Apart (Books.opened users) where
  reviews _ hr := nomatch hr
  issues _ hi := nomatch hi
  comments _ hc := nomatch hc

section

variable (ho : Orderly k b.store) (ha : Apart b)
variable {x : Item}

include ho ha

/-- A step that does not recycle a number keeps rows referring to their own. A pair of rows of which
one is new is the only thing to look at. -/
lemma Apart.follows (hs' : Follows b.store s') (hnot : ¬Recycles b (b.next s')) :
    Apart (b.next s') where
  reviews r' hr' p' hp' hid := by
    rcases hs'.reviews r' hr' with ⟨r, hr, hrt⟩ | ⟨_, u, hauthor, q, hq, hqid, howner⟩
    · rw [hrt.repository] at hid
      rw [hrt.author]
      rcases hs'.repositories p' hp' with ⟨p, hp, hpt⟩ | ⟨hnew, _⟩
      · rw [hpt.id] at hid
        rw [hpt.owner]
        exact ha.reviews r hr p hp hid
      · by_contra hother
        exact hnot (.repository p' hp' hnew r hr hid hother)
    -- a new review was made for a repository of its author that was there before
    · rcases hs'.repositories p' hp' with ⟨p, hp, hpt⟩ | ⟨hnew, _⟩
      · have heq : q = p := eq_of_key ho.keyed.repositories hq hp (by rw [hqid, ← hid, hpt.id])
        rw [hauthor, hpt.owner, ← heq, howner]
      · exact absurd (hid ▸ hqid ▸ mem_map_of_mem hq) hnew
  issues i' hi' r' hr' hid a hfiled := by
    have hk := hs'.keyed ho.keyed
    rcases hs'.issues i' hi' with ⟨i, hi, hit⟩ | hnew
    · have hkept : b.ledger.issue i.id = some a := by
        rw [← hfiled, hit.1]
        exact (Ledger.next_issue hi).symm
      rw [hit.2] at hid
      rcases hs'.reviews r' hr' with ⟨r, hr, hrt⟩ | ⟨hnext, _⟩
      · rw [hrt.author]
        exact ha.issues i hi r hr (hrt.id ▸ hid) a hkept
      · by_contra hother
        exact hnot (.issue r' hr' (hnext ▸ nextId_notMem _) i hi hid a hkept hother)
    · have hauthor : (b.next s').ledger.issue i'.id = some r'.authorId := by
        rw [← authorOf_eq hk hr', hid]
        exact Ledger.next_newIssue hk hi' hnew
      exact Option.some.inj (hfiled.symm.trans hauthor)
  comments c' hc' r' hr' hid a hfiled := by
    have hk := hs'.keyed ho.keyed
    rcases hs'.comments c' hc' with hc | ⟨hnew, _⟩
    · have hkept : b.ledger.comment c'.id = some a := by
        rw [← hfiled]
        exact (Ledger.next_comment hc).symm
      rcases hs'.reviews r' hr' with ⟨r, hr, hrt⟩ | ⟨hnext, _⟩
      · rw [hrt.author]
        exact ha.comments c' hc r hr (hrt.id ▸ hid) a hkept
      · by_contra hother
        exact hnot (.comment r' hr' (hnext ▸ nextId_notMem _) c' hc hid a hkept hother)
    · have hauthor : (b.next s').ledger.comment c'.id = some r'.authorId := by
        rw [← authorOf_eq hk hr']
        exact (Ledger.next_newComment hk hc' hnew).trans (by rw [hid]; rfl)
      exact Option.some.inj (hfiled.symm.trans hauthor)

lemma Apart.author {n : Int} (h : b.store.Mine u n) (hr : r ∈ b.store.reviews)
    (hid : r.id = n) : r.authorId = .int u := by
  obtain ⟨q, hq, hqid, p, hp, hpid, howner⟩ := h
  have heq : r = q := eq_of_key ho.keyed.reviews hr hq (hid.trans hqid.symm)
  rw [heq, ha.reviews q hq p hp hpid, howner]

/-- What a user can reach is nobody else's, also after a step. -/
lemma Apart.not_foreign (hs' : Follows b.store s') (h : b.store.Reach u x) :
    ¬(b.next s').Foreign u x := by
  rintro ⟨a, howner, hother⟩
  refine hother ?_
  cases x with
  | review n =>
    obtain ⟨r', hfind, rfl⟩ := Option.map_eq_some_iff.mp howner
    have hid : r'.id = n := by simpa using find?_some hfind
    rcases hs'.reviews r' (mem_of_find?_eq_some hfind) with ⟨r, hr, hrt⟩ | ⟨hnext, _⟩
    · rw [hrt.author]
      exact ha.author ho h hr (hrt.id ▸ hid)
    · obtain ⟨q, hq, hqid, _⟩ := h
      have hused : r'.id ∈ b.store.reviews.map (·.id) := hid ▸ hqid ▸ mem_map_of_mem hq
      exact absurd (hnext ▸ hused) (nextId_notMem _)
  | issue n =>
    obtain ⟨i, hi, rfl, hmine⟩ := h
    have hkept : b.ledger.issue i.id = some a := (Ledger.next_issue hi).symm.trans howner
    obtain ⟨r, hr, hid, _⟩ := id hmine
    rw [ha.issues i hi r hr hid a hkept]
    exact ha.author ho hmine hr hid
  | comment n =>
    obtain ⟨c, hc, rfl, m, hreview, hmine⟩ := h
    have hkept : b.ledger.comment c.id = some a := (Ledger.next_comment hc).symm.trans howner
    obtain ⟨r, hr, hid, _⟩ := id hmine
    rw [ha.comments c hc r hr (hid ▸ hreview) a hkept]
    exact ha.author ho hmine hr hid

/-! ## Requests at books where rows refer to their own -/

lemma Apart.not_foreign_of_made (h : Effect u b.store s' made)
    (hx : x ∈ made) : ¬(b.next s').Foreign u x := by
  have hk := h.follows.keyed ho.keyed
  rintro ⟨a, howner, hother⟩
  refine hother (Option.some.inj (howner.symm.trans ?_))
  cases h with
  | addReview r hid hauthor h hu =>
    rw [mem_singleton.mp hx, ← hauthor]
    exact authorOf_eq hk (mem_append_right _ (mem_singleton_self r))
  | addComment c n hid hreview h =>
    rw [mem_singleton.mp hx]
    obtain ⟨r, hr, hrid, _⟩ := id h
    have hfiled : Ledger.filed { b.store with comments := b.store.comments ++ [c] } c.reviewId =
        some r.authorId := by
      rw [hreview, ← hrid]
      exact authorOf_eq hk hr
    rw [← ha.author ho h hr hrid, ← hfiled]
    exact Ledger.next_newComment hk (mem_append_right _ (mem_singleton_self c))
      (hid ▸ nextId_notMem _)
  | _ => cases hx

lemma Apart.reviews_iff (h : Effect u b.store s' made)
    (hother : r.authorId ≠ .int u) : r ∈ s'.reviews ↔ r ∈ b.store.reviews := by
  cases h with
  | addReview q hid hauthor h hu =>
    refine ⟨fun hr => ?_, mem_append_left _⟩
    rcases mem_append.mp hr with hr | hr
    · exact hr
    · exact absurd (mem_singleton.mp hr ▸ hauthor) hother
  | editReview n h rows hrows =>
    constructor
    · intro hr
      obtain ⟨q, hq, heq | ⟨hid, hties⟩⟩ := hrows.of_mem hr
      · exact heq ▸ hq
      · exact absurd (hties.author.trans (ha.author ho h hq hid.eq)) hother
    · intro hr
      obtain ⟨q, hq, heq | ⟨hid, _⟩⟩ := hrows.mem hr
      · exact heq ▸ hq
      · exact absurd (ha.author ho h hr hid.eq) hother
  | dropReview n h =>
    refine ⟨fun hr => (mem_filter.mp hr).1, fun hr => mem_filter.mpr ⟨hr, ?_⟩⟩
    have hne : r.id ≠ n := fun hid => hother (ha.author ho h hr hid)
    simpa using hne
  | _ => exact Iff.rfl

lemma Apart.issues_iff (h : Effect u b.store s' made) {i : Issue}
    (hforeign : (b.next s').Foreign u (.issue i.id)) : i ∈ s'.issues ↔ i ∈ b.store.issues := by
  have hs' := h.follows
  cases h with
  | editIssue j hj h rows hrows =>
    have hne : i.id ≠ j.id := fun hid =>
      ha.not_foreign ho hs' (reach_issue hj h) (hid ▸ hforeign)
    constructor
    · intro hi
      obtain ⟨q, hq, heq | ⟨hid, hties⟩⟩ := hrows.of_mem hi
      · exact heq ▸ hq
      · exact absurd (hties.1.trans hid.eq) hne
    · intro hi
      obtain ⟨q, hq, heq | ⟨hid, _⟩⟩ := hrows.mem hi
      · exact heq ▸ hq
      · exact absurd hid.eq hne
  | _ => exact Iff.rfl

lemma Apart.comments_iff (h : Effect u b.store s' made) {c : Comment}
    (hforeign : (b.next s').Foreign u (.comment c.id)) :
    c ∈ s'.comments ↔ c ∈ b.store.comments := by
  have hmade := fun x (hx : x ∈ made) => ha.not_foreign_of_made ho h hx
  cases h with
  | addComment q n hid hreview h =>
    refine ⟨fun hc => ?_, mem_append_left _⟩
    rcases mem_append.mp hc with hc | hc
    · exact hc
    · have heq := mem_singleton.mp hc
      exact absurd (heq ▸ hforeign) (hmade _ (mem_singleton_self _))
  | _ => exact Iff.rfl

lemma Apart.respects (v : Visit) : Respects b v := by
  obtain ⟨made, heffect, hshown⟩ := v.effect ho.whole
  exact {
    reviews := fun r hr => ha.reviews_iff ho heffect hr
    issues := fun i hi => ha.issues_iff ho heffect hi
    comments := fun c hc => ha.comments_iff ho heffect hc
    shown := fun items hitems x hx => by
      rcases hshown items hitems x hx with hreach | hmade
      · exact ha.not_foreign ho heffect.follows hreach
      · exact ha.not_foreign_of_made ho heffect hmade }

end

/-! ## What a recycled number shows -/

def look (user : User) (hu : 0 < user.id) (n : Int) : Visit where
  user := user
  positive := hu
  call := .detailedReview n
  desk := { now := ⟨0⟩ }

section

variable (ho : Orderly k b.store) (hk : fits k) {user : User} (hu : 0 < user.id)
variable (hfits : fits user.id) (hr : r ∈ b.store.reviews) (h : b.store.Owns user.id r.repositoryId)

include ho hk hfits hr h

lemma run_look : ∃ d, (look user hu r.id).run b.store =
    (.ok (Api.itemsOf (Reviews.detailed b.store r)), d) ∧ d.lasting = b.store := by
  have hn : fits r.id := by
    have hpositive := ho.whole.positive r hr
    have hbounded := ho.bounded r hr
    simp only [fits, Bool.and_eq_true, decide_eq_true_eq] at hk ⊢
    omega
  have hfind : Gives (Reviews.findDetailed (.int r.id) (.int user.id)) ⟨0⟩ b.store
      (.ok (some (Reviews.detailed b.store r))) b.store := by
    refine Gives.orElse_ok (gives_query_ok ?_ _) none
    simp only [Value.truthy_int hu, ↓reduceIte, ownedReview_of_mine ho.whole ho.keyed hn hfits hr h]
    rfl
  have hshow : Gives (Api.detailedReview user (.int r.id)) ⟨0⟩ b.store
      (.ok (Reviews.detailed b.store r)) b.store := hfind.bind (gives_pure _ _ _)
  have hgives : Gives (Api.Call.work user (.detailedReview r.id)) ⟨0⟩ b.store
      (.ok (Api.itemsOf (Reviews.detailed b.store r))) b.store := hshow.bind (gives_pure _ _ _)
  obtain ⟨d, hrun, hcalm⟩ := hgives ((look user hu r.id).desk.holding b.store)
    ⟨fun _ => rfl, rfl, rfl, rfl, rfl⟩
  exact ⟨d, hrun, hcalm.lasting⟩

/-- A user who can look at a review and sees something of another user there. -/
lemma not_respects_look {x : Item} (hx : x ∈ Api.itemsOf (Reviews.detailed b.store r))
    (hforeign : b.Foreign user.id x) : ¬Respects b (look user hu r.id) := by
  obtain ⟨d, hrun, hlasting⟩ := run_look ho hk hu hfits hr h
  intro hrespects
  refine hrespects.shown _ (by rw [hrun]) x hx ?_
  have hstep : b.step (.visit (look user hu r.id)) = b.next b.store := by
    rw [Books.step, Step.result, hrun, hlasting]
  rw [hstep]
  obtain ⟨a, howner, hother⟩ := hforeign
  refine ⟨a, ?_, hother⟩
  rw [← howner]
  simp only [Api.itemsOf, mem_cons, mem_append, mem_map] at hx
  rcases hx with rfl | ⟨i, hi, rfl⟩ | ⟨c, hc, rfl⟩
  · rfl
  · exact Ledger.next_issue (mem_filter.mp hi).1
  · exact Ledger.next_comment (mem_filter.mp hc).1

end

lemma Store.Effect.new_repository
    (h : Effect u s s' made) {p : Repository} (hp : p ∈ s'.repositories)
    (hnew : p.id ∉ s.repositories.map (·.id)) :
    p.ownerId = .int u ∧ fits u ∧ s'.reviews = s.reviews := by
  have hold : p ∉ s.repositories := fun hp => hnew (mem_map_of_mem hp)
  cases h with
  | connect q hid howner hu =>
    rcases mem_append.mp hp with hp | hp
    · exact absurd hp hold
    · exact ⟨mem_singleton.mp hp ▸ howner, hu, rfl⟩
  | disconnect n h => exact absurd (mem_filter.mp hp).1 hold
  | _ => exact absurd hp hold

lemma Store.Effect.new_review (h : Effect u s s' made) (hr : r ∈ s'.reviews)
    (hnew : r.id ∉ s.reviews.map (·.id)) :
    r.authorId = .int u ∧ fits u ∧ s'.Owns u r.repositoryId ∧ s'.issues = s.issues ∧
      s'.comments = s.comments := by
  have hold : r ∉ s.reviews := fun hr => hnew (mem_map_of_mem hr)
  cases h with
  | addReview q hid hauthor h hu =>
    rcases mem_append.mp hr with hr | hr
    · exact absurd hr hold
    · rw [mem_singleton.mp hr]
      exact ⟨hauthor, hu, h, rfl, rfl⟩
  | editReview n h rows hrows =>
    obtain ⟨q, hq, heq | ⟨_, hties⟩⟩ := hrows.of_mem hr
    · exact absurd (heq ▸ hq) hold
    · exact absurd (hties.id ▸ mem_map_of_mem hq) hnew
  | dropReview n h => exact absurd (mem_filter.mp hr).1 hold
  | _ => exact absurd hr hold

lemma Upkeep.not_recycles (h : Upkeep b.store s') : ¬Recycles b (b.next s') := by
  have hrepositories := h.repositories.map_eq fun _ _ h => h.id
  have hreviews := h.reviews.map_eq fun _ _ h => h.id
  rintro (⟨p, hp, hnew, _⟩ | ⟨r, hr, hnew, _⟩ | ⟨r, hr, hnew, _⟩)
  · exact hnew (hrepositories ▸ mem_map_of_mem hp)
  · exact hnew (hreviews ▸ mem_map_of_mem hr)
  · exact hnew (hreviews ▸ mem_map_of_mem hr)

/-- The user whose request recycles a number can look at what is another user's. -/
lemma Recycles.exists_look (ho : Orderly k b.store)
    (hk : fits (k + 1 : Nat)) {x : Step} (h : Recycles b (b.step x)) : ∃ v, ¬Respects (b.step x) v := by
  have ho' := ho.step x
  cases x with
  | task t desk => exact absurd h (t.upkeep desk b.store).not_recycles
  | visit v =>
    obtain ⟨made, heffect, _⟩ := v.effect ho.whole
    cases h with
    | repository p hp hnew r hr hid hother =>
      obtain ⟨howner, hu, hreviews⟩ := heffect.new_repository hp hnew
      have hr' : r ∈ (b.step (.visit v)).store.reviews := hreviews ▸ hr
      refine ⟨_, not_respects_look ho' hk v.positive hu hr' ⟨p, hp, hid, howner⟩
        (.head _) ⟨r.authorId, authorOf_eq ho'.keyed hr', howner ▸ hother⟩⟩
    | issue r hr hnew i hi hid a hfiled hother =>
      obtain ⟨hauthor, hu, howns, hissues, _⟩ := heffect.new_review hr hnew
      have hi' : i ∈ (b.step (.visit v)).store.issuesIn r.id :=
        mem_filter.mpr ⟨hissues ▸ hi, by simp [hid]⟩
      refine ⟨_, not_respects_look ho' hk v.positive hu hr howns (x := .issue i.id) ?_ ⟨a, ?_, ?_⟩⟩
      · exact mem_cons_of_mem _ (mem_append_left _ (mem_map_of_mem hi'))
      · exact (Ledger.next_issue hi).trans hfiled
      · exact hauthor ▸ hother
    | comment r hr hnew c hc hid a hfiled hother =>
      obtain ⟨hauthor, hu, howns, _, hcomments⟩ := heffect.new_review hr hnew
      have hc' : c ∈ (b.step (.visit v)).store.commentsOn r.id :=
        mem_filter.mpr ⟨hcomments ▸ hc, by simp [hid, figureIs_int]⟩
      refine ⟨_, not_respects_look ho' hk v.positive hu hr howns (x := .comment c.id) ?_ ⟨a, ?_, ?_⟩⟩
      · exact mem_cons_of_mem _ (mem_append_right _ (mem_map_of_mem hc'))
      · exact (Ledger.next_comment hc).trans hfiled
      · exact hauthor ▸ hother

/-! ## Whole runs -/

lemma Isolated.respects (h : Isolated b ρ) (v : Visit) : Respects b v := by
  cases ρ with
  | nil => exact h v
  | cons x ρ => exact h.1 v

lemma isolated_iff (ho : Orderly k b.store) (ha : Apart b)
    (hk : fits (k + ρ.length : Nat)) : Isolated b ρ ↔ NeverRecycles b ρ := by
  induction ρ generalizing k b with
  | nil => exact ⟨fun _ => trivial, fun _ => ha.respects ho⟩
  | cons x ρ ih =>
    have hlater : fits (k + 1 + ρ.length : Nat) := by
      rwa [length_cons, Nat.add_comm ρ.length, ← Nat.add_assoc] at hk
    have hnow : fits (k + 1 : Nat) := fits_ofNat_le hlater (Nat.le_add_right ..)
    have hrest (hnot : ¬Recycles b (b.step x)) :=
      ih (ho.step x) (ha.follows ho (x.follows ho.whole) hnot) hlater
    constructor
    · rintro ⟨_, hisolated⟩
      -- what the first step recycles can be looked at right after it
      have hnot : ¬Recycles b (b.step x) := fun hrecycles => by
        obtain ⟨v, hv⟩ := hrecycles.exists_look ho hnow
        exact hv (hisolated.respects v)
      exact ⟨hnot, (hrest hnot).mp hisolated⟩
    · rintro ⟨hnot, hnever⟩
      exact ⟨ha.respects ho, (hrest hnot).mpr hnever⟩

/-- From a desk with nothing but users, a run of requests and jobs keeps the reviews of all users
apart exactly if no step of it recycles a number that rows of another user refer to. -/
theorem isolated_iff_neverRecycles (users : List User) (ρ : List Step) (hρ : fits ρ.length) :
    Isolated (.opened users) ρ ↔ NeverRecycles (.opened users) ρ :=
  isolated_iff (orderly_opened users) (apart_opened users) (by rwa [Nat.zero_add])

def member (n : Int) (name : String) : User where
  id := n
  email := name
  username := name
  password := ""
  githubId := some name
  preferences := .object [("github_access_token", .text name)]
  createdAt := ⟨0⟩
  updatedAt := none

def described (n : Int) : Web.Reply :=
  .response { status := 200, json := some (.object
    [("id", .int n), ("name", .text "tool"), ("full_name", .text "tool"), ("description", .null),
     ("html_url", .text ""), ("clone_url", .text ""), ("default_branch", .text "main"),
     ("language", .null), ("private", .bool false), ("size", .int 3), ("created_at", .text ""),
     ("updated_at", .text ""), ("owner", .object [("login", .text ""), ("avatar_url", .text "")])]) }

def ann (call : Api.Call) : Step :=
  .visit { user := member 1 "ann", positive := by decide, call
           desk := { now := ⟨0⟩, wire := .ofReplies [described 71] } }

def bob (call : Api.Call) : Step :=
  .visit { user := member 2 "bob", positive := by decide, call
           desk := { now := ⟨0⟩, wire := .ofReplies [described 72] } }

def annAndBob : Books := .opened [member 1 "ann", member 2 "bob"]

def annReviews : List Step :=
  [ann (.connectById (.text "71")),
   ann (.createReview (.object [("repository_id", .int 1), ("title", .text "private notes")]))]

lemma not_recycles_of_unused {b' : Books}
    (h : (∀ p ∈ b'.store.repositories, ∀ r ∈ b.store.reviews, p.id = r.repositoryId →
      p.id ∈ b.store.repositories.map (·.id)) ∧ b.store.issues = [] ∧ b.store.comments = []) :
    ¬Recycles b b' := by
  obtain ⟨hp, hi, hc⟩ := h
  rintro (⟨p, hp', hnew, r, hr, hid, _⟩ | ⟨_, _, _, i, hi', _⟩ | ⟨_, _, _, c, hc', _⟩)
  · exact hnew (hp p hp' r hr hid)
  · rw [hi] at hi'
    cases hi'
  · rw [hc] at hc'
    cases hc'

/-- Users who share a desk stay apart, until one of them disconnects a repository that has a review
and the number of the repository goes to the other one. -/
theorem isolated_until_disconnected :
    Isolated annAndBob (annReviews ++ [bob (.connectById (.text "72"))]) ∧ ¬Isolated annAndBob
      (annReviews ++ [ann (.disconnectRepository 1), bob (.connectById (.text "72"))]) := by
  constructor
  · refine (isolated_iff_neverRecycles _ _ (by decide)).mpr ⟨?_, ?_, ?_, trivial⟩
    all_goals exact not_recycles_of_unused (by decide +kernel)
  · intro hisolated
    obtain ⟨_, _, _, hnot, _⟩ := (isolated_iff_neverRecycles _ _ (by decide)).mp hisolated
    let before := (annReviews ++ [ann (.disconnectRepository 1)]).foldl Books.step annAndBob
    let after := before.step (bob (.connectById (.text "72")))
    have hwhole : after.store.Whole :=
      (((((orderly_opened _).step _).step _).step _).step _).whole
    have hfound : ∃ p ∈ after.store.repositories, ∃ r ∈ before.store.reviews,
        p.id ∉ before.store.repositories.map (·.id) ∧ p.id = r.repositoryId ∧
        p.ownedBy (.int 2) = true ∧ figureIs r.authorId (.int 2) = false := by decide +kernel
    obtain ⟨p, hp, r, hr, hnew, hid, howned, hauthor⟩ := hfound
    have howner := (ownedBy_iff hwhole hp).mp howned
    refine hnot (.repository p hp hnew r hr hid fun hsame => ?_)
    rw [hsame, howner] at hauthor
    exact absurd hauthor (by decide)

end ReviewDesk
