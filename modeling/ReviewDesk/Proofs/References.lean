import ReviewDesk.Proofs.AccountWrites

/-!
# References between rows

Rows refer to others by their numbers. A row that is taken away leaves the rows that refer to it,
and only a review is made with a look at what it refers to. So all references resolve exactly as
long as those who make and take away rows are careful.
-/

namespace ReviewDesk

open List Outcome Work Store Value

inductive Table where
  | users
  | repositories
  | reviews
  | issues
  | comments
  deriving DecidableEq

/-- A column that refers to a row of a table. -/
structure Ref where
  table : Table
  cell : Figure

/-- A row that refers to others. -/
inductive Row where
  | repository (p : Repository)
  | review (r : Review)
  | issue (i : Issue)
  | comment (c : Comment)

/-- What a row refers to. Columns of a comment that are null refer to nothing; its author is never
null. -/
def Row.refs : Row → List Ref
  | repository p => [⟨.users, p.ownerId⟩]
  | review r => [⟨.repositories, .int r.repositoryId⟩, ⟨.users, r.authorId⟩]
  | issue i => [⟨.reviews, .int i.reviewId⟩]
  | comment c =>
    ⟨.users, c.authorId⟩ ::
      [⟨.reviews, c.reviewId⟩, ⟨.issues, ofInt? c.issueId⟩, ⟨.comments, ofInt? c.parentId⟩].filter
        (!·.cell.isNull)

namespace Store

variable (s : Store)

/-! ## Sound stores -/

def numbers : Table → List Int
  | .users => s.users.map (·.id)
  | .repositories => s.repositories.map (·.id)
  | .reviews => s.reviews.map (·.id)
  | .issues => s.issues.map (·.id)
  | .comments => s.comments.map (·.id)

def referrers : List Row :=
  s.repositories.map .repository ++ s.reviews.map .review ++ s.issues.map .issue ++
    s.comments.map .comment

/-- A reference is the number of a row, in the way that statements compare columns. -/
def Resolves (x : Ref) : Prop :=
  ∃ n ∈ s.numbers x.table, figureIs x.cell (.int n) = true

def Sound : Prop := ∀ row ∈ s.referrers, ∀ x ∈ row.refs, s.Resolves x

instance (s : Store) (x : Ref) : Decidable (s.Resolves x) :=
  inferInstanceAs (Decidable (∃ n ∈ s.numbers x.table, figureIs x.cell (.int n) = true))

instance (s : Store) : Decidable s.Sound :=
  inferInstanceAs (Decidable (∀ row ∈ s.referrers, ∀ x ∈ row.refs, s.Resolves x))

def push : Row → Store
  | .repository p => { s with repositories := s.repositories ++ [p] }
  | .review r => { s with reviews := s.reviews ++ [r] }
  | .issue i => { s with issues := s.issues ++ [i] }
  | .comment c => { s with comments := s.comments ++ [c] }

/-- What a new row refers to is there once the row is. A comment may name itself as the one that it
answers. -/
def Supports (row : Row) : Prop := ∀ x ∈ row.refs, (s.push row).Resolves x

/-- Nothing refers to the row that a value looks up. -/
def Unreferred (t : Table) (id : Value) : Prop :=
  ∀ row ∈ s.referrers, ∀ x ∈ row.refs, x.table = t → ∀ n, Names id n →
    figureIs x.cell (.int n) = false

section

variable {s s' : Store}
variable {n : Int} {id p : Value} {s₁ s₂ : Store}

lemma mem_referrers_push {row row' : Row} :
    row' ∈ (s.push row).referrers ↔ row' ∈ s.referrers ∨ row' = row := by
  cases row <;>
    simp only [push, referrers, map_append, map_cons, map_nil, mem_append,
      mem_singleton, or_assoc, or_comm, or_left_comm]

lemma numbers_push (row : Row) (t : Table) : s.numbers t ⊆ (s.push row).numbers t := by
  cases row <;> cases t <;> simp [numbers, push]

lemma Resolves.mono {x : Ref} (h : s.Resolves x)
    (hnumbers : s.numbers x.table ⊆ s'.numbers x.table) : s'.Resolves x := by
  obtain ⟨n, hn, hcell⟩ := h
  exact ⟨n, hnumbers hn, hcell⟩

/-- With a row more, it is what this row refers to that has to be there. -/
lemma sound_push_iff (hs : s.Sound) (row : Row) : (s.push row).Sound ↔ s.Supports row := by
  constructor
  · intro h
    exact h row (mem_referrers_push.mpr (.inr rfl))
  · intro h row' hrow' x hx
    rcases mem_referrers_push.mp hrow' with hold | rfl
    · exact (hs row' hold x hx).mono (numbers_push row x.table)
    · exact h x hx

lemma figureIs_unique {cell : Figure} {m : Int} (hm : figureIs cell (.int m) = true)
    (hn : figureIs cell (.int n) = true) : m = n := by
  have hm := same_int_of_symm (Bool.and_eq_true_iff.mp hm).2
  have hn := same_int_of_symm (Bool.and_eq_true_iff.mp hn).2
  exact same_int_unique hm hn

/-- When rows are taken away from a table, it is the references to these that must not be there. -/
lemma sound_drop_iff (hs : s.Sound) {t : Table} (hp : parameter id = .ok p)
    (hnumbers : s'.numbers t = (s.numbers t).filter (!intIs · p))
    (hother : ∀ t', t' ≠ t → s'.numbers t' = s.numbers t') (hrows : s'.referrers ⊆ s.referrers)
    (hkept : ∀ row ∈ s.referrers, (∃ x ∈ row.refs, x.table = t) → row ∈ s'.referrers) :
    s'.Sound ↔ s.Unreferred t id := by
  constructor
  · intro h row hrow x hx ht n hn
    obtain ⟨m, hm, hcell⟩ := h row (hkept row hrow ⟨x, hx, ht⟩) x hx
    rw [ht, hnumbers] at hm
    refine Bool.eq_false_iff.mpr fun hn' => ?_
    have hpicked := (mem_filter.mp hm).2
    rw [figureIs_unique hcell hn', (names_iff hp).mp hn] at hpicked
    cases hpicked
  · intro h row hrow x hx
    obtain ⟨n, hn, hcell⟩ := hs row (hrows hrow) x hx
    by_cases ht : x.table = t
    · have hfree : intIs n p = false := by
        refine Bool.eq_false_iff.mpr fun hn' => ?_
        rw [h row (hrows hrow) x hx ht n ((names_iff hp).mpr hn')] at hcell
        cases hcell
      refine ⟨n, ?_, hcell⟩
      rw [ht] at hn ⊢
      rw [hnumbers]
      exact mem_filter.mpr ⟨hn, by rw [hfree]; rfl⟩
    · exact ⟨n, hother x.table ht ▸ hn, hcell⟩

lemma sound_dropUser_iff (hs : s.Sound) (h : s.dropUser id = .ok s') :
    s'.Sound ↔ s.Unreferred .users id := by
  obtain ⟨p, hp, h⟩ := bind_eq_ok h
  cases h
  refine sound_drop_iff hs hp ?_ (fun t ht => ?_) (fun _ hrow => hrow) fun _ hrow _ => hrow
  · simp [numbers, filter_map, Function.comp_def]
  · cases t with
    | users => exact absurd rfl ht
    | repositories | reviews | issues | comments => rfl

lemma sound_dropRepository_iff (hs : s.Sound) (h : s.dropRepository id = .ok s') :
    s'.Sound ↔ s.Unreferred .repositories id := by
  obtain ⟨p, hp, h⟩ := bind_eq_ok h
  cases h
  refine sound_drop_iff hs hp ?_ (fun t ht => ?_) (fun row hrow => ?_) fun row hrow hrefs => ?_
  · simp [numbers, filter_map, Function.comp_def]
  · cases t with
    | repositories => exact absurd rfl ht
    | users | reviews | issues | comments => rfl
  · cases row with
    | repository q => simp_all [referrers]
    | review | issue | comment => simpa [referrers] using hrow
  · cases row with
    | repository q =>
      obtain ⟨x, hx, ht⟩ := hrefs
      rw [mem_singleton.mp hx] at ht
      cases ht
    | review | issue | comment => simpa [referrers] using hrow

lemma sound_dropReview_iff (hs : s.Sound) (h : s.dropReview id = .ok s') :
    s'.Sound ↔ s.Unreferred .reviews id := by
  obtain ⟨p, hp, h⟩ := bind_eq_ok h
  cases h
  refine sound_drop_iff hs hp ?_ (fun t ht => ?_) (fun row hrow => ?_) fun row hrow hrefs => ?_
  · simp [numbers, filter_map, Function.comp_def]
  · cases t with
    | reviews => exact absurd rfl ht
    | users | repositories | issues | comments => rfl
  · cases row with
    | review r => simp_all [referrers]
    | repository | issue | comment => simpa [referrers] using hrow
  · cases row with
    | review r =>
      obtain ⟨x, hx, ht⟩ := hrefs
      fin_cases hx <;> cases ht
    | repository | issue | comment => simpa [referrers] using hrow

lemma Names.of_same (hp : parameter id = .ok p) (h : same (.int n) id = true) : Names id n := by
  refine ⟨p, hp, ?_⟩
  cases id with
  | null | text | list | object => cases h
  | bool b =>
    cases hp
    rw [intIs_int]
    simpa [same, number?, Value.Number.compare?] using h
  | int m =>
    obtain ⟨_, rfl⟩ := parameter_int_ok hp
    rwa [intIs_int, ← same_int]
  | real x =>
    have hnan : x.isNaN = false := isNaN_of_place? (same_int_iff.mp h)
    cases hp
    rw [hnan]
    exact h

lemma supports_review (hs : s.Sound) {p : Repository} {r : Review} {author : Value}
    (hp : p ∈ s.repositories) (hid : Names id p.id)
    (hrepository : wholeColumn id = .ok (some r.repositoryId)) (hsame : author.same p.ownerId = true)
    (hauthor : integerColumn author = .ok r.authorId) : s.Supports (.review r) := by
  intro x hx
  fin_cases hx
  · refine ⟨p.id, mem_map_of_mem hp, ?_⟩
    rw [figureIs_int, hid.eq_of_wholeColumn hrepository, beq_self_eq_true]
  · have hrow : Row.repository p ∈ s.referrers := by simpa [referrers] using hp
    obtain ⟨n, hn, howner⟩ := hs _ hrow ⟨.users, p.ownerId⟩ (mem_singleton_self _)
    have howner := same_int_of_symm (Bool.and_eq_true_iff.mp howner).2
    have hauthor' := same_int_of_symm (same_int_of_same hsame howner)
    obtain ⟨q, hq, _⟩ := bind_eq_ok hauthor
    exact ⟨n, hn, figureIs_of_names hauthor (.of_same hq hauthor')⟩

structure MoreUsers (s s' : Store) : Prop where
  users : s.users.map (·.id) ⊆ s'.users.map (·.id)
  repositories : s'.repositories = s.repositories
  reviews : s'.reviews = s.reviews
  issues : s'.issues = s.issues
  comments : s'.comments = s.comments

lemma MoreUsers.refl (s : Store) : MoreUsers s s :=
  ⟨List.Subset.refl _, rfl, rfl, rfl, rfl⟩

lemma MoreUsers.sound (h : MoreUsers s s') (hs : s.Sound) : s'.Sound := by
  have hrows : s'.referrers = s.referrers := by
    simp only [referrers, h.repositories, h.reviews, h.issues, h.comments]
  have hnumbers : ∀ t, s.numbers t ⊆ s'.numbers t := by
    intro t
    cases t with
    | users => exact h.users
    | repositories => exact fun n hn => by rwa [numbers, h.repositories]
    | reviews => exact fun n hn => by rwa [numbers, h.reviews]
    | issues => exact fun n hn => by rwa [numbers, h.issues]
    | comments => exact fun n hn => by rwa [numbers, h.comments]
  intro row hrow x hx
  exact (hs row (hrows ▸ hrow) x hx).mono (hnumbers x.table)

lemma MoreUsers.addUser {make : Int → Outcome User} {u : User}
    (h : MoreUsers s s₁) (hs : s₁.addUser make = .ok (u, s₂)) : MoreUsers s s₂ := by
  obtain ⟨v, hv, hs⟩ := bind_eq_ok hs
  obtain ⟨_, _, hs⟩ := bind_eq_ok hs
  cases hs
  refine { h with users := fun n hn => ?_ }
  rw [map_append]
  exact mem_append_left _ (h.users hn)

lemma MoreUsers.changeUser {f : User → Outcome User}
    (hf : ∀ u u', f u = .ok u' → u'.id = u.id) (h : MoreUsers s s₁)
    (hs : s₁.changeUser id f = .ok s₂) : MoreUsers s s₂ := by
  obtain ⟨p, hp, hs⟩ := bind_eq_ok hs
  obtain ⟨users, husers, hs⟩ := bind_eq_ok hs
  obtain ⟨_, _, hs⟩ := bind_eq_ok hs
  cases hs
  have hids : users.map (·.id) = s₁.users.map (·.id) := by
    refine (changeWhere_kept husers).map_eq fun u u' hu => ?_
    rcases hu with rfl | ⟨_, hu⟩
    · rfl
    · exact hf u u' hu
  exact { h with users := hids ▸ h.users }

end

end Store

/-! ## Making and taking away rows -/

/-- A call that makes rows or takes them away. -/
inductive Write where
  | register (f : Filled)
  | signIn (v : Accounts.Visitor)
  | removeUser (id : Value)
  | connect (f : Filled) (owner : Value)
  | disconnect (id : Value)
  | createReview (f : Filled) (author : Value)
  | removeReview (id : Value)
  | createIssue (review issue : Value)
  | createComment (f : Filled) (author review : Value)

namespace Write

def work : Write → Work Unit
  | register f => discard (Accounts.register f)
  | signIn v => discard (Accounts.signIn v)
  | removeUser id => discard (Accounts.remove id)
  | connect f owner => discard (Repositories.connect f owner)
  | disconnect id => discard (Repositories.disconnect id)
  | createReview f author => discard (Reviews.create f author)
  | removeReview id => discard (Reviews.remove id)
  | createIssue review issue => discard (Issues.create review issue)
  | createComment f author review => discard (Comments.create f author review)

/-- What has to be seen to for references to resolve. A removal is careful if nothing refers to what
it takes away, and a repository, an issue or a comment is made with care if it refers to rows that
are there. New users and reviews need no care. -/
def Careful (d : Desk) (s : Store) : Write → Prop
  | register _ | signIn _ | createReview .. => True
  | removeUser id =>
    (run (Accounts.remove id) (d.holding s)).1 = .ok true → s.Unreferred .users id
  | disconnect id =>
    (run (Repositories.disconnect id) (d.holding s)).1 = .ok true → s.Unreferred .repositories id
  | removeReview id =>
    (run (Reviews.remove id) (d.holding s)).1 = .ok true → s.Unreferred .reviews id
  | connect f owner =>
    ∀ p, (run (Repositories.connect f owner) (d.holding s)).1 = .ok p → s.Supports (.repository p)
  | createIssue review issue =>
    ∀ i, (run (Issues.create review issue) (d.holding s)).1 = .ok i → s.Supports (.issue i)
  | createComment f author review =>
    ∀ c, (run (Comments.create f author review) (d.holding s)).1 = .ok c → s.Supports (.comment c)

end Write

section

variable {α : Type} {s : Store} {x : Work α}

lemma lasting_discard (x : Work α) (d : Desk) :
    (run (discard x) d).2.lasting = (run x d).2.lasting := by
  rw [run_discard]
  rcases run x d with ⟨_ | a, d'⟩ <;> rfl

/-- A removal that answers true has changed the store, any other one has not. -/
lemma run_removal (f : Store → Outcome Store) (d : Desk) (s : Store) :
    (run (succeeds do change f; commit) (d.holding s)).1 = .ok true ∧
        f s = .ok (run (succeeds do change f; commit) (d.holding s)).2.lasting ∨
      (run (succeeds do change f; commit) (d.holding s)).1 ≠ .ok true ∧
        (run (succeeds do change f; commit) (d.holding s)).2.lasting = s := by
  have hend := ends_removal f (d.holding s) (d.holding_at s)
  rcases hrun : run (succeeds do change f; commit) (d.holding s) with ⟨e | b, d'⟩ <;>
    rw [hrun] at hend
  · exact .inr ⟨nofun, hend.lasting⟩
  · rcases hend with ⟨rfl, s', hd, hs'⟩ | ⟨rfl, hd⟩
    · exact .inl ⟨rfl, hd.lasting ▸ hs'⟩
    · exact .inr ⟨nofun, hd.lasting⟩

variable (hs : s.Sound)

include hs

/-- A call that makes a row leaves a sound store if the store supports the row. -/
lemma sound_made_iff (row : α → Row)
    (hx : Ends (At s) x (fun a => At (s.push (row a))) (fun _ => At s)) (d : Desk) :
    (run (discard x) (d.holding s)).2.lasting.Sound ↔
      ∀ a, (run x (d.holding s)).1 = .ok a → s.Supports (row a) := by
  rw [lasting_discard]
  have hend := hx (d.holding s) (d.holding_at s)
  rcases hrun : run x (d.holding s) with ⟨e | a, d'⟩ <;> rw [hrun] at hend
  · rw [hend.lasting]
    exact iff_of_true hs fun a ha => by cases ha
  · rw [hend.lasting, sound_push_iff hs]
    refine ⟨fun h b hb => ?_, fun h => h a rfl⟩
    cases hb
    exact h

/-- A call that takes rows away, where `fine` is that nothing refers to them. -/
lemma sound_removed_iff {f : Store → Outcome Store} {fine : Prop}
    (hdrop : ∀ s', f s = .ok s' → (s'.Sound ↔ fine)) (d : Desk) :
    (run (discard (succeeds do change f; commit)) (d.holding s)).2.lasting.Sound ↔
      ((run (succeeds do change f; commit) (d.holding s)).1 = .ok true → fine) := by
  rw [lasting_discard]
  rcases run_removal f d s with ⟨htrue, hs'⟩ | ⟨hother, hsame⟩
  · rw [hdrop _ hs']
    exact ⟨fun h _ => h, fun h => h htrue⟩
  · rw [hsame]
    exact iff_of_true hs fun h => absurd h hother

end

namespace Write

variable {s : Store}

lemma sound_of_moreUsers {α : Type} {x : Work α} (hs : s.Sound)
    (hx : Ends (At s) x (fun _ d => MoreUsers s d.lasting) (fun _ d => MoreUsers s d.lasting))
    (d : Desk) : (run (discard x) (d.holding s)).2.lasting.Sound := by
  rw [lasting_discard]
  have hend := hx (d.holding s) (d.holding_at s)
  rcases hrun : run x (d.holding s) with ⟨e | a, d'⟩ <;> rw [hrun] at hend
  · exact hend.sound hs
  · exact hend.sound hs

lemma moreUsers_register (f : Filled) : Ends (At s) (Accounts.register f)
      (fun _ d => MoreUsers s d.lasting) (fun _ d => MoreUsers s d.lasting) := by
  refine (Accounts.at_register f).mono (fun u d ⟨t, h⟩ => ?_) fun _ d h => h ▸ .refl s
  exact (MoreUsers.refl s).addUser h

lemma moreUsers_visited {v : Accounts.Visitor} {s' : Store} {n : Int}
    (h : Accounts.Visited v s s' n) : MoreUsers s s' := by
  cases h with
  | joined h => exact (MoreUsers.refl s).addUser h
  | refreshed _ _ h =>
    refine (MoreUsers.refl s).changeUser (Accounts.stamped_id (fun _ _ hu => ?_) _) h
    exact (Accounts.refreshed_touched hu).1.id
  | linked _ _ h =>
    refine (MoreUsers.refl s).changeUser (Accounts.stamped_id (fun _ _ hu => ?_) _) h
    exact (Accounts.linked_row hu).1.id

lemma moreUsers_signIn (v : Accounts.Visitor) : Ends (At s) (Accounts.signIn v)
      (fun _ d => MoreUsers s d.lasting) (fun _ d => MoreUsers s d.lasting) := by
  refine ((Accounts.steady_signIn v).pre fun _ hd => hd.steady).mono ?_ ?_
  · exact fun _ d h => moreUsers_visited h.1
  · rintro _ d (h | ⟨_, _, n, h⟩)
    · exact h ▸ .refl s
    · exact moreUsers_visited h

lemma sound_result_iff (hs : s.Sound) (d : Desk) (w : Write) :
    (w.work.result d s).Sound ↔ w.Careful d s := by
  cases w with
  | register f => exact iff_of_true (sound_of_moreUsers hs (moreUsers_register f) d) trivial
  | signIn v => exact iff_of_true (sound_of_moreUsers hs (moreUsers_signIn v) d) trivial
  | removeUser id => exact sound_removed_iff hs (fun _ => sound_dropUser_iff hs) d
  | disconnect id => exact sound_removed_iff hs (fun _ => sound_dropRepository_iff hs) d
  | removeReview id => exact sound_removed_iff hs (fun _ => sound_dropReview_iff hs) d
  | connect f owner =>
    exact sound_made_iff hs .repository
      ((Repositories.ends_connectAs f owner).imp fun _ _ h => h.1) d
  | createIssue review issue =>
    exact sound_made_iff hs .issue ((Issues.ends_made review issue).imp fun _ _ h => h.1) d
  | createComment f author review =>
    exact sound_made_iff hs .comment
      ((Comments.ends_createAs f author review).imp fun _ _ h => h.1) d
  | createReview f author =>
    have hends := Reviews.ends_createAs f author (s := s)
    have hmade := sound_made_iff hs .review (hends.imp fun _ _ h => h.1) d
    refine iff_of_true (hmade.mpr fun r hr => ?_) trivial
    obtain ⟨_, _, hauthor, hrepository, p, hp, hid, hsame⟩ := hends.of_ok (d.holding_at s) hr
    exact supports_review hs hp hid hrepository hsame hauthor

end Write

/-! ## Runs -/

/-- The stores along a run, from the first to the last. -/
def states (s : Store) : List (Desk × Write) → List Store
  | [] => [s]
  | (d, w) :: steps => s :: states (w.work.result d s) steps

/-- Every step of a run is careful. -/
def CarefulRun (s : Store) : List (Desk × Write) → Prop
  | [] => True
  | (d, w) :: steps => w.Careful d s ∧ CarefulRun (w.work.result d s) steps

lemma sound_states_iff {s : Store} (hs : s.Sound) (steps : List (Desk × Write)) :
    (∀ t ∈ states s steps, t.Sound) ↔ CarefulRun s steps := by
  induction steps generalizing s with
  | nil => exact iff_of_true (fun t ht => mem_singleton.mp ht ▸ hs) trivial
  | cons step steps ih =>
    obtain ⟨d, w⟩ := step
    have hhead : w.work.result d s ∈ states (w.work.result d s) steps := by
      cases steps <;> exact mem_cons_self ..
    constructor
    · intro h
      have hrest := fun t ht => h t (.tail _ ht)
      have hnext : (w.work.result d s).Sound := hrest _ hhead
      exact ⟨(w.sound_result_iff hs d).mp hnext, (ih hnext).mp hrest⟩
    · rintro ⟨hcareful, hrest⟩ t ht
      have hnext : (w.work.result d s).Sound := (w.sound_result_iff hs d).mpr hcareful
      rcases mem_cons.mp ht with rfl | ht
      · exact hs
      · exact (ih hnext).mpr hrest t ht

lemma removeReview_keeps (d : Desk) (s : Store) (id : Value) :
    ((Write.removeReview id).work.result d s).issues = s.issues ∧
      ((Write.removeReview id).work.result d s).comments = s.comments := by
  rw [Work.result, Write.work, lasting_discard, Reviews.remove]
  rcases run_removal (dropReview id) d s with ⟨_, h⟩ | ⟨_, h⟩
  · obtain ⟨p, _, h⟩ := bind_eq_ok h
    rw [← Except.ok.inj h]
    exact ⟨rfl, rfl⟩
  · rw [h]
    exact ⟨rfl, rfl⟩

lemma disconnect_keeps (d : Desk) (s : Store) (id : Value) :
    ((Write.disconnect id).work.result d s).reviews = s.reviews := by
  rw [Work.result, Write.work, lasting_discard, Repositories.disconnect]
  rcases run_removal (dropRepository id) d s with ⟨_, h⟩ | ⟨_, h⟩
  · obtain ⟨p, _, h⟩ := bind_eq_ok h
    rw [← Except.ok.inj h]
  · rw [h]

/-- From an empty store, the references of all rows resolve at every point of a run exactly if every
step is careful. A removal does not see to it: the issues and comments of a review and the reviews of
a repository stay when the review or the repository is taken away. -/
theorem sound_iff_careful (steps : List (Desk × Write)) :
    ((∀ s ∈ states {} steps, s.Sound) ↔ CarefulRun {} steps) ∧
      ∀ (s : Store) (d : Desk) (id : Value),
        ((Write.removeReview id).work.result d s).issues = s.issues ∧
          ((Write.removeReview id).work.result d s).comments = s.comments ∧
          ((Write.disconnect id).work.result d s).reviews = s.reviews := by
  have hempty : Sound {} := fun row hrow => by cases hrow
  refine ⟨sound_states_iff hempty steps, fun s d id => ?_⟩
  have hkept := removeReview_keeps d s id
  exact ⟨hkept.1, hkept.2, disconnect_keeps d s id⟩

/-- A user connects a repository, a review of it is made and an issue is filed, and the review is
taken away. -/
def orphaningRun : List (Desk × Write) :=
  let d : Desk := { now := ⟨0⟩ }
  let user : Filled :=
    ⟨[("email", .text "ann@lab.org"), ("username", .text "ann"), ("password", .text "secret")], []⟩
  let repository : Filled :=
    ⟨[("name", .text "tool"), ("full_name", .text "ann/tool"), ("url", .text "u"),
      ("clone_url", .text "c"), ("provider", .text "github"), ("external_id", .text "7")], []⟩
  let review : Filled := ⟨[("title", .text "notes"), ("repository_id", .int 1)], []⟩
  let issue : Value := .object
    [("title", .text "t"), ("description", .text "d"), ("category", .text "style"),
     ("severity", .text "low"), ("file_path", .text "a.py"), ("line_start", .int 3)]
  [(d, .register user), (d, .connect repository (.int 1)), (d, .createReview review (.int 1)),
    (d, .createIssue (.int 1) issue), (d, .removeReview (.int 1))]

/-- All references resolve until the review is taken away, and then the one of its issue does not. -/
theorem issue_outlives_review :
    (states {} orphaningRun).map (fun s => decide s.Sound) = [true, true, true, true, true, false] ∧
      (states {} orphaningRun).map (·.numbers .reviews) = [[], [], [], [1], [1], []] ∧
      (states {} orphaningRun).map (·.issues.map (·.reviewId)) = [[], [], [], [], [1], [1]] ∧
      ¬CarefulRun {} orphaningRun := by
  have hsound : (states {} orphaningRun).map (fun s => decide s.Sound) =
      [true, true, true, true, true, false] := by decide +kernel
  refine ⟨hsound, by decide +kernel, by decide +kernel, fun hcareful => ?_⟩
  have hall := (sound_iff_careful orphaningRun).1.mpr hcareful
  have htrue : ∀ b ∈ (states {} orphaningRun).map (fun s => decide s.Sound), b = true := by
    simpa using hall
  rw [hsound] at htrue
  exact absurd (htrue false (by decide)) (by decide)

end ReviewDesk
