import ReviewDesk.Proofs.Comparison
import ReviewDesk.Repositories.Basic

/-!
# Columns of a row

Writing one column leaves the others as they are, and whether it succeeds does not depend on the row.
So the columns that tell what a row belongs to stay as they were made.
-/

namespace ReviewDesk

open List Outcome Store

variable {fs changes : Fields} {column : String} {i : Issue} {r : Review} {s : Store} {u n : Int}
variable {α : Type} {rows : List α}

namespace Fields

variable {key : String} {v : Value} {f : String × Value}

lemma mem_set (fs : Fields) (key : String) (v : Value) : (key, v) ∈ fs.set key v := by
  unfold set
  split
  · rename_i h
    obtain ⟨f, hf, hkey⟩ := any_eq_true.mp h
    exact mem_map.mpr ⟨f, hf, if_pos hkey⟩
  · exact mem_append_right _ (mem_singleton_self _)

lemma eq_of_mem_set (h : f ∈ fs.set key v) (hkey : f.1 = key) : f.2 = v := by
  unfold set at h
  split at h
  · obtain ⟨g, _, rfl⟩ := mem_map.mp h
    by_cases hg : (g.1 == key) = true
    · rw [if_pos hg]
    · rw [if_neg hg] at hkey
      exact absurd (beq_iff_eq.mpr hkey) hg
  · rename_i hnone
    rcases mem_append.mp h with h | h
    · have hhas : fs.has key = true := any_eq_true.mpr ⟨f, h, beq_iff_eq.mpr hkey⟩
      exact absurd hhas hnone
    · rw [mem_singleton.mp h]

lemma mem_of_mem_set (h : f ∈ fs.set key v) (hkey : f.1 ≠ key) : f ∈ fs := by
  unfold set at h
  split at h
  · obtain ⟨g, hg, rfl⟩ := mem_map.mp h
    split at hkey
    · exact absurd rfl hkey
    · rename_i hother
      rwa [if_neg hother]
  · rcases mem_append.mp h with h | h
    · exact h
    · exact absurd (congrArg Prod.fst (mem_singleton.mp h)) hkey

lemma get?_set_self (fs : Fields) (key : String) (v : Value) :
    get? (fs.set key v) key = some v := by
  have hfound : ((fs.set key v).find? (·.1 == key)).isSome :=
    find?_isSome.mpr ⟨_, mem_set fs key v, beq_self_eq_true key⟩
  obtain ⟨f, hf⟩ := Option.isSome_iff_exists.mp hfound
  have hkey : f.1 = key := by simpa using find?_some hf
  have hv := eq_of_mem_set (mem_of_find?_eq_some hf) hkey
  rw [get?, hf, Option.map_some, hv]

lemma get?_set_ne {key' : String} (h : key' ≠ key) (v : Value) :
    get? (fs.set key v) key' = get? fs key' := by
  have hmap : ∀ fs : Fields,
      get? (fs.map fun f => if f.1 == key then (key, v) else f) key' = get? fs key' := by
    intro fs
    induction fs with
    | nil => rfl
    | cons f fs ih =>
      simp only [get?, map_cons, find?_cons] at ih ⊢
      by_cases hf : f.1 = key
      · simp only [hf, beq_self_eq_true, ↓reduceIte, beq_eq_false_iff_ne.mpr (Ne.symm h)]
        exact ih
      · simp only [beq_eq_false_iff_ne.mpr hf, Bool.false_eq_true, ↓reduceIte]
        cases f.1 == key' with
        | true => rfl
        | false => exact ih
  unfold set
  split
  · exact hmap fs
  · simp [get?, find?_append, Ne.symm h]

end Fields

namespace Issue

variable {j : Issue} {v : Value} {now : Moment} {id : Int}

/-- A row with a number, made at a moment. -/
def stamped (id : Int) (t : Moment) (i : Issue) : Issue :=
  { i with id, createdAt := t, updatedAt := some t }

def clocked : List String := ["created_at", "updated_at"]

/-- What is left as it is when a column is written to two rows. -/
structure Written (column : String) (i j i' j' : Issue) : Prop where
  id : i'.id = i.id
  review : column ≠ "review_id" → i'.reviewId = i.reviewId
  file : column ≠ "file_path" → i'.filePath = i.filePath
  stamp : column ∉ clocked → ∀ id t, j = i.stamped id t → j' = i'.stamped id t

/-- Two rows that take a column alike: it is refused, or it is written to both. -/
def TakenAlike (column : String) (i j : Issue) (o o' : Outcome Issue) : Prop :=
  (∃ e, o = .error e ∧ o' = .error e) ∨
    ∃ i' j', o = .ok i' ∧ o' = .ok j' ∧ Written column i j i' j'

lemma takenAlike_bind {x : Outcome α}
    {k l : α → Outcome Issue} (h : ∀ a, TakenAlike column i j (k a) (l a)) :
    TakenAlike column i j (x >>= k) (x >>= l) := by
  cases x with
  | error e => exact .inl ⟨e, rfl, rfl⟩
  | ok a => exact h a

/-- Writing a column, said once for all columns. -/
lemma set_alike (i j : Issue) (column : String) (v : Value) :
    TakenAlike column i j (i.set column v) (j.set column v) := by
  unfold set
  split
  all_goals
    first
      | exact .inl ⟨_, rfl, rfl⟩
      | refine takenAlike_bind fun _ => .inr ⟨_, _, rfl, rfl, ?_⟩
      | refine takenAlike_bind fun _ => takenAlike_bind fun _ => .inr ⟨_, _, rfl, rfl, ?_⟩
  all_goals exact
    { id := rfl
      review := fun hc => by first | rfl | exact absurd rfl hc
      file := fun hc => by first | rfl | exact absurd rfl hc
      stamp := fun hc id t h => by first | (subst h; rfl) | exact absurd (by decide) hc }

lemma written_of_set (h : i.set column v = .ok j) : Written column i i j j := by
  rcases set_alike i i column v with ⟨e, he, _⟩ | ⟨i', j', hi, hj, hwritten⟩
  · rw [he] at h
    cases h
  · rw [h] at hi hj
    cases hi
    cases hj
    exact hwritten

/-- The columns that tie an issue to its place in the store. -/
def SameTies (i j : Issue) : Prop := j.id = i.id ∧ j.reviewId = i.reviewId

lemma set_ties (h : i.set column v = .ok j) (hc : column ≠ "review_id") : SameTies i j := by
  have hwritten := written_of_set h
  exact ⟨hwritten.id, hwritten.review hc⟩

lemma setAll_ties (h : i.setAll changes = .ok j)
    (hc : ∀ c ∈ changes, c.1 ≠ "review_id") : SameTies i j := by
  refine foldlM_keeps (P := SameTies i) h ⟨rfl, rfl⟩ fun c hmem k l hk hset => ?_
  have hties := set_ties hset (hc c hmem)
  exact ⟨hties.1.trans hk.1, hties.2.trans hk.2⟩

lemma set_isOk (i j : Issue) (column : String) (v : Value) :
    (i.set column v).isOk = (j.set column v).isOk := by
  rcases set_alike i j column v with ⟨e, hi, hj⟩ | ⟨i', j', hi, hj, _⟩
  · rw [hi, hj]
  · rw [hi, hj]
    rfl

lemma setAll_isOk (i j : Issue) (changes : Fields) :
    (i.setAll changes).isOk = (j.setAll changes).isOk := by
  induction changes generalizing i j with
  | nil => rfl
  | cons c changes ih =>
    have hset := set_isOk i j c.1 c.2
    show (i.set c.1 c.2 >>= (·.setAll changes)).isOk = (j.set c.1 c.2 >>= (·.setAll changes)).isOk
    rw [isOk_bind, isOk_bind]
    cases hi : i.set c.1 c.2 <;> cases hj : j.set c.1 c.2 <;> rw [hi, hj] at hset
    · cases hset
    · cases hset
    · exact ih _ _

lemma ofFields_isOk (now now' : Moment) (id id' : Int) (fs : Fields) :
    (Issue.ofFields now id fs).isOk = (Issue.ofFields now' id' fs).isOk := by
  unfold ofFields
  iterate 7 refine isOk_bind_congr _ fun _ => ?_
  exact setAll_isOk _ _ _

lemma set_stamped (hc : column ∉ clocked) (v : Value) (id : Int) (t : Moment)
    (i : Issue) : (i.stamped id t).set column v = (i.set column v).map (·.stamped id t) := by
  rcases set_alike i (i.stamped id t) column v with ⟨e, hi, hj⟩ | ⟨i', j', hi, hj, hwritten⟩
  · rw [hi, hj]
    rfl
  · rw [hi, hj, hwritten.stamp hc id t rfl]
    rfl

lemma setAll_stamped (hc : ∀ c ∈ changes, c.1 ∉ clocked) (id : Int) (t : Moment) (i : Issue) :
    (i.stamped id t).setAll changes = (i.setAll changes).map (·.stamped id t) := by
  induction changes generalizing i with
  | nil => rfl
  | cons c changes ih =>
    have hfirst := set_stamped (hc c (.head _)) c.2 id t i
    have hrest := ih fun c' hc' => hc c' (.tail _ hc')
    show ((i.stamped id t).set c.1 c.2 >>= (·.setAll changes)) =
      (i.set c.1 c.2 >>= (·.setAll changes)).map _
    rw [hfirst]
    cases i.set c.1 c.2 with
    | error e => rfl
    | ok j => exact hrest j

lemma ofFields_stamped (hfs : ∀ c ∈ fs, c.1 ∉ clocked) (id : Int) (t : Moment) :
    Issue.ofFields t id fs = (Issue.ofFields ⟨0⟩ 0 fs).map (·.stamped id t) := by
  unfold ofFields
  refine bind_eq_map _ fun title => bind_eq_map _ fun description => ?_
  refine bind_eq_map _ fun category => bind_eq_map _ fun severity => ?_
  refine bind_eq_map _ fun filePath => bind_eq_map _ fun lineStart => ?_
  refine bind_eq_map _ fun reviewId => ?_
  exact setAll_stamped (fun c hc => hfs c (mem_filter.mp (mem_filter.mp hc).1).1) id t
    { id := 0, title, description, category, severity, filePath, lineStart, reviewId
      createdAt := ⟨0⟩, updatedAt := some ⟨0⟩ }

lemma ofFields_ties (h : Issue.ofFields now id fs = .ok i) :
    i.id = id ∧ wholeColumn ((Fields.get? fs "review_id").getD .null) = .ok (some i.reviewId) ∧
      textColumn ((Fields.get? fs "file_path").getD .null) = .ok (some i.filePath) := by
  obtain ⟨title, _, h⟩ := bind_eq_ok h
  obtain ⟨description, _, h⟩ := bind_eq_ok h
  obtain ⟨category, _, h⟩ := bind_eq_ok h
  obtain ⟨severity, _, h⟩ := bind_eq_ok h
  obtain ⟨path, hpath, h⟩ := bind_eq_ok h
  obtain ⟨line, _, h⟩ := bind_eq_ok h
  obtain ⟨review, hreview, h⟩ := bind_eq_ok h
  obtain ⟨p, hp, hpath⟩ := bind_eq_ok hpath
  obtain ⟨n, hn, hreview⟩ := bind_eq_ok hreview
  have hfree : ∀ c ∈ (givenColumns [] fs).filter (fun f => !("id" :: needed).contains f.1),
      c.1 ∉ needed := by
    simp_all
  have hneeded {key : String} (hkey : key ∈ needed) := fun c hc (heq : c.1 = key) =>
    hfree c hc (heq ▸ hkey)
  obtain ⟨hid, hreviewId⟩ := setAll_ties h (hneeded (by decide))
  have hfile : i.filePath = path := foldlM_keeps (P := fun k => k.filePath = path) h rfl
    fun c hmem _ _ hk hset => ((written_of_set hset).file (hneeded (by decide) c hmem)).trans hk
  refine ⟨hid, ?_, ?_⟩
  · rw [hn, hreviewId, required_eq_ok hreview]
  · rw [hp, hfile, required_eq_ok hpath]

end Issue

namespace Review

variable {r' : Review} {v : Value}

/-- A row that was written and is still the same review, of the same repository and author. -/
structure SameTies (r r' : Review) : Prop where
  id : r'.id = r.id
  repository : r'.repositoryId = r.repositoryId
  author : r'.authorId = r.authorId

lemma SameTies.refl (r : Review) : SameTies r r := ⟨rfl, rfl, rfl⟩

lemma SameTies.trans {a b c : Review} (h : SameTies a b) (h' : SameTies b c) : SameTies a c :=
  ⟨h'.id.trans h.id, h'.repository.trans h.repository, h'.author.trans h.author⟩

/-- The columns that no request writes after a review was made. -/
def tied : List String := ["repository_id", "author_id"]

lemma set_ties (h : r.set column v = .ok r') (hc : column ∉ tied) : SameTies r r' := by
  unfold set at h
  split at h
  all_goals
    repeat obtain ⟨_, _, h⟩ := bind_eq_ok h
    cases h
  all_goals first | exact ⟨rfl, rfl, rfl⟩ | exact absurd (by decide) hc

lemma setAll_cons
    {o : Outcome Review} (h : r.set column v = .ok r') (hrest : r'.setAll changes = o) :
    r.setAll ((column, v) :: changes) = o := by
  rw [setAll, foldlM_cons, h]
  exact hrest

lemma setAll_ties (h : r.setAll changes = .ok r')
    (hc : ∀ c ∈ changes, c.1 ∉ tied) : SameTies r r' :=
  foldlM_keeps (P := SameTies r) h (.refl r) fun c hmem _ _ hq hset =>
    hq.trans (set_ties hset (hc c hmem))

lemma ofFields_ties {now : Moment} {id : Int}
    (h : Review.ofFields now id fs = .ok r) : r.id = id ∧
      wholeColumn ((Fields.get? fs "repository_id").getD .null) = .ok (some r.repositoryId) ∧
      integerColumn ((Fields.get? fs "author_id").getD .null) = .ok r.authorId := by
  obtain ⟨_, _, h⟩ := bind_eq_ok h
  obtain ⟨title, _, h⟩ := bind_eq_ok h
  obtain ⟨n, hn, h⟩ := bind_eq_ok h
  obtain ⟨repository, hrepository, h⟩ := bind_eq_ok h
  obtain ⟨v, hv, h⟩ := bind_eq_ok h
  obtain ⟨author, hauthor, h⟩ := bind_eq_ok h
  have hties := setAll_ties h (by
    intro c hc
    simp only [mem_filter, Bool.not_eq_true', contains_eq_mem] at hc
    intro htied
    simp only [tied, mem_cons, not_mem_nil, or_false] at htied
    rcases htied with heq | heq <;> simp [heq] at hc)
  refine ⟨hties.id, ?_, ?_⟩
  · rw [hn, hties.repository, required_eq_ok hrepository]
  · rw [hv, hties.author, requiredFigure_eq_ok hauthor]

end Review

namespace Comment

variable {c c' : Comment} {v : Value}

lemma set_review (h : c.set column v = .ok c') :
    c'.id = c.id ∧ (column ≠ "review_id" → c'.reviewId = c.reviewId) ∧
      (column = "review_id" → integerColumn v = .ok c'.reviewId) := by
  unfold set at h
  split at h
  all_goals
    repeat obtain ⟨_, hw, h⟩ := bind_eq_ok h
    cases h
  all_goals first
    | exact ⟨rfl, fun _ => rfl, fun heq => absurd heq (by decide)⟩
    | exact ⟨rfl, fun hne => absurd rfl hne, fun _ => hw⟩

lemma setAll_review
    (h : c.setAll changes = .ok c') (hv : ∀ x ∈ changes, x.1 = "review_id" → x.2 = v)
    (hc : integerColumn v = .ok c.reviewId ∨ ∃ x ∈ changes, x.1 = "review_id") :
    c'.id = c.id ∧ integerColumn v = .ok c'.reviewId := by
  induction changes generalizing c with
  | nil =>
    cases h
    exact ⟨rfl, hc.resolve_right fun ⟨_, hx, _⟩ => by cases hx⟩
  | cons x changes ih =>
    obtain ⟨b, hb, h⟩ := bind_eq_ok h
    obtain ⟨hid, hother, hreview⟩ := set_review hb
    have hb' : integerColumn v = .ok b.reviewId ∨ ∃ y ∈ changes, y.1 = "review_id" := by
      by_cases hx : x.1 = "review_id"
      · have hcolumn := hreview hx
        rw [hv x (.head _) hx] at hcolumn
        exact .inl hcolumn
      · rcases hc with hc | ⟨y, hy, hkey⟩
        · exact .inl (by rw [hother hx]; exact hc)
        · rcases mem_cons.mp hy with rfl | hy
          · exact absurd hkey hx
          · exact .inr ⟨y, hy, hkey⟩
    obtain ⟨hid', hreview'⟩ := ih h (fun y hy => hv y (.tail _ hy)) hb'
    exact ⟨hid'.trans hid, hreview'⟩

lemma ofFields_review {now : Moment} {id : Int} (hv : v.isNull = false)
    (h : Comment.ofFields now id (Fields.set fs "review_id" v) = .ok c) :
    c.id = id ∧ integerColumn v = .ok c.reviewId := by
  obtain ⟨_, _, h⟩ := bind_eq_ok h
  obtain ⟨content, _, h⟩ := bind_eq_ok h
  obtain ⟨_, _, h⟩ := bind_eq_ok h
  obtain ⟨author, _, h⟩ := bind_eq_ok h
  refine setAll_review h ?_ (.inr ⟨("review_id", v), ?_, rfl⟩)
  · intro x hx hkey
    exact Fields.eq_of_mem_set (mem_filter.mp (mem_filter.mp hx).1).1 hkey
  · refine mem_filter.mpr ⟨mem_filter.mpr ⟨Fields.mem_set fs _ _, ?_⟩, ?_⟩
    · simp [hv]
    · rfl

end Comment

namespace Repository

/-- The columns that tie a repository to its place in the store. -/
structure SameTies (p p' : Repository) : Prop where
  id : p'.id = p.id
  owner : p'.ownerId = p.ownerId

lemma SameTies.refl (p : Repository) : SameTies p p := ⟨rfl, rfl⟩

lemma SameTies.trans {a b c : Repository} (h : SameTies a b) (h' : SameTies b c) : SameTies a c :=
  ⟨h'.id.trans h.id, h'.owner.trans h.owner⟩

lemma set_ties {p p' : Repository} {v : Value} (h : p.set column v = .ok p')
    (hc : column ≠ "owner_id") : SameTies p p' := by
  unfold set at h
  split at h
  all_goals
    repeat obtain ⟨_, _, h⟩ := bind_eq_ok h
    cases h
  all_goals first | exact ⟨rfl, rfl⟩ | exact absurd rfl hc

lemma setAll_ties {p p' : Repository} (h : p.setAll changes = .ok p')
    (hc : ∀ c ∈ changes, c.1 ≠ "owner_id") : SameTies p p' :=
  foldlM_keeps (P := SameTies p) h (.refl p) fun c hmem _ _ hq hset =>
    hq.trans (set_ties hset (hc c hmem))

end Repository

namespace Store

/-!
## What belongs to whom

A review belongs to the user who owns its repository, and issues and comments belong to whom their
review belongs to. Nothing of this is stored: it is looked up by numbers. `Effect` lists all that a
request of a user can do to the store, and `Reach` what it can show.
-/

/-- The owners of repositories and the reviews of comments are numbers, and no review is the
zeroth. -/
structure Whole (s : Store) : Prop where
  owner : ∀ p ∈ s.repositories, ∃ n, p.ownerId = .int n
  comment : ∀ c ∈ s.comments, ∃ n, c.reviewId = .int n
  positive : ∀ r ∈ s.reviews, 0 < r.id

/-- No two rows of a table have the same number. -/
structure Keyed (s : Store) : Prop where
  repositories : (s.repositories.map (·.id)).Nodup
  reviews : (s.reviews.map (·.id)).Nodup
  issues : (s.issues.map (·.id)).Nodup
  comments : (s.comments.map (·.id)).Nodup

/-- A user has connected the repository of a number. -/
def Owns (s : Store) (u n : Int) : Prop := ∃ p ∈ s.repositories, p.id = n ∧ p.ownerId = .int u

/-- The review of a number hangs off a repository of a user. -/
def Mine (s : Store) (u n : Int) : Prop := ∃ r ∈ s.reviews, r.id = n ∧ s.Owns u r.repositoryId

lemma Page.mem_of_take {page : Page} {r : α} (h : r ∈ page.take rows) : r ∈ rows := by
  unfold Page.take at h
  split at h
  · exact mem_of_mem_drop (mem_of_mem_take h)
  · exact mem_of_mem_drop h

section

variable (hs : s.Whole)
variable {p : Repository} {rs : List Review}

lemma repositoryById_names {id : Value}
    (h : s.repositoryById id = .ok (some p)) : p ∈ s.repositories ∧ Names id p.id := by
  obtain ⟨v, hv, h⟩ := bind_eq_ok h
  obtain ⟨hp, hid⟩ := mem_filter.mp (mem_of_one h)
  exact ⟨hp, v, hv, hid⟩

lemma issueById_some (h : s.issueById (.int n) = .ok (some i)) : i ∈ s.issues ∧ i.id = n := by
  obtain ⟨_, h⟩ := bind_parameter_int h
  obtain ⟨hi, hid⟩ := mem_filter.mp (mem_of_one h)
  exact ⟨hi, by simpa [intIs_int] using hid⟩

include hs

lemma ownedBy_iff (hp : p ∈ s.repositories) : p.ownedBy (.int u) = true ↔ p.ownerId = .int u := by
  obtain ⟨m, hm⟩ := hs.owner p hp
  rw [Repository.ownedBy, hm, figureIs_int]
  simp

lemma owns_of_owned (h : Repositories.owned (.int n) (.int u) s = .ok (some p)) : s.Owns u n := by
  obtain ⟨_, h⟩ := bind_parameter_int h
  obtain ⟨_, h⟩ := bind_parameter_int h
  obtain ⟨hp, hpicked⟩ := mem_filter.mp (mem_of_one h)
  obtain ⟨hid, howned⟩ := Bool.and_eq_true_iff.mp hpicked
  exact ⟨p, hp, by simpa [intIs_int] using hid, (ownedBy_iff hs hp).mp howned⟩

lemma owns_of_underOwner (h : s.underOwner (.int u) r = true) : s.Owns u r.repositoryId := by
  obtain ⟨p, hfind, howned⟩ := (Option.any_eq_true _ _).mp h
  have hp := mem_of_find?_eq_some hfind
  exact ⟨p, hp, by simpa using find?_some hfind, (ownedBy_iff hs hp).mp howned⟩

lemma mem_of_ownedReview (h : s.ownedReview (.int n) (.int u) = .ok (some r)) :
    r ∈ s.reviews ∧ r.id = n ∧ s.Owns u r.repositoryId := by
  obtain ⟨_, h⟩ := bind_parameter_int h
  obtain ⟨_, h⟩ := bind_parameter_int h
  obtain ⟨hr, hpicked⟩ := mem_filter.mp (mem_of_one h)
  obtain ⟨hid, hunder⟩ := Bool.and_eq_true_iff.mp hpicked
  exact ⟨hr, by simpa [intIs_int] using hid, owns_of_underOwner hs hunder⟩

lemma mine_of_ownedReview (h : s.ownedReview (.int n) (.int u) = .ok (some r)) : s.Mine u n :=
  ⟨r, mem_of_ownedReview hs h⟩

lemma mine_of_reviewsOf (h : s.reviewsOf (.int u) = .ok rs) (hr : r ∈ rs) : s.Mine u r.id := by
  obtain ⟨_, h⟩ := bind_parameter_int h
  cases h
  obtain ⟨hmem, hunder⟩ := mem_filter.mp hr
  exact ⟨r, hmem, rfl, owns_of_underOwner hs hunder⟩

lemma mine_of_listed {repository status skip limit : Value}
    (h : Reviews.listed (.int u) repository status skip limit s = .ok rs)
    (hr : r ∈ rs) : s.Mine u r.id := by
  obtain ⟨all, hall, h⟩ := bind_eq_ok h
  obtain ⟨p, _, h⟩ := bind_eq_ok h
  obtain ⟨page, _, h⟩ := bind_eq_ok h
  cases h
  have hpicked := mem_mergeSort.mp (Page.mem_of_take hr)
  exact mine_of_reviewsOf hs hall (mem_filter.mp hpicked).1

variable (hk : s.Keyed)

include hk

lemma underOwner_of_owns (h : s.Owns u r.repositoryId) : s.underOwner (.int u) r = true := by
  obtain ⟨p, hp, hid, howner⟩ := h
  have hfind : s.repositoryOf? r = some p := by
    rw [repositoryOf?, ← hid]
    exact find?_key hk.repositories hp
  rw [underOwner, hfind, Option.any_some]
  exact (ownedBy_iff hs hp).mpr howner

lemma ownedReview_of_mine (hn : fits r.id) (hu : fits u) (hr : r ∈ s.reviews)
    (h : s.Owns u r.repositoryId) : s.ownedReview (.int r.id) (.int u) = .ok (some r) := by
  simp only [ownedReview, parameter_int hn, parameter_int hu, bind_ok, intIs_int]
  have hone := filter_key hk.reviews hr
  rw [one_eq_some]
  calc s.reviews.filter (fun q => q.id == r.id && s.underOwner (.int u) q)
      = (s.reviews.filter (fun q => q.id == r.id)).filter (s.underOwner (.int u)) := by
        simp only [filter_filter, Bool.and_comm]
    _ = [r] := by rw [hone, filter_cons_of_pos (underOwner_of_owns hs hk h), filter_nil]

end

/-! ## What a request can do and show -/

/-- Something of a review that an answer shows, by its number. -/
inductive Item where
  | review (n : Int)
  | issue (n : Int)
  | comment (n : Int)

/-- What a request of a user can do to the store, and what of reviews it makes. -/
inductive Effect (u : Int) (s : Store) : Store → List Item → Prop
  | nothing : Effect u s s []
  | connect (p : Repository) (hid : p.id = nextId (s.repositories.map (·.id)))
      (howner : p.ownerId = .int u) (hu : fits u) :
      Effect u s { s with repositories := s.repositories ++ [p] } []
  | disconnect (n : Int) (h : s.Owns u n) :
      Effect u s { s with repositories := s.repositories.filter fun p => !(p.id == n) } []
  | addReview (r : Review) (hid : r.id = nextId (s.reviews.map (·.id)))
      (hauthor : r.authorId = .int u) (h : s.Owns u r.repositoryId) (hu : fits u) :
      Effect u s { s with reviews := s.reviews ++ [r] } [.review r.id]
  | editReview (n : Int) (h : s.Mine u n) (rows : List Review)
      (hrows : Edited (·.id) Review.SameTies (.int n) s.reviews rows) :
      Effect u s { s with reviews := rows } []
  | dropReview (n : Int) (h : s.Mine u n) :
      Effect u s { s with reviews := s.reviews.filter fun r => !(r.id == n) } []
  | editIssue (i : Issue) (hi : i ∈ s.issues) (h : s.Mine u i.reviewId) (rows : List Issue)
      (hrows : Edited (·.id) Issue.SameTies (.int i.id) s.issues rows) :
      Effect u s { s with issues := rows } []
  | addComment (c : Comment) (n : Int) (hid : c.id = nextId (s.comments.map (·.id)))
      (hreview : c.reviewId = .int n) (h : s.Mine u n) :
      Effect u s { s with comments := s.comments ++ [c] } [.comment c.id]

/-- What the numbers in the store let a user see. -/
def Reach (s : Store) (u : Int) : Item → Prop
  | .review n => s.Mine u n
  | .issue n => ∃ i ∈ s.issues, i.id = n ∧ s.Mine u i.reviewId
  | .comment n => ∃ c ∈ s.comments, c.id = n ∧ ∃ m, c.reviewId = .int m ∧ s.Mine u m

lemma reach_issue (hi : i ∈ s.issues) (h : s.Mine u i.reviewId) : s.Reach u (.issue i.id) :=
  ⟨i, hi, rfl, h⟩

lemma reach_comment (hs : s.Whole) {c : Comment} (hc : c ∈ s.comments)
    (hreview : figureIs c.reviewId (.int n) = true) (h : s.Mine u n) : s.Reach u (.comment c.id) := by
  obtain ⟨m, hm⟩ := hs.comment c hc
  rw [hm, figureIs_int] at hreview
  have heq : m = n := by simpa using hreview
  exact ⟨c, hc, rfl, n, heq ▸ hm, h⟩

open Value

/-!
## A user's part of the store

The repositories that a user has connected, the reviews that hang off them, and the issues and
comments of these reviews. Which rows these are is decided by comparing columns: an owner can be any
figure that equals the number of the user.
-/

variable {m : Int} {id p : Value} {v : Figure}

lemma same_of_intIs (h : intIs n p = true) : same (.int n) (asNumber p) = true := by
  unfold intIs figureIs at h
  split at h
  · cases h
  · exact (Bool.and_eq_true_iff.mp h).2

lemma Names.unique (hm : Names id m) (hn : Names id n) : m = n := by
  obtain ⟨p, hp, hm⟩ := hm
  exact same_int_unique (same_of_intIs hm) (same_of_intIs ((names_iff hp).mp hn))

lemma figureIs_of_same (h : same (.int n) v = true) : figureIs v (.int n) = true := by
  have hnull : v.isNull = false := by
    cases v with
    | null => cases h
    | bool | int | real | text | list | object => rfl
  simp [figureIs, asNumber, hnull, same_int_symm h]

/-- A column that equals what a value looks up equals the number that is looked up. -/
lemma figureIs_trans {cell : Figure} (hcell : figureIs cell p = true)
    (hn : intIs n p = true) : figureIs cell (.int n) = true := by
  have hsame := same_of_intIs hn
  unfold figureIs at hcell
  split at hcell
  · cases hn
  · obtain ⟨hnull, hcell⟩ := Bool.and_eq_true_iff.mp hcell
    simp [figureIs, asNumber, same_int_of_same hcell hsame]
    simpa using hnull

lemma figureIs_of_names (hv : integerColumn id = .ok v)
    (hn : Names id n) : figureIs v (.int n) = true := by
  obtain ⟨p, hp, hv⟩ := bind_eq_ok hv
  cases hv
  have hsame := same_of_intIs ((names_iff hp).mp hn)
  refine figureIs_of_same ?_
  unfold asInteger
  split
  · rename_i x hx
    rw [hx] at hsame
    simp only
    split
    · exact hsame
    · rename_i hwhole
      have heq : Decimal.compareInt (Decimal.truncate x) x = .eq := by
        simp only [Bool.or_eq_true, bne_iff_ne, not_or, Decidable.not_not] at hwhole
        exact hwhole.2
      rw [Decimal.compareInt_eq (same_int_iff.mp hsame), Int.compare_eq_eq] at heq
      rw [Decimal.eq_of_mul_size heq, same_int, beq_self_eq_true]
  · exact hsame

/-- The number that is written with a value is the number that the value looks up. -/
lemma Names.eq_of_wholeColumn (hm : Names id m) (hn : wholeColumn id = .ok (some n)) : n = m := by
  obtain ⟨v, hv, hn⟩ := bind_eq_ok hn
  cases v with
  | int k =>
    cases hn
    have hsame := figureIs_of_names hv hm
    rwa [figureIs_int, beq_iff_eq] at hsame
  | null | bool | real | text | list | object => cases hn

lemma truthy_of_names (hid : Names id n) (hn : 0 < n) : id.truthy = true := by
  obtain ⟨p, hp, hid⟩ := hid
  have hsame := same_of_intIs hid
  cases id with
  | null =>
    cases hp
    cases hsame
  | bool b =>
    cases hp
    cases b with
    | true => rfl
    | false =>
      simp [asNumber, same_int] at hsame
      omega
  | int m =>
    obtain ⟨_, rfl⟩ := parameter_int_ok hp
    simp [asNumber, same_int] at hsame
    simp [truthy]
    omega
  | real x =>
    cases hp
    split at hsame
    · cases hsame
    · have hne : n * Decimal.size 1 0 ≠ 0 := fun h =>
        Int.ne_of_gt hn (Decimal.eq_of_mul_size (h.trans (Int.zero_mul _).symm))
      simp [truthy, bne, Decimal.not_beq_zero (same_int_iff.mp hsame) hne]
  | text t =>
    cases hp
    have hnone : (numberOfText? "").isNone = true := by decide +kernel
    have hempty : asNumber (.text "") = .text "" := by
      rw [asNumber, Option.isNone_iff_eq_none.mp hnone, Option.getD_none]
    by_cases ht : t = ""
    · rw [ht, hempty] at hsame
      cases hsame
    · simpa [truthy] using ht
  | list vs => cases hp
  | object fs => cases hp

/-! ## Tables in order -/

/-- Numbers of rows, from one on and in their order. -/
def Ascending (ids : List Int) : Prop := (0 :: ids).Pairwise (· < ·)

/-- All tables are in the order of their numbers. -/
structure Numbered (s : Store) : Prop where
  users : Ascending (s.users.map (·.id))
  repositories : Ascending (s.repositories.map (·.id))
  reviews : Ascending (s.reviews.map (·.id))
  issues : Ascending (s.issues.map (·.id))
  comments : Ascending (s.comments.map (·.id))

section

variable {key : α → Int} {rows' : List α}

lemma Ascending.nodup {ids : List Int} (h : Ascending ids) : ids.Nodup :=
  (pairwise_cons.mp h).2.imp Int.ne_of_lt

lemma Ascending.pos {ids : List Int} (h : Ascending ids) (hn : n ∈ ids) : 0 < n :=
  (pairwise_cons.mp h).1 n hn

lemma Ascending.filter (h : Ascending (rows.map key)) (p : α → Bool) :
    Ascending ((rows.filter p).map key) :=
  List.Pairwise.sublist ((filter_sublist.map key).cons_cons 0) h

lemma Ascending.snoc (h : Ascending (rows.map key)) {r : α} (hr : key r = nextId (rows.map key)) :
    Ascending ((rows ++ [r]).map key) := by
  have hlast : ∀ n ∈ 0 :: rows.map key, n < key r := by
    refine forall_mem_cons.mpr ⟨hr ▸ nextId_pos _, fun n hn => hr ▸ lt_nextId hn⟩
  rw [map_append, Ascending, ← cons_append, pairwise_append]
  refine ⟨h, pairwise_singleton _ _, fun n hn m hm => ?_⟩
  rw [mem_singleton.mp hm]
  exact hlast n hn

lemma Ascending.changeWhere (h : Ascending (rows.map key)) {picks : α → Bool}
    {f : α → Outcome α} (hf : ∀ r r', f r = .ok r' → key r' = key r)
    (hrows : changeWhere picks f rows = .ok rows') : Ascending (rows'.map key) := by
  have hkeys : rows'.map key = rows.map key := by
    refine (changeWhere_kept hrows).map_eq fun r r' hr => ?_
    rcases hr with rfl | ⟨_, hr⟩
    · rfl
    · exact hf r r' hr
  rwa [hkeys]

end

lemma Numbered.keyed (h : s.Numbered) : s.Keyed where
  repositories := h.repositories.nodup
  reviews := h.reviews.nodup
  issues := h.issues.nodup
  comments := h.comments.nodup

/-! ## What hangs off a user's repositories -/

def issueUnder (s : Store) (owner : Value) (i : Issue) : Bool :=
  (s.reviewOf? i).any (s.underOwner owner)

def commentUnder (s : Store) (owner : Value) (c : Comment) : Bool :=
  s.reviews.any fun r => figureIs c.reviewId (.int r.id) && s.underOwner owner r

section

variable (hs : s.Keyed) {id : Value}
variable {key : α → Int} {mine : α → Bool} {p : Repository}

lemma one_named {r : α} {p : Value} (hp : parameter id = .ok p)
    (h : one (rows.filter fun q => intIs (key q) p && mine q) = .ok (some r)) :
    r ∈ rows ∧ Names id (key r) ∧ mine r = true := by
  obtain ⟨hr, hpicked⟩ := mem_filter.mp (mem_of_one h)
  obtain ⟨hid, hmine⟩ := Bool.and_eq_true_iff.mp hpicked
  exact ⟨hr, ⟨p, hp, hid⟩, hmine⟩

lemma owned_some (h : Repositories.owned id (.int u) s = .ok (some p)) :
    p ∈ s.repositories ∧ Names id p.id ∧ p.ownedBy (.int u) = true := by
  obtain ⟨v, hv, h⟩ := bind_eq_ok h
  obtain ⟨_, h⟩ := bind_parameter_int h
  exact one_named hv h

lemma ownedReview_some (h : s.ownedReview id (.int u) = .ok (some r)) :
    r ∈ s.reviews ∧ Names id r.id ∧ s.underOwner (.int u) r = true := by
  obtain ⟨v, hv, h⟩ := bind_eq_ok h
  obtain ⟨_, h⟩ := bind_parameter_int h
  exact one_named hv h

lemma issueById_names (h : s.issueById id = .ok (some i)) : i ∈ s.issues ∧ Names id i.id := by
  obtain ⟨v, hv, h⟩ := bind_eq_ok h
  obtain ⟨hi, hid⟩ := mem_filter.mp (mem_of_one h)
  exact ⟨hi, v, hv, hid⟩

lemma forall_named (hrows : (rows.map key).Nodup) {r : α} (hr : r ∈ rows) (hid : Names id (key r))
    (hmine : mine r = true) : ∀ q ∈ rows, Names id (key q) → mine q = true := by
  intro q hq hname
  rw [eq_of_key hrows hq hr (hname.unique hid)]
  exact hmine

include hs

lemma underOwner_of_mem (hp : p ∈ s.repositories)
    (hid : p.id = r.repositoryId) (howned : p.ownedBy (.int u) = true) :
    s.underOwner (.int u) r = true := by
  have hfind : s.repositoryOf? r = some p := by
    rw [repositoryOf?, ← hid]
    exact find?_key hs.repositories hp
  rw [underOwner, hfind, Option.any_some, howned]

lemma issueUnder_of_mem (hr : r ∈ s.reviews) (hid : r.id = i.reviewId)
    (hunder : s.underOwner (.int u) r = true) : s.issueUnder (.int u) i = true := by
  have hfind : s.reviewOf? i = some r := by
    rw [reviewOf?, ← hid]
    exact find?_key hs.reviews hr
  rw [issueUnder, hfind, Option.any_some, hunder]

omit hs in
lemma commentUnder_of_mem {c : Comment} (hr : r ∈ s.reviews)
    (hid : figureIs c.reviewId (.int r.id) = true) (hunder : s.underOwner (.int u) r = true) :
    s.commentUnder (.int u) c = true :=
  any_eq_true.mpr ⟨r, hr, by rw [hid, hunder]; rfl⟩

end

/-- What belongs to a user: the user's own row, the repositories and all that hangs off them. -/
def part (s : Store) (u : Int) : Store where
  users := s.users.filter (·.id == u)
  repositories := s.repositories.filter (·.ownedBy (.int u))
  reviews := s.reviews.filter (s.underOwner (.int u))
  issues := s.issues.filter (s.issueUnder (.int u))
  comments := s.comments.filter (s.commentUnder (.int u))

/-! ## Two owners -/

def sampleUser (n : Int) : User where
  id := n
  email := intText n
  username := intText n
  password := ""
  createdAt := ⟨0⟩
  updatedAt := none

def sampleRepository (n owner : Int) : Repository where
  id := n
  name := "tool"
  fullName := "tool"
  url := ""
  cloneUrl := ""
  provider := "github"
  externalId := intText n
  createdAt := ⟨0⟩
  updatedAt := none
  ownerId := .int owner

def sampleReview (n repository author : Int) : Review where
  id := n
  title := "notes"
  createdAt := ⟨0⟩
  updatedAt := none
  repositoryId := repository
  authorId := .int author

def twoOwners : Store where
  users := [sampleUser 1, sampleUser 2]
  repositories := [sampleRepository 1 1, sampleRepository 2 2]
  reviews := [sampleReview 1 1 1, sampleReview 2 2 2]

lemma numbered_twoOwners : twoOwners.Numbered := by
  constructor <;> simp [Ascending, twoOwners, sampleUser, sampleRepository, sampleReview]

end Store

end ReviewDesk
