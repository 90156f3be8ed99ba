import ReviewDesk.Proofs.Work

/-!
# Rows of the store

How rows are found by their numbers, written and added. Numbers that do not fit a column are never
found.
-/

namespace ReviewDesk

open List Outcome Value

lemma Value.same_int (m n : Int) : same (.int m) (.int n) = (m == n) := by
  simp only [same, number?, Value.Number.compare?]
  rw [Bool.eq_iff_iff]
  simp

lemma Value.truthy_int {n : Int} (h : 0 < n) : (int n).truthy = true := by
  simp [truthy]
  omega

namespace Store

variable {id m n : Int} {p : Value} {α : Type} {rows rows' xs : List α} {a : α} {column : String}
  {v : Figure} {ids : List Int} {key : α → Int} {r : Review} {picks : α → Bool} {f : α → Outcome α}
  {s : Store} {g : Review → Review}

/-! ## Parameters -/

lemma parameter_int (h : fits n) : parameter (.int n) = .ok (.int n) := by
  simp [parameter, h]

lemma parameter_int_ok (h : parameter (.int n) = .ok p) : fits n ∧ p = .int n := by
  simp only [parameter] at h
  split at h
  · rename_i hf
    cases h
    exact ⟨hf, rfl⟩
  · cases h

lemma bind_parameter_int {f : Value → Outcome α}
    (h : (parameter (.int n) >>= f) = .ok a) : fits n ∧ f (.int n) = .ok a := by
  obtain ⟨p, hp, h⟩ := bind_eq_ok h
  obtain ⟨hf, rfl⟩ := parameter_int_ok hp
  exact ⟨hf, h⟩

lemma intIs_int (m n : Int) : intIs m (.int n) = (m == n) := by
  simp [intIs, figureIs, asNumber, isNull, same_int]

lemma mem_of_one (h : one xs = .ok (some a)) : a ∈ xs := by
  match xs with
  | [b] => cases h; exact mem_singleton_self _
  | [] => cases h
  | b :: c :: rest => cases h

lemma one_eq_some : one xs = .ok (some a) ↔ xs = [a] := by
  match xs with
  | [] => simp [one]
  | [b] => simp [one]
  | b :: c :: rest => simp [one]

lemma fits_ofNat_le {m n : Nat} (h : fits n) (hle : m ≤ n) : fits m := by
  simp only [fits, Bool.and_eq_true, decide_eq_true_eq] at h ⊢
  omega

lemma integerColumn_ofNat {n : Nat} (h : fits n) : integerColumn (.ofNat n) = .ok (.ofNat n) := by
  simp [integerColumn, ofNat, parameter_int h, asInteger, asNumber, bind, Except.bind, pure,
    Except.pure]

lemma integerColumn_unfit {n : Nat} (h : fits n = false) :
    ∃ e, integerColumn (.ofNat n) = .error e := by
  refine ⟨.tooLarge "integer too large for a column", ?_⟩
  simp [integerColumn, ofNat, parameter, h, bind, Except.bind]

lemma required_eq_ok {x : Option α} (h : required column x = .ok a) : x = some a := by
  cases x with
  | none => cases h
  | some b => cases h; rfl

lemma wholeColumn_int (h : wholeColumn (.int m) = .ok (some n)) : n = m := by
  obtain ⟨v, hv, h⟩ := bind_eq_ok h
  obtain ⟨_, hv⟩ := bind_parameter_int hv
  cases hv
  cases h
  rfl

lemma integerColumn_int (h : integerColumn (.int n) = .ok v) : fits n ∧ v = .int n := by
  obtain ⟨hf, h⟩ := bind_parameter_int h
  cases h
  exact ⟨hf, rfl⟩

lemma requiredFigure_eq_ok {w : Figure} (h : requiredFigure column v = .ok w) : w = v := by
  unfold requiredFigure at h
  split at h
  · cases h
  · cases h
    rfl

lemma figureIs_int (m n : Int) : figureIs (.int m) (.int n) = (m == n) := intIs_int m n

/-! ## New numbers -/

lemma le_foldl_max (ids : List Int) (m : Int) : m ≤ ids.foldl max m := by
  induction ids generalizing m with
  | nil => exact Int.le_refl m
  | cons n ids ih => exact Int.le_trans (Int.le_max_left m n) (ih (max m n))

lemma lt_nextId (h : n ∈ ids) : n < nextId ids := by
  have hle : ∀ m, n ≤ ids.foldl max m := by
    induction ids with
    | nil => cases h
    | cons k ids ih =>
      intro m
      rcases mem_cons.mp h with rfl | h
      · exact Int.le_trans (Int.le_max_right m n) (le_foldl_max ids _)
      · exact ih h _
  exact Int.lt_add_one_of_le (hle 0)

lemma nextId_notMem (ids : List Int) : nextId ids ∉ ids :=
  fun h => absurd (lt_nextId h) (Int.lt_irrefl _)

lemma nodup_snoc {r : α} (h : (rows.map key).Nodup)
    (hr : key r ∉ rows.map key) : ((rows ++ [r]).map key).Nodup := by
  rw [map_append, nodup_append]
  refine ⟨h, pairwise_singleton _ _, fun m hm n hn heq => hr ?_⟩
  rw [← mem_singleton.mp hn, ← heq]
  exact hm

section

variable {α β : Type} [BEq β] [LawfulBEq β] {key : α → β} {rows : List α} {q r : α}

/-- A row is the only one with its number, or with what else is unique in a table. -/
lemma filter_key (h : (rows.map key).Nodup) (hr : r ∈ rows) :
    rows.filter (fun q => key q == key r) = [r] := by
  induction rows with
  | nil => cases hr
  | cons q rows ih =>
    rw [map_cons, nodup_cons] at h
    rcases mem_cons.mp hr with rfl | hr
    · have hrest : rows.filter (fun q => key q == key r) = [] :=
        filter_eq_nil_iff.mpr fun q hq hkey => h.1 (beq_iff_eq.mp hkey ▸ mem_map_of_mem hq)
      rw [filter_cons_of_pos (by simp), hrest]
    · have hne : key q ≠ key r := fun hkey => h.1 (hkey ▸ mem_map_of_mem hr)
      rw [filter_cons_of_neg (by simp [hne]), ih h.2 hr]

lemma find?_key (h : (rows.map key).Nodup) (hr : r ∈ rows) :
    rows.find? (fun q => key q == key r) = some r := by
  rw [← head?_filter, filter_key h hr, head?_cons]

lemma eq_of_key (h : (rows.map key).Nodup) (hq : q ∈ rows) (hr : r ∈ rows)
    (hkey : key q = key r) : q = r := by
  have hmem : q ∈ rows.filter (fun q => key q == key r) :=
    mem_filter.mpr ⟨hq, beq_iff_eq.mpr hkey⟩
  rw [filter_key h hr] at hmem
  exact mem_singleton.mp hmem

lemma one_filter_key (h : (rows.map key).Nodup) (k : β) :
    one (rows.filter fun r => key r == k) = .ok (rows.find? fun r => key r == k) := by
  cases hfind : rows.find? fun r => key r == k with
  | none =>
    rw [filter_eq_nil_iff.mpr (find?_eq_none.mp hfind)]
    rfl
  | some r =>
    obtain rfl : key r = k := beq_iff_eq.mp (find?_some (p := fun r => key r == k) hfind)
    rw [filter_key h (mem_of_find?_eq_some hfind)]
    rfl

end

lemma nextId_pos (ids : List Int) : 0 < nextId ids := Int.lt_add_one_of_le (le_foldl_max ids 0)

lemma nextId_le {k : Int} (hk : 0 ≤ k) (h : ∀ n ∈ ids, n ≤ k) : nextId ids ≤ k + 1 := by
  have hle : ∀ m, m ≤ k → ids.foldl max m ≤ k := by
    induction ids with
    | nil => exact fun m hm => hm
    | cons n ids ih =>
      intro m hm
      have hn := h n (.head _)
      exact ih (fun i hi => h i (.tail _ hi)) _ (Int.max_le.mpr ⟨hm, hn⟩)
  exact Int.add_le_add_right (hle 0 hk) 1

/-! ## Writing rows -/

/-- Rows that were written one by one, in place. -/
def Kept (same : α → α → Prop) (rows rows' : List α) : Prop :=
  ∃ g : α → α, rows' = rows.map g ∧ ∀ r ∈ rows, same r (g r)

lemma changeWhere_map (h : changeWhere picks f rows = .ok rows') :
    ∃ g, rows' = rows.map g ∧ ∀ r ∈ rows, (if picks r then f r else .ok r) = .ok (g r) := by
  let g (r : α) : α := ((if picks r then f r else .ok r).toOption).getD r
  have hg : ∀ r r', (if picks r then f r else .ok r) = Except.ok r' → g r = r' := by
    intro r r' hr
    simp only [g, hr]
    rfl
  refine ⟨g, ?_⟩
  induction rows generalizing rows' with
  | nil =>
    cases h
    exact ⟨rfl, fun r hr => by cases hr⟩
  | cons r rows ih =>
    simp only [changeWhere, mapM_cons] at h ih
    obtain ⟨r', hr, h⟩ := bind_eq_ok h
    obtain ⟨rest, hrest, h⟩ := bind_eq_ok h
    cases h
    obtain ⟨hmap, hrows⟩ := ih hrest
    refine ⟨by rw [map_cons, hg r r' hr, ← hmap], forall_mem_cons.mpr ⟨?_, hrows⟩⟩
    rw [hg r r' hr, hr]

lemma changeWhere_kept (h : changeWhere picks f rows = .ok rows') :
    Kept (fun r r' => r' = r ∨ picks r = true ∧ f r = .ok r') rows rows' := by
  obtain ⟨g, hmap, hg⟩ := changeWhere_map h
  refine ⟨g, hmap, fun r hr => ?_⟩
  have hr := hg r hr
  by_cases hp : picks r
  · rw [if_pos hp] at hr
    exact .inr ⟨hp, hr⟩
  · rw [if_neg hp] at hr
    exact .inl (Except.ok.inj hr).symm

/-- A value looks up a number. -/
def Names (id : Value) (n : Int) : Prop := ∃ p, parameter id = .ok p ∧ intIs n p = true

lemma names_iff {id : Value} (hp : parameter id = .ok p) : Names id n ↔ intIs n p = true := by
  refine ⟨?_, fun h => ⟨p, hp, h⟩⟩
  rintro ⟨q, hq, hn⟩
  rw [hp] at hq
  cases hq
  exact hn

lemma Names.eq (h : Names (.int m) n) : n = m := by
  obtain ⟨p, hp, hn⟩ := h
  obtain ⟨_, rfl⟩ := parameter_int_ok hp
  simpa [intIs_int] using hn

instance (id : Value) (n : Int) : Decidable (Names id n) :=
  match h : parameter id with
  | .ok _ => decidable_of_iff _ (names_iff h).symm
  | .error _ => .isFalse fun ⟨_, hp, _⟩ => by rw [h] at hp; cases hp

/-- Rows of which only those that a value looks up were written. -/
def Edited (key : α → Int) (same : α → α → Prop) (id : Value) (rows rows' : List α) : Prop :=
  Kept (fun r r' => r' = r ∨ Names id (key r) ∧ same r r') rows rows'

lemma changeWhere_edited {same : α → α → Prop} {id : Value} (hf : ∀ r r', f r = .ok r' → same r r')
    (hp : parameter id = .ok p) (h : changeWhere (fun r => intIs (key r) p) f rows = .ok rows') :
    Edited key same id rows rows' := by
  obtain ⟨g, hmap, hg⟩ := changeWhere_kept h
  refine ⟨g, hmap, fun r hr => ?_⟩
  rcases hg r hr with heq | ⟨hid, hwritten⟩
  · exact .inl heq
  · exact .inr ⟨⟨p, hp, hid⟩, hf r _ hwritten⟩

section

variable {α : Type} {same same' : α → α → Prop} {rows rows₁ rows₂ : List α}

lemma Kept.imp (h : Kept same rows rows₁) (himp : ∀ r r', same r r' → same' r r') :
    Kept same' rows rows₁ := by
  obtain ⟨g, rfl, hg⟩ := h
  exact ⟨g, rfl, fun r hr => himp _ _ (hg r hr)⟩

lemma Kept.refl (hsame : ∀ r, same r r) (rows : List α) : Kept same rows rows :=
  ⟨id, (map_id rows).symm, fun r _ => hsame r⟩

lemma Kept.trans (hsame : ∀ a b c, same a b → same b c → same a c) (h : Kept same rows rows₁)
    (h' : Kept same rows₁ rows₂) : Kept same rows rows₂ := by
  obtain ⟨g, rfl, hg⟩ := h
  obtain ⟨g', rfl, hg'⟩ := h'
  refine ⟨g' ∘ g, map_map, fun r hr => ?_⟩
  exact hsame _ _ _ (hg r hr) (hg' (g r) (mem_map_of_mem hr))

lemma Kept.of_mem (h : Kept same rows rows₁) {r' : α} (hr : r' ∈ rows₁) :
    ∃ r ∈ rows, same r r' := by
  obtain ⟨g, rfl, hg⟩ := h
  obtain ⟨r, hmem, rfl⟩ := mem_map.mp hr
  exact ⟨r, hmem, hg r hmem⟩

lemma Kept.mem (h : Kept same rows rows₁) {r : α} (hr : r ∈ rows) : ∃ r' ∈ rows₁, same r r' := by
  obtain ⟨g, rfl, hg⟩ := h
  exact ⟨g r, mem_map_of_mem hr, hg r hr⟩

lemma Kept.map_eq {β : Type} {column : α → β} (h : Kept same rows rows₁)
    (hsame : ∀ r r', same r r' → column r' = column r) : rows₁.map column = rows.map column := by
  obtain ⟨g, rfl, hg⟩ := h
  rw [map_map]
  exact map_congr_left fun r hr => hsame _ _ (hg r hr)

section

variable {key : α → Int} {id : Value}

lemma Edited.refl (rows : List α) : Edited key same id rows rows :=
  Kept.refl (fun _ => .inl rfl) rows

lemma Edited.kept (h : Edited key same id rows rows₁) (hsame : ∀ r, same r r) :
    Kept same rows rows₁ :=
  h.imp fun r r' h => by
    rcases h with rfl | ⟨_, h⟩
    · exact hsame r'
    · exact h

end

end

/-! ## Reviews by their numbers -/

lemma reviewById_eq :
    s.reviewById (.int id) = .ok (some r) ↔ fits id ∧ s.reviews.filter (·.id == id) = [r] := by
  constructor
  · intro h
    obtain ⟨hf, h⟩ := bind_parameter_int h
    simp only [intIs_int] at h
    exact ⟨hf, one_eq_some.mp h⟩
  · rintro ⟨hf, h⟩
    simp only [reviewById, parameter_int hf, bind_ok, intIs_int]
    exact one_eq_some.mpr h

lemma id_of_reviewById (h : s.reviewById (.int id) = .ok (some r)) : r.id = id := by
  have hr : r ∈ s.reviews.filter (·.id == id) := by simp [(reviewById_eq.mp h).2]
  simpa using (mem_filter.mp hr).2

def mapReview (id : Int) (g : Review → Review) (s : Store) : Store :=
  { s with reviews := s.reviews.map fun r => if r.id == id then g r else r }

lemma changeWhere_eq_map (picks : α → Bool) (f : α → Outcome α) (g : α → α)
    (rows : List α) (h : ∀ r, picks r → f r = .ok (g r)) :
    changeWhere picks f rows = .ok (rows.map fun r => if picks r then g r else r) := by
  induction rows with
  | nil => rfl
  | cons r rows ih =>
    have hr : (if picks r then f r else .ok r) = Except.ok (if picks r then g r else r) := by
      by_cases hp : picks r
      · simp [hp, h r hp]
      · simp [hp]
    simp only [changeWhere] at ih ⊢
    rw [mapM_cons, hr, ih]
    rfl

lemma changeReview_eq {f : Review → Outcome Review} (hf : fits id) (h : ∀ r, f r = .ok (g r)) :
    s.changeReview (.int id) f = .ok (s.mapReview id g) := by
  simp only [changeReview, parameter_int hf, bind_ok, intIs_int]
  rw [changeWhere_eq_map _ f g s.reviews fun r _ => h r]
  rfl

lemma mapReview_mapReview {f : Review → Review} (hg : ∀ r, (g r).id = r.id) :
    (s.mapReview id g).mapReview id f = s.mapReview id fun r => f (g r) := by
  have hmap : ∀ r : Review,
      (if (if r.id == id then g r else r).id == id then f (if r.id == id then g r else r)
        else if r.id == id then g r else r) = if r.id == id then f (g r) else r := by
    intro r
    by_cases hr : r.id = id
    · simp [hr, hg]
    · simp [hr]
  simp only [mapReview, map_map]
  exact congrArg (fun reviews => { s with reviews }) (map_congr_left fun r _ => hmap r)

lemma reviewById_mapReview
    (hg : ∀ r, (g r).id = r.id) (h : s.reviewById (.int id) = .ok (some r)) :
    (s.mapReview id g).reviewById (.int id) = .ok (some (g r)) := by
  obtain ⟨hf, h⟩ := reviewById_eq.mp h
  refine reviewById_eq.mpr ⟨hf, ?_⟩
  have hmap : ∀ rows : List Review,
      (rows.map fun r => if r.id == id then g r else r).filter (·.id == id) =
        (rows.filter (·.id == id)).map g := by
    intro rows
    induction rows with
    | nil => rfl
    | cons q rows ih =>
      rw [map_cons, filter_cons, filter_cons, ih]
      by_cases hq : q.id = id
      · simp [hq, hg]
      · simp [hq]
  simp only [mapReview, hmap, h, map_singleton]

end Store

end ReviewDesk
