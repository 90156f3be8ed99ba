import ReviewDesk.Analysis.File
import ReviewDesk.Proofs.Comparison

/-!
# The order of a review

Of the issues with one title, file, line and category the first stays, and those that stay are
ordered by severity and then by confidence. Whatever the fields of the issues are, the result has
this order, keeps the order of issues that tie, and is not changed by doing it all again.
-/

namespace ReviewDesk.Analysis

open List Outcome Analysis.Issue Value Severity Bool

variable {issues : List Issue} {i j : Issue}

open Value (IsAtom)

variable {result : List Issue}

/-! ## Keys of any issues -/

/-- The fields that tell issues apart. -/
def keyFields : List String := ["title", "file_path", "line_start", "category"]

lemma asKeyPart_eq_ok {v w : Value} :
    asKeyPart v = .ok w ↔ w = v ∧ v.list? = none ∧ v.fields? = none := by
  cases v <;> simp [asKeyPart, list?, fields?, eq_comm]

lemma mapM_asKeyPart {vs ws : List Value} :
    vs.mapM asKeyPart = .ok ws ↔ ws = vs ∧ ∀ v ∈ vs, v.list? = none ∧ v.fields? = none := by
  have hof (h : ∀ v ∈ vs, v.list? = none ∧ v.fields? = none) : vs.mapM asKeyPart = .ok vs := by
    have hall : ∀ v ∈ vs, asKeyPart v = .ok (id v) := fun v hv => asKeyPart_eq_ok.mpr ⟨rfl, h v hv⟩
    rw [mapM_of_ok hall, map_id]
  constructor
  · intro h
    have hsimple : ∀ v ∈ vs, v.list? = none ∧ v.fields? = none := fun v hv => by
      obtain ⟨w, hw⟩ := ok_of_mapM h v hv
      exact (asKeyPart_eq_ok.mp hw).2
    exact ⟨Except.ok.inj (h.symm.trans (hof hsimple)), hsimple⟩
  · rintro ⟨rfl, hsimple⟩
    exact hof hsimple

namespace Issue

/-- The field is there, and its value is neither a list nor an object. -/
def HasAtom (i : Issue) (field : String) : Prop := ∃ v, i.find? field = some v ∧ v.IsAtom

instance (i : Issue) : DecidablePred i.HasAtom := fun field =>
  inferInstanceAs (Decidable (∃ v, v ∈ i.find? field ∧ v.IsAtom))

def HasKey (i : Issue) : Prop := ∀ field ∈ keyFields, i.HasAtom field

instance : DecidablePred HasKey := fun _ => inferInstanceAs (Decidable (∀ _ ∈ keyFields, _))

def part (i : Issue) (field : String) : Value := (i.find? field).getD .null

def sameKey (i j : Issue) : Bool := keyFields.all fun field => (i.part field).alike (j.part field)

variable {k : Issue} {field : String}

lemma HasAtom.part (h : i.HasAtom field) : (i.part field).IsAtom := by
  obtain ⟨v, hv, hatom⟩ := h
  rw [Issue.part, hv]
  exact hatom

lemma get_eq_ok {v : Value} : i.get field = .ok v ↔ i.find? field = some v := by
  show item (.object i.fields) field = .ok v ↔ Fields.get? i.fields field = some v
  cases h : Fields.get? i.fields field with
  | none => simp [item, h]
  | some w => simp [item, h]

lemma HasAtom.get (h : i.HasAtom field) : i.get field = .ok (i.part field) := by
  obtain ⟨v, hv, _⟩ := h
  rw [get_eq_ok, Issue.part, hv]
  rfl

lemma HasKey.key (h : i.HasKey) : i.key = .ok (keyFields.map i.part) := by
  show (keyFields.mapM i.get >>= fun parts => parts.mapM asKeyPart) = _
  rw [mapM_of_ok fun field hfield => (h field hfield).get, bind_ok, mapM_asKeyPart]
  refine ⟨rfl, fun v hv => ?_⟩
  obtain ⟨field, hfield, rfl⟩ := mem_map.mp hv
  exact ⟨(h field hfield).part.noItems, (h field hfield).part.noFields⟩

lemma sameList_parts (i j : Issue) :
    sameList (keyFields.map i.part) (keyFields.map j.part) = i.sameKey j := by
  unfold sameKey
  induction keyFields with
  | nil => rfl
  | cons field fields ih => rw [map_cons, map_cons, sameList_cons, ih]; rfl

lemma HasKey.sameKey_self (h : i.HasKey) : i.sameKey i = true :=
  all_eq_true.mpr fun field hfield => (h field hfield).part.alike_self

lemma HasKey.sameKey_symm (h : i.HasKey) (hij : i.sameKey j = true) : j.sameKey i = true :=
  all_eq_true.mpr fun field hfield =>
    (h field hfield).part.alike_symm (all_eq_true.mp hij field hfield)

lemma sameKey_trans (hij : i.sameKey j = true) (hjk : j.sameKey k = true) : i.sameKey k = true := by
  apply all_eq_true.mpr
  intro field hfield
  have h := alike_iff.mp (all_eq_true.mp hij field hfield)
  have h' := alike_iff.mp (all_eq_true.mp hjk field hfield)
  exact alike_iff.mpr (h.trans h')

end Issue

/-! ## The first issue with each key -/

/-- The issues with a key that no issue before them has. -/
def firsts (issues : List Issue) : List Issue :=
  (issues.zipIdx.filter fun p => (issues.take p.2).all fun j => !j.sameKey p.1).map (·.1)

/-- The issues with a key that no issue before them and none of `earlier` has. -/
def firstsAfter (earlier issues : List Issue) : List Issue :=
  (issues.zipIdx.filter fun p => (earlier ++ issues.take p.2).all fun j => !j.sameKey p.1).map (·.1)

lemma firsts_eq (issues : List Issue) : firsts issues = firstsAfter [] issues := rfl

section

variable {earlier : List Issue}

lemma firstsAfter_sublist (earlier issues : List Issue) :
    (firstsAfter earlier issues).Sublist issues := by
  have h := (filter_sublist (l := issues.zipIdx) (p := fun p =>
    (earlier ++ issues.take p.2).all fun j => !j.sameKey p.1)).map (·.1)
  rwa [zipIdx_map_fst] at h

lemma firsts_sublist (issues : List Issue) : (firsts issues).Sublist issues :=
  firstsAfter_sublist [] issues

lemma firstsAfter_cons (earlier : List Issue) (i : Issue) (issues : List Issue) :
    firstsAfter earlier (i :: issues) =
      if earlier.any (·.sameKey i) then firstsAfter (earlier ++ [i]) issues
      else i :: firstsAfter (earlier ++ [i]) issues := by
  have hrest : (((issues.zipIdx 1).filter fun p =>
      (earlier ++ (i :: issues).take p.2).all fun j => !j.sameKey p.1).map (·.1)) =
        firstsAfter (earlier ++ [i]) issues := by
    have hshift : issues.zipIdx 1 = issues.zipIdx.map fun p => (p.1, p.2 + 1) := by
      rw [zipIdx_succ]
    rw [hshift, filter_map, map_map, firstsAfter]
    simp [Function.comp_def]
  have hfirst : ((earlier ++ (i :: issues).take 0).all fun j => !j.sameKey i) =
      !earlier.any (·.sameKey i) := by
    rw [take_zero, append_nil, not_any_eq_all_not]
  rw [firstsAfter, zipIdx_cons, filter_cons, hfirst, ← hrest]
  cases earlier.any (·.sameKey i) <;> rfl

lemma not_sameKey_firstsAfter (hi : i ∈ earlier)
    (hj : j ∈ firstsAfter earlier issues) : i.sameKey j = false := by
  obtain ⟨p, hp, rfl⟩ := mem_map.mp hj
  have hall := all_eq_true.mp (mem_filter.mp hp).2 i (mem_append_left _ hi)
  simpa using hall

lemma pairwise_firstsAfter (earlier issues : List Issue) :
    (firstsAfter earlier issues).Pairwise fun i j => i.sameKey j = false := by
  induction issues generalizing earlier with
  | nil => exact .nil
  | cons i issues ih =>
    rw [firstsAfter_cons]
    split
    · exact ih _
    · apply pairwise_cons.mpr
      constructor
      · intro j hj
        exact not_sameKey_firstsAfter (mem_append_right _ (mem_singleton_self i)) hj
      · exact ih _

lemma firstsAfter_eq_self (hearlier : ∀ i ∈ earlier, ∀ j ∈ issues, i.sameKey j = false)
    (h : issues.Pairwise fun i j => i.sameKey j = false) : firstsAfter earlier issues = issues := by
  induction issues generalizing earlier with
  | nil => rfl
  | cons i issues ih =>
    obtain ⟨hi, hissues⟩ := pairwise_cons.mp h
    have hnew : earlier.any (·.sameKey i) = false := by
      rw [any_eq_false]
      intro j hj
      simp [hearlier j hj i (.head _)]
    rw [firstsAfter_cons, hnew, ih _ hissues]
    · rfl
    · intro j hj k hk
      rcases mem_append.mp hj with hj | hj
      · exact hearlier j hj k (.tail _ hk)
      · rw [mem_singleton.mp hj]
        exact hi k hk

/-- Going through the issues, keys that were seen stand for the issues that were. -/
lemma firstOfEach_eq {seen : List (List Value)} (hissues : ∀ i ∈ issues, i.HasKey)
    (hseen : ∀ i : Issue, i.HasKey →
      seen.any (sameList (keyFields.map i.part)) = earlier.any (·.sameKey i)) :
    firstOfEach seen (issues.map fun i => (keyFields.map i.part, i)) =
      firstsAfter earlier issues := by
  induction issues generalizing seen earlier with
  | nil => rfl
  | cons i issues ih =>
    obtain ⟨hi, hissues⟩ := forall_mem_cons.mp hissues
    rw [map_cons, firstOfEach, firstsAfter_cons, hseen i hi]
    split
    · rename_i hold
      obtain ⟨k, hk, hki⟩ := any_eq_true.mp hold
      refine ih hissues fun j hj => ?_
      -- an issue with the key of `i` has that of an earlier one
      have hcovered : i.sameKey j = true → earlier.any (·.sameKey j) = true := fun hij =>
        any_eq_true.mpr ⟨k, hk, sameKey_trans hki hij⟩
      rw [hseen j hj, any_append]
      cases hij : i.sameKey j with
      | true => simp [hcovered hij]
      | false => simp [hij]
    · congr 1
      refine ih hissues fun j hj => ?_
      have hswap : j.sameKey i = i.sameKey j :=
        Bool.eq_iff_iff.mpr ⟨hj.sameKey_symm, hi.sameKey_symm⟩
      rw [any_cons, hseen j hj, sameList_parts, hswap, any_append, Bool.or_comm]
      simp

end

section

lemma mem_firsts : j ∈ firsts issues ↔
      ∃ before after, issues = before ++ j :: after ∧ ∀ k ∈ before, k.sameKey j = false := by
  have hmem : j ∈ firsts issues ↔
      ∃ n, issues[n]? = some j ∧ ∀ k ∈ issues.take n, k.sameKey j = false := by
    simp [firsts, mk_mem_zipIdx_iff_getElem?]
  rw [hmem]
  constructor
  · rintro ⟨n, hn, hbefore⟩
    obtain ⟨hlt, rfl⟩ := List.getElem?_eq_some_iff.mp hn
    exact ⟨issues.take n, issues.drop (n + 1), by simp, hbefore⟩
  · rintro ⟨before, after, rfl, hbefore⟩
    exact ⟨before.length, by simp, by simpa using hbefore⟩

lemma find?_eq_some_iff (hkeys : ∀ k ∈ issues, k.HasKey) :
    issues.find? (·.sameKey i) = some j ↔ j ∈ firsts issues ∧ j.sameKey i = true := by
  rw [find?_eq_some_iff_append, mem_firsts]
  constructor
  · rintro ⟨hsame, before, after, hsplit, hbefore⟩
    refine ⟨⟨before, after, hsplit, fun k hk => eq_false_iff.mpr fun hkj => ?_⟩, hsame⟩
    have hki := sameKey_trans hkj hsame
    simpa [hki] using hbefore k hk
  · rintro ⟨⟨before, after, rfl, hbefore⟩, hsame⟩
    have hj : j.HasKey := hkeys j (mem_append_right _ (.head _))
    refine ⟨hsame, before, after, rfl, fun k hk => ?_⟩
    rw [not_eq_true', eq_false_iff]
    intro hki
    have hkj := sameKey_trans hki (hj.sameKey_symm hsame)
    simp [hbefore k hk] at hkj

end

/-- Among the first issues of each key, in any order, none has a key again. -/
lemma firsts_of_perm (hkeys : ∀ i ∈ result, i.HasKey)
    (h : result.Perm (firsts issues)) : firsts result = result := by
  -- both ways round, so that the order does not count
  have hpairs : (firsts issues).Pairwise fun i j => i.sameKey j = false ∧ j.sameKey i = false := by
    refine (pairwise_firstsAfter [] issues).imp_of_mem ?_
    intro i j _ hj hij
    refine ⟨hij, eq_false_iff.mpr fun hji => ?_⟩
    simp [(hkeys j (h.mem_iff.mpr hj)).sameKey_symm hji] at hij
  have hresult := h.symm.pairwise hpairs And.symm
  exact firstsAfter_eq_self (forall_mem_nil _) (hresult.imp And.left)

lemma dedupe_eq (h : ∀ i ∈ issues, i.HasKey) : dedupe issues = .ok (firsts issues) := by
  have hkeys : ∀ i ∈ issues,
      (do return (← i.key, i) : Outcome _) = .ok (keyFields.map i.part, i) := by
    intro i hi
    rw [(h i hi).key]
    rfl
  rw [dedupe, mapM_of_ok hkeys, bind_ok, firsts_eq]
  exact congrArg Except.ok (firstOfEach_eq h fun _ _ => rfl)

/-! ## Which priority is lower -/

namespace Priority

variable {p q r : Priority}

lemma lower_of_rank_lt (h : p.rank < q.rank) : p.lower q = .ok true := by
  rw [lower, if_pos (by simpa using Nat.ne_of_lt h)]
  exact congrArg Except.ok (decide_eq_true h)

lemma lower_of_rank_gt (h : q.rank < p.rank) : p.lower q = .ok false := by
  rw [lower, if_pos (by simpa using Nat.ne_of_gt h)]
  exact congrArg Except.ok (decide_eq_false (Nat.lt_asymm h))

lemma lower_of_rank_eq (h : p.rank = q.rank) : p.lower q =
      if p.confidence.same q.confidence then .ok false else p.confidence.less q.confidence := by
  rw [lower, if_neg (by simpa using h)]

lemma lower_of_same (h : p.rank = q.rank) (hsame : p.confidence.same q.confidence = true) :
    p.lower q = .ok false := by
  rw [lower_of_rank_eq h, if_pos hsame]

lemma lower_of_less (h : p.rank = q.rank) (hless : p.confidence.less q.confidence = .ok true) :
    p.lower q = .ok true := by
  have hsame := (less_iff.mp hless).not_alike
  rw [alike, or_eq_false_iff] at hsame
  rw [lower_of_rank_eq h, hsame.1]
  exact hless

lemma lower_eq_true : p.lower q = .ok true ↔
      p.rank < q.rank ∨ p.rank = q.rank ∧ p.confidence.less q.confidence = .ok true := by
  rcases Nat.lt_trichotomy p.rank q.rank with h | h | h
  · simp [lower_of_rank_lt h, h]
  · constructor
    · intro hlower
      rw [lower_of_rank_eq h] at hlower
      split at hlower
      · cases hlower
      · exact .inr ⟨h, hlower⟩
    · rintro (hlt | ⟨_, hless⟩)
      · exact absurd h (Nat.ne_of_lt hlt)
      · exact lower_of_less h hless
  · simp [lower_of_rank_gt h, Nat.ne_of_gt h, Nat.lt_asymm h]

lemma lower_eq_false (hcomparable : p.confidence.Comparable q.confidence) :
    p.lower q = .ok false ↔ q.rank < p.rank ∨ p.rank = q.rank ∧
        ((p.confidence.same q.confidence = true ∧ q.confidence.same p.confidence = true) ∨
          q.confidence.less p.confidence = .ok true) := by
  rcases Nat.lt_trichotomy p.rank q.rank with h | h | h
  · simp [lower_of_rank_lt h, Nat.ne_of_lt h, Nat.lt_asymm h]
  · constructor
    · intro hlower
      refine .inr ⟨h, ?_⟩
      rcases hcomparable with hsame | ⟨hless, _⟩ | ⟨_, hless⟩
      · exact .inl hsame
      · rw [lower_of_less h hless] at hlower
        cases hlower
      · exact .inr hless
    · rintro (hlt | ⟨_, hsame | hless⟩)
      · exact absurd h (Nat.ne_of_gt hlt)
      · exact lower_of_same h hsame.1
      · rcases hcomparable with ⟨hsame, _⟩ | ⟨_, hnot⟩ | ⟨hnot, _⟩
        · exact lower_of_same h hsame
        · rw [hless] at hnot
          cases hnot
        · rw [lower_of_rank_eq h, hnot, ite_self]
  · simp [lower_of_rank_gt h, h]

lemma lower_total (h : p.confidence.Comparable q.confidence) : ∃ t, p.lower q = .ok t := by
  rcases Nat.lt_trichotomy p.rank q.rank with hrank | hrank | hrank
  · exact ⟨true, lower_of_rank_lt hrank⟩
  · rcases h with ⟨hsame, _⟩ | ⟨hless, _⟩ | h
    · exact ⟨false, lower_of_same hrank hsame⟩
    · exact ⟨true, lower_of_less hrank hless⟩
    · exact ⟨false, (lower_eq_false (.inr (.inr h))).mpr (.inr ⟨hrank, .inr h.2⟩)⟩
  · exact ⟨false, lower_of_rank_gt hrank⟩

lemma lower_asymm (hcomparable : p.confidence.Comparable q.confidence)
    (h : p.lower q = .ok true) : q.lower p = .ok false := by
  apply (lower_eq_false hcomparable.symm).mpr
  rcases lower_eq_true.mp h with hrank | ⟨hrank, hless⟩
  · exact .inl hrank
  · exact .inr ⟨hrank.symm, .inr hless⟩

lemma lower_of_lower (hcomparable : p.confidence.Comparable q.confidence)
    (hpq : p.lower q = .ok false) (hpr : p.lower r = .ok true) : q.lower r = .ok true := by
  apply lower_eq_true.mpr
  rcases (lower_eq_false hcomparable).mp hpq with hrank | ⟨hrank, hle⟩
  · rcases lower_eq_true.mp hpr with hrank' | ⟨hrank', _⟩
    · exact .inl (Nat.lt_trans hrank hrank')
    · exact .inl (hrank'.symm ▸ hrank)
  · rcases lower_eq_true.mp hpr with hrank' | ⟨hrank', hless⟩
    · exact .inl (hrank ▸ hrank')
    · refine .inr ⟨hrank.symm.trans hrank', less_iff.mpr ?_⟩
      rcases hle with ⟨_, hsame⟩ | hless'
      · exact (rises_of_same hsame).trans (less_iff.mp hless)
      · exact (less_iff.mp hless').trans (less_iff.mp hless)

end Priority

/-! ## Sorting -/

namespace Issue

def confidence (i : Issue) : Value := (i.find? "confidence_score").getD (.real 0.5)

def rating (i : Issue) : Priority := ⟨severityRank (i.part "severity"), i.confidence⟩

def rated (i : Issue) : Priority × Issue := (i.rating, i)

/-- The confidences of the issues can be compared. -/
def Comparable (i j : Issue) : Prop := i.confidence.Comparable j.confidence

instance : DecidableRel Comparable := fun i j =>
  inferInstanceAs (Decidable (i.confidence.Comparable j.confidence))

def NotLower (i j : Issue) : Prop := i.rating.lower j.rating = .ok false

lemma Comparable.symm (h : i.Comparable j) : j.Comparable i :=
  Value.Comparable.symm h

lemma priority_eq_ok {p : Priority} : i.priority = .ok p ↔ i.HasAtom "severity" ∧ p = i.rating := by
  constructor
  · intro h
    obtain ⟨v, hv, hgraded⟩ := bind_eq_ok h
    obtain ⟨w, hw, hp⟩ := bind_eq_ok hgraded
    obtain ⟨rfl, hlist, hfields⟩ := asKeyPart_eq_ok.mp hw
    rw [get_eq_ok] at hv
    refine ⟨⟨w, hv, hlist, hfields⟩, ?_⟩
    rw [rating, part, hv]
    exact (Except.ok.inj hp).symm
  · rintro ⟨h, rfl⟩
    have hpart := asKeyPart_eq_ok.mpr ⟨rfl, h.part.noItems, h.part.noFields⟩
    rw [priority, h.get, bind_ok, hpart]
    rfl

end Issue

/-- `sorted` has the issues of `issues` with no lower one before a higher one, and the order of
`issues` wherever it could be kept. -/
structure IsSorting (issues sorted : List Issue) : Prop where
  perm : sorted.Perm issues
  ordered : sorted.Pairwise Issue.NotLower
  stable : ∀ i j, [i, j].Sublist issues → i.NotLower j → [i, j].Sublist sorted

section

variable {sorted : List Issue}

lemma insertByPriority_cons (sorted : List Issue) {t : Bool}
    (h : j.rating.lower i.rating = .ok t) :
    insertByPriority i.rated ((j :: sorted).map rated) =
      if t then .ok ((i :: j :: sorted).map rated)
      else (insertByPriority i.rated (sorted.map rated)).map (j.rated :: ·) := by
  rw [map_cons, insertByPriority]
  show (j.rating.lower i.rating >>= fun _ => _) = _
  rw [h, bind_ok]
  cases t <;> rfl

lemma insertByPriority_eq (hi : ∀ j ∈ sorted, j.Comparable i)
    (hcomparable : sorted.Pairwise Issue.Comparable) (hordered : sorted.Pairwise Issue.NotLower) :
    ∃ before after, sorted = before ++ after ∧ insertByPriority i.rated (sorted.map rated) =
        .ok ((before ++ i :: after).map rated) ∧
      (∀ j ∈ before, j.NotLower i) ∧ ∀ j ∈ after, j.rating.lower i.rating = .ok true := by
  induction sorted with
  | nil => exact ⟨[], [], rfl, rfl, forall_mem_nil _, forall_mem_nil _⟩
  | cons j sorted ih =>
    rw [forall_mem_cons] at hi
    rw [pairwise_cons] at hcomparable hordered
    obtain ⟨t, ht⟩ := Priority.lower_total (p := j.rating) (q := i.rating) hi.1
    have hinsert := insertByPriority_cons sorted ht
    cases t with
    | true =>
      refine ⟨[], j :: sorted, rfl, hinsert, forall_mem_nil _, forall_mem_cons.mpr ?_⟩
      refine ⟨ht, fun k hk => ?_⟩
      exact Priority.lower_of_lower (p := j.rating) (hcomparable.1 k hk) (hordered.1 k hk) ht
    | false =>
      obtain ⟨before, after, hsplit, heq, hbefore, hafter⟩ := ih hi.2 hcomparable.2 hordered.2
      refine ⟨j :: before, after, congrArg (j :: ·) hsplit, ?_, ?_, hafter⟩
      · rw [hinsert, heq]
        rfl
      · exact forall_mem_cons.mpr ⟨ht, hbefore⟩

lemma IsSorting.insert (h : IsSorting issues sorted)
    (hcomparable : (issues ++ [i]).Pairwise Issue.Comparable) :
    ∃ more, insertByPriority i.rated (sorted.map rated) = .ok (more.map rated) ∧
      IsSorting (issues ++ [i]) more := by
  rw [pairwise_append] at hcomparable
  have hi : ∀ j ∈ sorted, j.Comparable i := fun j hj =>
    hcomparable.2.2 j (h.perm.mem_iff.mp hj) i (mem_singleton_self i)
  have hsorted : sorted.Pairwise Issue.Comparable :=
    h.perm.symm.pairwise hcomparable.1 Issue.Comparable.symm
  obtain ⟨before, after, rfl, heq, hbefore, hafter⟩ := insertByPriority_eq hi hsorted h.ordered
  refine ⟨before ++ i :: after, heq, ?_, ?_, ?_⟩
  · exact perm_middle.trans ((h.perm.cons i).trans (perm_append_singleton i issues).symm)
  · obtain ⟨hordered, hordered', hacross⟩ := pairwise_append.mp h.ordered
    refine pairwise_append.mpr ⟨hordered, pairwise_cons.mpr ⟨?_, hordered'⟩, ?_⟩
    · intro j hj
      exact Priority.lower_asymm (p := j.rating) (q := i.rating)
        (hi j (mem_append_right _ hj)) (hafter j hj)
    · intro j hj k hk
      rcases mem_cons.mp hk with rfl | hk
      · exact hbefore j hj
      · exact hacross j hj k hk
  · intro j k hjk hnot
    obtain ⟨old, new, hsplit, hold, hnew⟩ := sublist_append_iff.mp hjk
    rcases sublist_singleton.mp hnew with rfl | rfl
    · rw [append_nil] at hsplit
      have hkept := h.stable j k (hsplit ▸ hold) hnot
      exact hkept.trans ((sublist_cons_self i after).append_left before)
    · -- the issue put in is the second: what ties with it or leads it stands before it
      have hsplit : [j] ++ [k] = old ++ [i] := hsplit
      obtain ⟨rfl, hk⟩ := append_inj' hsplit rfl
      cases hk
      have hj : j ∈ before ++ after := h.perm.mem_iff.mpr (singleton_sublist.mp hold)
      rcases mem_append.mp hj with hj | hj
      · exact (singleton_sublist.mpr hj).append ((nil_sublist after).cons_cons i)
      · rw [Issue.NotLower, hafter j hj] at hnot
        cases hnot

lemma IsSorting.foldlM (h : IsSorting issues sorted) (rest : List Issue)
    (hcomparable : (issues ++ rest).Pairwise Issue.Comparable) :
    ∃ result, (rest.map rated).foldlM (fun acc x => insertByPriority x acc)
        (sorted.map rated) = Except.ok (result.map rated) ∧
      IsSorting (issues ++ rest) result := by
  induction rest generalizing issues sorted with
  | nil => exact ⟨sorted, rfl, by rwa [append_nil]⟩
  | cons i rest ih =>
    have hcons : issues ++ i :: rest = (issues ++ [i]) ++ rest := append_cons ..
    rw [hcons] at hcomparable ⊢
    obtain ⟨more, hmore, hsorting⟩ := h.insert (pairwise_append.mp hcomparable).1
    rw [map_cons, foldlM_cons, hmore, bind_ok]
    exact ih hsorting hcomparable

lemma insert_at_end (h : ∀ j ∈ sorted, j.NotLower i) :
    insertByPriority i.rated (sorted.map rated) = .ok ((sorted ++ [i]).map rated) := by
  induction sorted with
  | nil => rfl
  | cons j sorted ih =>
    rw [forall_mem_cons] at h
    rw [insertByPriority_cons sorted h.1, ih h.2]
    rfl

lemma foldlM_of_ordered (sorted rest : List Issue)
    (h : (sorted ++ rest).Pairwise Issue.NotLower) :
    (rest.map rated).foldlM (fun acc x => insertByPriority x acc) (sorted.map rated) =
      Except.ok ((sorted ++ rest).map rated) := by
  induction rest generalizing sorted with
  | nil => rw [append_nil]; rfl
  | cons i rest ih =>
    rw [append_cons] at h ⊢
    have hi : ∀ j ∈ sorted, j.NotLower i := fun j hj =>
      (pairwise_append.mp (pairwise_append.mp h).1).2.2 j hj i (mem_singleton_self i)
    rw [map_cons, foldlM_cons, insert_at_end hi, bind_ok]
    exact ih _ h

end

section

variable (hgraded : ∀ i ∈ issues, i.HasAtom "severity")

include hgraded

lemma prioritize_eq : prioritize issues = (do
      let sorted ← (issues.map rated).foldlM (fun acc x => insertByPriority x acc) []
      return sorted.map (·.2)) := by
  have hrated : ∀ i ∈ issues, (do return (← i.priority, i) : Outcome _) = .ok i.rated := by
    intro i hi
    rw [priority_eq_ok.mpr ⟨hgraded i hi, rfl⟩]
    rfl
  rw [prioritize, mapM_of_ok hrated, bind_ok]

lemma prioritize_of_foldlM
    (h : (issues.map rated).foldlM (fun acc x => insertByPriority x acc) [] =
      Except.ok (result.map rated)) : prioritize issues = .ok result := by
  rw [prioritize_eq hgraded, h, bind_ok, map_map]
  exact congrArg Except.ok (map_id result)

lemma exists_prioritize (hcomparable : issues.Pairwise Issue.Comparable) :
    ∃ result, prioritize issues = .ok result ∧ IsSorting issues result := by
  have hnil : IsSorting [] [] := ⟨.nil, .nil, fun _ _ h _ => h⟩
  obtain ⟨result, hresult, hsorting⟩ := hnil.foldlM issues hcomparable
  exact ⟨result, prioritize_of_foldlM hgraded hresult, hsorting⟩

lemma prioritize_of_ordered (h : issues.Pairwise Issue.NotLower) : prioritize issues = .ok issues :=
  prioritize_of_foldlM hgraded (foldlM_of_ordered [] issues h)

end

lemma hasAtom_of_prioritize (h : prioritize issues = .ok result) :
    ∀ i ∈ issues, i.HasAtom "severity" := by
  intro i hi
  obtain ⟨keyed, hkeyed, _⟩ := bind_eq_ok h
  obtain ⟨x, hx⟩ := ok_of_mapM hkeyed i hi
  obtain ⟨p, hp, _⟩ := bind_eq_ok hx
  exact (priority_eq_ok.mp hp).1

/-! ## The order of the result -/

namespace Issue

/-- The severity that an issue names; low if it names none. -/
def severity (i : Issue) : Severity := ((i.part "severity").text?.bind ofName?).getD .low

/-- `i` may stand before `j`: it is at least as severe, and at least as certain if it is no more
severe. -/
structure Leads (i j : Issue) : Prop where
  severity : all.idxOf i.severity ≤ all.idxOf j.severity
  confidence : i.severity = j.severity →
    i.confidence.same j.confidence = true ∨ j.confidence.less i.confidence = .ok true

/-- The issues are equally severe and certain. -/
structure Ties (i j : Issue) : Prop where
  severity : i.severity = j.severity
  confidence : i.confidence.same j.confidence = true

lemma rank_rating (i : Issue) : i.rating.rank + all.idxOf i.severity = 4 := by
  show severityRank (i.part "severity") + all.idxOf i.severity = 4
  unfold severityRank severity
  cases (i.part "severity").text?.bind ofName? with
  | none => rfl
  | some s => cases s <;> rfl

lemma rank_eq_iff : i.rating.rank = j.rating.rank ↔ i.severity = j.severity := by
  have hi := i.rank_rating
  have hj := j.rank_rating
  constructor
  · intro h
    have hidx : all.idxOf i.severity = all.idxOf j.severity := by omega
    exact (idxOf_inj (by cases i.severity <;> decide)).mp hidx
  · intro h
    rw [h] at hi
    omega

lemma NotLower.leads (h : i.NotLower j) (hcomparable : i.Comparable j) : i.Leads j := by
  have hi := i.rank_rating
  have hj := j.rank_rating
  rcases (Priority.lower_eq_false (p := i.rating) (q := j.rating) hcomparable).mp h with
    hrank | ⟨hrank, hle⟩
  · refine ⟨by omega, fun hsame => ?_⟩
    have := rank_eq_iff.mpr hsame
    omega
  · refine ⟨by omega, fun _ => ?_⟩
    rcases hle with ⟨hsame, _⟩ | hless
    · exact .inl hsame
    · exact .inr hless

lemma Ties.notLower (h : i.Ties j) : i.NotLower j :=
  Priority.lower_of_same (rank_eq_iff.mpr h.severity) h.confidence

end Issue

/-- `result` has the first issue of each key in `issues` and no other, by severity and confidence;
issues that tie have kept their order. -/
structure IsRanking (issues result : List Issue) : Prop where
  firsts : result.Perm (firsts issues)
  ordered : result.Pairwise Issue.Leads
  stable : ∀ i j, [i, j].Sublist (Analysis.firsts issues) → i.Ties j → [i, j].Sublist result

/-- Issues with keys and comparable confidences are ranked, and so that ranking again changes
nothing, exactly if the issues that stay have severities that are neither lists nor objects. -/
theorem ranking_iff_graded {issues : List Issue} (hkeys : ∀ i ∈ issues, i.HasKey)
    (hcomparable : issues.Pairwise Issue.Comparable) :
    (∃ result, (do prioritize (← dedupe issues)) = .ok result ∧ IsRanking issues result ∧
        (do prioritize (← dedupe result)) = .ok result) ↔
      ∀ i ∈ firsts issues, i.HasAtom "severity" := by
  have hsublist := firsts_sublist issues
  rw [dedupe_eq hkeys]
  constructor
  · rintro ⟨result, hresult, _⟩
    exact hasAtom_of_prioritize hresult
  · intro hgraded
    have hpairs := hcomparable.sublist hsublist
    obtain ⟨result, hresult, hsorting⟩ := exists_prioritize hgraded hpairs
    have hresultPairs : result.Pairwise Issue.Comparable :=
      hsorting.perm.symm.pairwise hpairs Issue.Comparable.symm
    have hmem {i : Issue} (hi : i ∈ result) : i ∈ firsts issues := hsorting.perm.mem_iff.mp hi
    have hresultKeys : ∀ i ∈ result, i.HasKey := fun i hi => hkeys i (hsublist.subset (hmem hi))
    refine ⟨result, hresult, ⟨hsorting.perm, ?_, ?_⟩, ?_⟩
    · exact (hsorting.ordered.and hresultPairs).imp fun h => h.1.leads h.2
    · exact fun i j hij hties => hsorting.stable i j hij hties.notLower
    · rw [dedupe_eq hresultKeys, firsts_of_perm hresultKeys hsorting.perm, Outcome.bind_ok]
      exact prioritize_of_ordered (fun i hi => hgraded i (hmem hi)) hsorting.ordered

def noted (title : String) (line : Value) (more : Fields) : Issue :=
  { fields := [("title", .text title), ("file_path", .text "a.py"), ("line_start", line),
      ("category", .text "style")] ++ more }

def mixed : List Issue :=
  [noted "long line" (.int 1) [("severity", .text "low"), ("confidence_score", .real 0.5)],
    noted "tab" (.int 2) [("severity", .text "critical"), ("confidence_score", .int 1)],
    noted "long line" (.real 1) [("severity", .text "high"), ("confidence_score", .int 0)],
    noted "blank" .null [("severity", .null)]]

theorem mixed_ranked : (∀ i ∈ mixed, i.HasKey) ∧ mixed.Pairwise Issue.Comparable ∧
      (∀ i ∈ firsts mixed, i.HasAtom "severity") ∧ (firsts mixed).length = 3 ∧
      ∃ result, (do prioritize (← dedupe mixed)) = .ok result ∧ IsRanking mixed result ∧
        (do prioritize (← dedupe result)) = .ok result := by
  have hkeys : ∀ i ∈ mixed, i.HasKey := by decide +kernel
  have hcomparable : mixed.Pairwise Issue.Comparable := by decide +kernel
  have hgraded : ∀ i ∈ firsts mixed, i.HasAtom "severity" := by decide +kernel
  exact ⟨hkeys, hcomparable, hgraded, by decide +kernel,
    (ranking_iff_graded hkeys hcomparable).mpr hgraded⟩

end ReviewDesk.Analysis
