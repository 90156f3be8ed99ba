import ReviewDesk.Lint.Program
import ReviewDesk.Proofs.DeclarationLines

/-!
# Suggested names

What is suggested for a badly named function or class is in the wanted form, unless the name has no
letter where that form needs one.
-/

namespace ReviewDesk.Lint

open List Text Source

/-- A character of a name in ASCII. -/
abbrev IsPart (c : Char) : Prop := c.toNat < 128 ∧ isNamePart c = true

/-- An identifier in ASCII. -/
structure IsName (cs : Chars) : Prop where
  part : ∀ c ∈ cs, IsPart c
  start : ∃ c ∈ cs.head?, isNameStart c = true

/-! ## Letters in ASCII -/

section

variable {c : Char} (hc : IsPart c)
include hc

@[elab_as_elim]
lemma IsPart.elim {p : Char → Prop}
    (h : ∀ n ∈ List.range 128, isNamePart (Char.ofNat n) = true → p (Char.ofNat n)) : p c := by
  have hp := h c.toNat (mem_range.mpr hc.1)
  rw [Char.ofNat_toNat] at hp
  exact hp hc.2

lemma IsPart.toLower : IsPart c.toLower := hc.elim (by decide +kernel)

lemma IsPart.toUpper : IsPart c.toUpper := hc.elim (by decide +kernel)

lemma isNameStart_toLower : isNameStart c.toLower = isNameStart c := hc.elim (by decide +kernel)

lemma isNameStart_toUpper : c.isAlpha = true → isNameStart c.toUpper = true :=
  hc.elim (by decide +kernel)

lemma isLowerLetter_toLower : isLowerLetter c.toLower = c.isAlpha := hc.elim (by decide +kernel)

lemma isUpperLetter_toUpper : isUpperLetter c.toUpper = c.isAlpha := hc.elim (by decide +kernel)

lemma not_capital_toLower : (!isUpperLetter c.toLower && !isTitleLetter c.toLower) = true :=
  hc.elim (by decide +kernel)

lemma ne_underscore : c ≠ '_' → c.toUpper ≠ '_' ∧ c.toLower ≠ '_' := hc.elim (by decide +kernel)

end

section

variable {cs before : Chars}

lemma lowerFrom_of_parts (hcs : ∀ c ∈ cs, IsPart c) :
    lowerFrom before cs = cs.map Char.toLower := by
  induction cs generalizing before with
  | nil => rfl
  | cons c cs ih =>
    obtain ⟨hc, hcs⟩ := forall_mem_cons.mp hcs
    rw [lowerFrom, if_pos hc.1, ih hcs, map_cons]

lemma isSnake_map_toLower (hcs : ∀ c ∈ cs, IsPart c) :
    isSnake (cs.map Char.toLower) = true ↔ ∃ c ∈ cs, c.isAlpha = true := by
  have hsmall : (cs.map Char.toLower).all (fun c => !isUpperLetter c && !isTitleLetter c) = true :=
    all_eq_true.mpr (forall_mem_map.mpr fun c hc => not_capital_toLower (hcs c hc))
  rw [isSnake, isLowerCase, hsmall, Bool.and_true, any_map, any_eq_true]
  refine exists_congr fun c => and_congr_right fun hc => ?_
  rw [Function.comp_apply, isLowerLetter_toLower (hcs c hc)]

lemma IsName.map_toLower (hcs : IsName cs) : IsName (cs.map Char.toLower) := by
  obtain ⟨hpart, c, hc, hstart⟩ := hcs
  refine ⟨forall_mem_map.mpr fun c hc => (hpart c hc).toLower, c.toLower, ?_, ?_⟩
  · rw [head?_map, hc]
    rfl
  · rw [isNameStart_toLower (hpart c (mem_of_mem_head? hc)), hstart]

end

/-! ## Names of functions -/

section

variable {cs ds : Chars} {p : Pattern}

/-- `ds` is `cs` with underscores put in or taken out behind the first character. -/
structure Respaced (cs ds : Chars) : Prop where
  head : ds.head? = cs.head?
  rest : ds.filter (· != '_') = cs.filter (· != '_')

lemma Respaced.mem_iff (h : Respaced cs ds) {c : Char} (hc : c ≠ '_') : c ∈ ds ↔ c ∈ cs := by
  have hmem := congrArg (c ∈ ·) h.rest
  simpa [mem_filter, hc] using hmem

lemma respaced_replaceFrom (hp : ¬p.Spells []) {f : Match → Chars}
    (hf : ∀ m c w, m.text = c :: w → f m = c :: '_' :: w) (skip : Nat) (before : Option Char)
    (n : Nat) (r : Chars) : Respaced (r.drop skip) (p.replaceFrom f skip before n r) := by
  fun_induction Pattern.replaceFrom p f skip before n r with
  | case1 => exact ⟨by simp, by simp⟩
  | case2 skip before n c r ih => exact ih
  | case3 before n c r m hm ih =>
    obtain ⟨hspells, ⟨rest, hrest⟩, -, hstop⟩ := Pattern.of_matchAt hm
    -- What is spelled is not empty, and an underscore comes in behind its first character.
    cases htext : m.text with
    | nil => exact absurd (htext ▸ hspells) hp
    | cons d w =>
      rw [htext] at hrest hstop
      obtain ⟨rfl, hr⟩ := cons.inj hrest
      have hskip : m.stop - m.start - 1 = w.length := by
        rw [hstop, length_cons]
        omega
      replace hr : r = w ++ rest := hr.symm
      rw [hskip, hr, drop_left] at ih
      rw [hf m d w htext, hskip, hr]
      exact ⟨rfl, by simp [filter_cons, ih.rest]⟩
  | case4 before n c r hm ih => exact ⟨rfl, by simp [filter_cons, ih.rest]⟩

lemma respaced_underscored (hp : ¬p.Spells []) (cs : Chars) : Respaced cs (underscored p cs) :=
  respaced_replaceFrom hp (fun m c w h => by rw [h]; rfl) 0 none 0 cs

lemma IsName.respaced (hcs : IsName cs) (h : Respaced cs ds) : IsName ds := by
  refine ⟨fun c hc => ?_, h.head ▸ hcs.start⟩
  by_cases hunder : c = '_'
  · subst hunder
    exact ⟨by decide, by decide⟩
  · exact hcs.part c ((h.mem_iff hunder).mp hc)

lemma toSnake_passes_iff (hcs : IsName cs) :
    IsName (toSnake cs) ∧ (isSnake (toSnake cs) = true ↔ ∃ c ∈ cs, c.isAlpha = true) := by
  have hstart : ¬wordStart.Spells [] := by rintro ⟨u, v, ⟨c, -, rfl⟩, -, h⟩; cases h
  have hhump : ¬hump.Spells [] := by rintro ⟨u, v, ⟨c, -, rfl⟩, -, h⟩; cases h
  have h₁ := respaced_underscored hstart cs
  have h₂ := respaced_underscored hhump (underscored wordStart cs)
  have hname := (hcs.respaced h₁).respaced h₂
  rw [toSnake, lower, lowerFrom_of_parts hname.part]
  refine ⟨hname.map_toLower, (isSnake_map_toLower hname.part).trans (exists_congr fun c => ?_)⟩
  refine and_congr_left fun hc => ?_
  have hne : c ≠ '_' := fun h => absurd (h ▸ hc) (by decide)
  rw [h₂.mem_iff hne, h₁.mem_iff hne]

end

/-! ## Names of classes -/

section

variable {cs : Chars} {ws : List Chars}

lemma flatten_splitFrom (piece cs : Chars) :
    (splitFrom ['_'] 0 piece cs).flatten = piece.reverse ++ cs.filter (· != '_') := by
  induction cs generalizing piece with
  | nil => simp [splitFrom]
  | cons c cs ih =>
    by_cases hc : c = '_'
    · simp [splitFrom, isPrefixOf, hc, ih]
    · simp [splitFrom, isPrefixOf, hc, Ne.symm hc, ih]

lemma capitalize_of_parts {c : Char} {w : Chars} (hw : ∀ x ∈ c :: w, IsPart x) :
    capitalize (c :: w) = c.toUpper :: w.map Char.toLower := by
  obtain ⟨hc, hw⟩ := forall_mem_cons.mp hw
  rw [capitalize, titleForm, if_pos hc.1, lowerFrom_of_parts hw, singleton_append]

lemma capitalized (hws : ∀ c ∈ ws.flatten, IsPart c) :
    (ws.flatMap capitalize).head? = ws.flatten.head?.map Char.toUpper ∧
      ∀ x ∈ ws.flatMap capitalize, ∃ c ∈ ws.flatten, x = c.toUpper ∨ x = c.toLower := by
  induction ws with
  | nil => exact ⟨rfl, by simp⟩
  | cons w ws ih =>
    rw [flatten_cons, forall_mem_append] at hws
    obtain ⟨hhead, hmem⟩ := ih hws.2
    cases w with
    | nil => exact ⟨hhead, hmem⟩
    | cons c w =>
      rw [flatMap_cons, capitalize_of_parts hws.1]
      refine ⟨rfl, fun x hx => ?_⟩
      rcases mem_append.mp hx with hx | hx
      · rcases mem_cons.mp hx with rfl | hx
        · exact ⟨c, by simp, .inl rfl⟩
        · obtain ⟨d, hd, rfl⟩ := mem_map.mp hx
          exact ⟨d, by simp [hd], .inr rfl⟩
      · obtain ⟨d, hd, h⟩ := hmem x hx
        exact ⟨d, mem_append_right _ hd, h⟩

lemma toPascal_form (hcs : IsName cs) :
    (toPascal cs).head? = (cs.find? (· != '_')).map Char.toUpper ∧
      ∀ x ∈ toPascal cs, IsPart x ∧ x ≠ '_' := by
  have hflat : (splitAtText ['_'] cs).flatten = cs.filter (· != '_') := flatten_splitFrom [] cs
  have hparts : ∀ c ∈ cs.filter (· != '_'), IsPart c ∧ c ≠ '_' := fun c hc => by
    obtain ⟨hc, hne⟩ := mem_filter.mp hc
    exact ⟨hcs.part c hc, by simpa using hne⟩
  obtain ⟨hhead, hmem⟩ := capitalized (hflat ▸ fun c hc => (hparts c hc).1)
  rw [hflat] at hhead hmem
  rw [head?_filter] at hhead
  refine ⟨hhead, fun x hx => ?_⟩
  obtain ⟨c, hc, h⟩ := hmem x hx
  obtain ⟨hpart, hne⟩ := hparts c hc
  rcases h with rfl | rfl
  · exact ⟨hpart.toUpper, (ne_underscore hpart hne).1⟩
  · exact ⟨hpart.toLower, (ne_underscore hpart hne).2⟩

lemma toPascal_passes_iff (hcs : IsName cs) :
    isPascal (toPascal cs) = .ok true ∧ IsName (toPascal cs) ↔
      ∃ c ∈ cs.find? (· != '_'), c.isAlpha = true := by
  obtain ⟨hhead, hform⟩ := toPascal_form hcs
  cases hfirst : cs.find? (· != '_') with
  | none =>
    rw [hfirst] at hhead
    simp [head?_eq_none_iff.mp hhead, isPascal, isPascal?]
  | some c =>
    rw [hfirst] at hhead
    obtain ⟨xs, hxs⟩ := head?_eq_some_iff.mp hhead
    have hc := hcs.part c (mem_of_find?_eq_some hfirst)
    have hunder : (c.toUpper :: xs).contains '_' = false := by
      rw [← hxs]
      simpa using fun h => (hform _ h).2 rfl
    have hcheck : isPascal (toPascal cs) = .ok c.isAlpha := by
      rw [hxs, isPascal, isPascal?, hunder, isUpperLetter_toUpper hc]
      simp
    rw [hcheck]
    constructor
    · rintro ⟨h, -⟩
      exact ⟨c, rfl, Except.ok.inj h⟩
    · rintro ⟨d, hd, h⟩
      cases hd
      exact ⟨congrArg _ h, fun x hx => (hform x hx).1, _, hhead, isNameStart_toUpper hc h⟩

end

/-- What is suggested for a function passes the check that found it, and is a name, exactly if its
name has a letter; for a class, exactly if the first character that is not an underscore is one. -/
theorem suggested_passes_iff {n : Node} {f : Finding} (hf : f ∈ practicesOf n) {name : String}
    (hname : IsName name.toList) :
    (n.label = .function name → f.ruleId = "function_naming" →
      ∃ s : String, f.fix = s!"Rename to: {s}" ∧ (isSnake s.toList = true ∧ IsName s.toList ↔
        ∃ c ∈ name.toList, c.isAlpha = true)) ∧
    (n.label = .classDef name → f.ruleId = "class_naming" →
      ∃ s : String, f.fix = s!"Rename to: {s}" ∧ (isPascal s.toList = .ok true ∧ IsName s.toList ↔
        ∃ c ∈ name.toList.find? (· != '_'), c.isAlpha = true)) := by
  constructor
  · intro hlabel hrule
    simp only [practicesOf, hlabel, mem_append, mem_ite_nil_right, mem_singleton, mem_map] at hf
    rcases hf with (⟨-, rfl⟩ | ⟨-, rfl⟩) | ⟨_, -, rfl⟩
    · dsimp only at hrule
      exact absurd hrule (by decide)
    · obtain ⟨hsuggested, hpasses⟩ := toSnake_passes_iff hname
      refine ⟨_, rfl, ?_⟩
      rw [String.toList_ofList, hpasses]
      exact and_iff_left hsuggested
    · dsimp only at hrule
      exact absurd hrule (by decide)
  · intro hlabel hrule
    simp only [practicesOf, hlabel, mem_append, mem_ite_nil_right, mem_ite_nil_left,
      mem_singleton] at hf
    rcases hf with ⟨-, rfl⟩ | ⟨-, rfl⟩
    · dsimp only at hrule
      exact absurd hrule (by decide)
    · refine ⟨_, rfl, ?_⟩
      rw [String.toList_ofList]
      exact toPascal_passes_iff hname

/-- A function whose name has no letter is told to keep it. -/
theorem underscore_kept : ∃ n f, f ∈ practicesOf n ∧ n.label = .function "_" ∧
    IsName "_".toList ∧ f.ruleId = "function_naming" ∧ f.fix = "Rename to: _" ∧
    ¬(isSnake "_".toList = true ∧ IsName "_".toList) := by
  let n := Node.mk .body (.function "_") 1 1 []
  let f : Finding := ⟨"Naming Convention Violation", "Function '_' should use snake_case naming",
    .low, "function_naming", 1, "Rename to: _"⟩
  have hf : f ∈ practicesOf n := mem_singleton.mpr rfl
  have hname : IsName "_".toList :=
    ⟨forall_mem_singleton.mpr ⟨by decide, by decide⟩, '_', rfl, by decide⟩
  obtain ⟨s, hfix, hiff⟩ := (suggested_passes_iff hf hname).1 rfl rfl
  obtain rfl : s = "_" := (String.append_right_inj "Rename to: ").mp hfix.symm
  refine ⟨n, f, hf, rfl, hname, rfl, rfl, fun h => ?_⟩
  obtain ⟨c, hc, halpha⟩ := hiff.mp h
  cases mem_singleton.mp hc
  cases halpha

end ReviewDesk.Lint
