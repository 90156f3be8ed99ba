import Mathlib.Tactic.Lemma
import ReviewDesk.Outline.File
import ReviewDesk.Security.File

/-!
# The lines of declarations

A declaration is listed with the line on which its match begins. This is its own line, but for the
classes of Java: the words before `class` may be missing while the blanks behind them are not, and
then the line is the one on which those blanks begin.
-/

namespace ReviewDesk

open List Text Bool

variable {before : Option Char} {n : Nat} {r text : Chars} {p : Pattern} {m : Match}

namespace Text

/-! ## Word characters are not blank -/

def blankRanges : Ranges :=
  [⟨9, 13⟩, ⟨28, 32⟩, ⟨0x85, 0x85⟩, ⟨0xA0, 0xA0⟩, ⟨0x1680, 0x1680⟩, ⟨0x2000, 0x200A⟩,
    ⟨0x2028, 0x2029⟩, ⟨0x202F, 0x202F⟩, ⟨0x205F, 0x205F⟩, ⟨0x3000, 0x3000⟩]

lemma has_blankRanges {c : Char} (h : isBlank c = true) : blankRanges.has c = true := by
  simp only [isBlank, or_eq_true, and_eq_true, decide_eq_true_eq] at h
  simp only [blankRanges, Ranges.has, any_cons, any_nil, or_eq_true,
    and_eq_true, decide_eq_true_eq]
  omega

lemma letterRanges_avoid_blanks : (letterRanges.all fun r => blankRanges.all fun b =>
    (b.last < r.first || r.last < b.first)) = true := by
  unfold letterRanges Ranges.ofText tableEntries
  -- the characters of the text, without a run of the decoder
  rw [show (_ : String).toList = _ from String.toList_ofList]
  decide +kernel

lemma isBlank_of_isWord {c : Char} (h : isWord c = true) : isBlank c = false := by
  rw [isWord, isLetterOrDigit, or_eq_true, decide_eq_true_eq] at h
  rcases h with rfl | h
  · decide
  · split at h
    · have hplain : ∀ n : Fin 128, (Char.ofNat n).isAlphanum = true →
          isBlank (Char.ofNat n) = false := by decide
      simpa [h] using hplain ⟨c.toNat, ‹_›⟩
    · rw [eq_false_iff]
      intro hblank
      obtain ⟨r, hr, hin⟩ := any_eq_true.mp h
      obtain ⟨b, hb, hin'⟩ := any_eq_true.mp (has_blankRanges hblank)
      have havoid := all_eq_true.mp (all_eq_true.mp letterRanges_avoid_blanks r hr) b hb
      simp only [and_eq_true, or_eq_true, decide_eq_true_eq] at hin hin' havoid
      omega

end Text

structure Cursor.Reads (c : Cursor) (w : Chars) (d : Cursor) : Prop where
  rest : c.rest = w ++ d.rest
  offset : d.offset = c.offset + w.length

namespace Cursor.Reads

lemma refl (c : Cursor) : c.Reads [] c := ⟨rfl, rfl⟩

lemma trans {c d e : Cursor} {u v : Chars} (h : c.Reads u d) (h' : d.Reads v e) :
    c.Reads (u ++ v) e := by
  refine ⟨by rw [h.rest, h'.rest, append_assoc], ?_⟩
  rw [h'.offset, h.offset, length_append, Nat.add_assoc]

lemma take_rest {c d : Cursor} {w : Chars} (h : c.Reads w d) :
    c.rest.take (d.offset - c.offset) = w := by
  rw [h.rest, h.offset, Nat.add_sub_cancel_left, take_left]

end Cursor.Reads

namespace Pattern

/-! ## What a pattern spells -/

/-- The stretches of text that a pattern describes, wherever they stand. -/
def Spells : Pattern → Chars → Prop
  | empty, w => w = []
  | one ok, w => ∃ c, ok c = true ∧ w = [c]
  | run ok least _, w => least ≤ w.length ∧ ∀ c ∈ w, ok c = true
  | wordEdge, w => w = []
  | capture _ p, w => p.Spells w
  | seq p q, w => ∃ u v, p.Spells u ∧ q.Spells v ∧ w = u ++ v
  | either p q, w => p.Spells w ∨ q.Spells w
  | optional p, w => p.Spells w ∨ w = []

/-- The places of a run lie behind none, one, two and so on of its characters. -/
lemma exists_reads_of_getElem?_places {ok : Char → Bool} {i : Nat} {d : Cursor}
    (h : (places ok before n r)[i]? = some d) :
    ∃ w, w.length = i ∧ (∀ c ∈ w, ok c = true) ∧ (⟨before, n, r⟩ : Cursor).Reads w d := by
  induction r generalizing before n i with
  | nil =>
    obtain ⟨rfl, rfl⟩ : i = 0 ∧ ⟨before, n, []⟩ = d := by
      cases i <;> simp_all [places]
    exact ⟨[], rfl, by simp, .refl _⟩
  | cons c r ih =>
    rw [places] at h
    cases i with
    | zero =>
      obtain rfl : ⟨before, n, c :: r⟩ = d := by simpa using h
      exact ⟨[], rfl, by simp, .refl _⟩
    | succ i =>
      rw [getElem?_cons_succ] at h
      split at h
      · rename_i hc
        obtain ⟨w, hlength, hok, hreads⟩ := ih h
        have hstep : (⟨before, n, c :: r⟩ : Cursor).Reads [c] ⟨some c, n + 1, r⟩ := ⟨rfl, rfl⟩
        exact ⟨c :: w, by simp [hlength], by simpa using ⟨hc, hok⟩, hstep.trans hreads⟩
      · cases h

lemma exists_spells_of_mem_ends {s t : Progress} (h : t ∈ p.ends s) :
    ∃ w, p.Spells w ∧ s.cursor.Reads w t.cursor := by
  induction p generalizing s t with
  | empty =>
    obtain rfl : t = s := by simpa [ends] using h
    exact ⟨[], rfl, .refl _⟩
  | one ok =>
    rw [ends] at h
    split at h
    · cases h
    · rename_i c r hrest
      split at h
      · obtain rfl := mem_singleton.mp h
        exact ⟨[c], ⟨c, ‹_›, rfl⟩, hrest, rfl⟩
      · cases h
  | run ok least greedy =>
    obtain ⟨d, hd, rfl⟩ := mem_map.mp h
    have hd : d ∈ (places ok s.cursor.before s.cursor.offset s.cursor.rest).drop least := by
      cases greedy <;> simpa [runEnds] using hd
    obtain ⟨i, hi⟩ := mem_iff_getElem?.mp hd
    rw [getElem?_drop] at hi
    obtain ⟨w, hlength, hok, hreads⟩ := exists_reads_of_getElem?_places hi
    exact ⟨w, ⟨by omega, hok⟩, hreads⟩
  | wordEdge =>
    rw [ends] at h
    split at h
    · obtain rfl := mem_singleton.mp h
      exact ⟨[], rfl, .refl _⟩
    · cases h
  | capture number p ih =>
    obtain ⟨t, ht, rfl⟩ := mem_map.mp h
    obtain ⟨w, hw, hreads⟩ := ih ht
    exact ⟨w, hw, hreads⟩
  | seq p q ihp ihq =>
    obtain ⟨m, hm, ht⟩ := mem_flatMap.mp h
    obtain ⟨u, hu, hreads⟩ := ihp hm
    obtain ⟨v, hv, hreads'⟩ := ihq ht
    exact ⟨u ++ v, ⟨u, v, hu, hv, rfl⟩, hreads.trans hreads'⟩
  | either p q ihp ihq =>
    rcases mem_append.mp h with h | h
    · obtain ⟨w, hw, hreads⟩ := ihp h
      exact ⟨w, .inl hw, hreads⟩
    · obtain ⟨w, hw, hreads⟩ := ihq h
      exact ⟨w, .inr hw, hreads⟩
  | optional p ih =>
    rcases mem_append.mp h with h | h
    · obtain ⟨w, hw, hreads⟩ := ih h
      exact ⟨w, .inl hw, hreads⟩
    · obtain rfl := mem_singleton.mp h
      exact ⟨[], .inr rfl, .refl _⟩

lemma exists_matchAt_of_mem_allFrom {skip : Nat} (h : m ∈ p.allFrom skip before n r) :
    ∃ k before', p.matchAt ⟨before', n + k, r.drop k⟩ = some m := by
  have later {n : Nat} {c : Char} {r : Chars} :
      (∃ k before', p.matchAt ⟨before', n + 1 + k, r.drop k⟩ = some m) →
      ∃ k before', p.matchAt ⟨before', n + k, (c :: r).drop k⟩ = some m := by
    rintro ⟨k, before', hk⟩
    exact ⟨k + 1, before', by rwa [drop_succ_cons, Nat.add_comm k, ← Nat.add_assoc]⟩
  fun_induction allFrom p skip before n r with
  | case1 => cases h
  | case2 skip before n c r ih => exact later (ih h)
  | case3 before n c r found hfound ih =>
    rcases mem_cons.mp h with rfl | h
    · exact ⟨0, before, hfound⟩
    · exact later (ih h)
  | case4 before n c r hnone ih => exact later (ih h)

/-- A match is spelled as its pattern says and is what is read from its start to its end. -/
lemma of_matchAt {c : Cursor} (h : p.matchAt c = some m) :
    p.Spells m.text ∧ m.text <+: c.rest ∧ m.start = c.offset ∧ m.stop = m.start + m.text.length := by
  rw [matchAt, first_eq] at h
  obtain ⟨s, hs, h⟩ := exists_of_findSome?_eq_some h
  obtain rfl := Option.some.inj h
  obtain ⟨w, hw, hreads⟩ := exists_spells_of_mem_ends hs
  dsimp only
  rw [hreads.take_rest]
  exact ⟨hw, ⟨_, hreads.rest.symm⟩, rfl, hreads.offset⟩

lemma spells_of_mem_all (h : m ∈ p.all text) :
    p.Spells m.text ∧ m.text <+: text.drop m.start := by
  obtain ⟨k, before, hm⟩ := exists_matchAt_of_mem_allFrom h
  obtain ⟨hw, hread, hstart, -⟩ := of_matchAt hm
  rw [hstart, Nat.zero_add]
  exact ⟨hw, hread⟩

/-! ## How matches begin -/

/-- Whatever the pattern spells begins with blanks as `margin` says, and then with a character that
is not blank. -/
def Leads (p : Pattern) (margin : Chars → Prop) : Prop :=
  ∀ w, p.Spells w → ∃ b c r, margin b ∧ isBlank c = false ∧ w = b ++ c :: r

/-- Whatever the pattern spells begins with a character that is not blank. -/
def Solid (p : Pattern) : Prop := p.Leads (· = [])

def Lax (p : Pattern) : Prop :=
  ∀ w, p.Spells w → w = [] ∨ ∃ b c r, b = [] ∧ isBlank c = false ∧ w = b ++ c :: r

section

variable {q : Pattern} {margin : Chars → Prop}

lemma Leads.append (h : p.Leads margin) : (p ++ q).Leads margin := by
  rintro w ⟨u, v, hu, -, rfl⟩
  obtain ⟨b, c, r, hb, hc, rfl⟩ := h u hu
  exact ⟨b, c, r ++ v, hb, hc, by simp⟩

lemma Leads.append₃ {q₁ q₂ q₃ : Pattern} (h : p.Leads margin) :
    (p ++ q₁ ++ q₂ ++ q₃).Leads margin := h.append.append.append

lemma Solid.optional (h : p.Solid) : p.optional.Lax := by
  rintro w (hw | rfl)
  · exact .inr (h w hw)
  · exact .inl rfl

lemma Lax.append_solid (hp : p.Lax) (hq : q.Solid) : (p ++ q).Solid := by
  rintro w ⟨u, v, hu, hv, rfl⟩
  rcases hp u hu with rfl | ⟨b, c, r, hb, hc, rfl⟩
  · exact hq v hv
  · exact ⟨b, c, r ++ v, hb, hc, by simp⟩

lemma Lax.append (hp : p.Lax) (hq : q.Lax) : (p ++ q).Lax := by
  rintro w ⟨u, v, hu, hv, rfl⟩
  rcases hp u hu with rfl | ⟨b, c, r, hb, hc, rfl⟩
  · exact hq v hv
  · exact .inr ⟨b, c, r ++ v, hb, hc, by simp⟩

lemma solid_word : word.Solid := by
  rintro w ⟨hlength, hok⟩
  cases w with
  | nil => cases hlength
  | cons c r => exact ⟨[], c, r, rfl, isBlank_of_isWord (hok c (.head _)), rfl⟩

lemma solid_lit {s : String} (h : (s.toList.head?.any fun c => !isBlank c) = true) :
    (lit s).Solid := by
  rw [lit]
  cases hs : s.toList with
  | nil => simp [hs] at h
  | cons c cs =>
    rintro w ⟨u, v, ⟨d, hd, rfl⟩, -, rfl⟩
    obtain rfl : d = c := by simpa using hd
    exact ⟨[], d, v, rfl, by simpa [hs] using h, rfl⟩

lemma solid_oneOfTexts {texts : List String} (hne : texts ≠ [])
    (h : ∀ s ∈ texts, (s.toList.head?.any fun c => !isBlank c) = true) :
    (oneOfTexts lit texts).Solid := by
  fun_induction oneOfTexts lit texts with
  | case1 => exact absurd rfl hne
  | case2 s => exact solid_lit (h s (.head _))
  | case3 s r hr ih =>
    rintro w (hw | hw)
    · exact solid_lit (h s (.head _)) w hw
    · exact ih (by simpa using hr) (fun t ht => h t (.tail _ ht)) w hw

end

end Pattern

namespace Outline

open Pattern Text

/-- Blanks of any number may stand before the word `class`, if no other word does. -/
lemma javaClasses_leads : javaClasses.pattern.Leads fun b => ∀ x ∈ b, isBlank x = true := by
  have haccess : (oneOfTexts lit ["public", "private", "protected"]).Solid :=
    solid_oneOfTexts (by simp) (by decide)
  have hclass : (lit "class").Solid := solid_lit rfl
  have hstart : (optional (oneOfTexts lit ["public", "private", "protected"]) ++ blanks ++
      lit "class").Leads fun b => ∀ x ∈ b, isBlank x = true := by
    rintro w ⟨_, v, ⟨u, b, hu, ⟨-, hb⟩, rfl⟩, hv, rfl⟩
    rcases hu with hu | rfl
    · obtain ⟨_, c, r, rfl, hc, rfl⟩ := haccess u hu
      exact ⟨[], c, r ++ (b ++ v), by simp, hc, by simp⟩
    · obtain ⟨_, c, r, rfl, hc, rfl⟩ := hclass v hv
      exact ⟨b, c, r, hb, hc, rfl⟩
  exact hstart.append₃.append.append

/-- A language whose declarations are found by patterns. -/
inductive DeclaredLanguage where
  | javascript
  | typescript
  | java
  | cpp
  | c
  deriving DecidableEq

namespace DeclaredLanguage

def name : DeclaredLanguage → String
  | javascript => "javascript"
  | typescript => "typescript"
  | java => "java"
  | cpp => "cpp"
  | c => "c"

def sections : DeclaredLanguage → Chars → List Section
  | javascript => scriptSections
  | typescript => typedScriptSections
  | java => javaSections
  | cpp => cppSections
  | c => cSections

/-- The forms whose matches begin with the declaration itself. -/
def solidForms : DeclaredLanguage → List Form
  | javascript => scriptClasses :: (scriptFunctions ++ scriptImports)
  | typescript => scriptInterfaces :: scriptClasses :: (scriptFunctions ++ scriptImports)
  | java => [javaMethods, javaImports]
  | cpp => [cppFunctions, cppClasses, includes]
  | c => [cFunctions, cStructs, includes]

lemma solid_of_mem_solidForms (l : DeclaredLanguage) : ∀ f ∈ l.solidForms, f.pattern.Solid := by
  have hname : name1.Solid := solid_word
  have hfunctions : ∀ f ∈ scriptFunctions, f.pattern.Solid := by
    simp only [scriptFunctions, forall_mem_cons]
    exact ⟨(solid_lit rfl).append₃.append.append,
      hname.append₃.append₃.append,
      hname.append₃.append₃.append,
      hname.append₃.append₃.append, by simp⟩
  have himports : ∀ f ∈ scriptImports, f.pattern.Solid := by
    simp only [scriptImports, forall_mem_cons]
    exact ⟨(solid_lit rfl).append₃.append₃,
      (solid_lit rfl).append₃.append₃.append.append,
      (solid_lit rfl).append.append, by simp⟩
  have hclasses : scriptClasses.pattern.Solid := (solid_lit rfl).append₃.append
  have hincludes : includes.pattern.Solid := (solid_lit rfl).append₃.append
  have hleading (s : String) (hs : (s.toList.head?.any fun c => !isBlank c) = true) :
      (optional (lit s ++ gap)).Lax := Solid.optional (solid_lit hs).append
  cases l <;> simp only [solidForms, forall_mem_cons, forall_mem_append]
  case javascript => exact ⟨hclasses, hfunctions, himports⟩
  case typescript => exact ⟨(solid_lit rfl).append₃, hclasses, hfunctions, himports⟩
  case java =>
    exact ⟨(solid_oneOfTexts (by simp) (by decide)).append₃.append₃,
      (solid_lit rfl).append₃.append, by simp⟩
  case cpp =>
    have hwords :=
      ((hleading "inline" rfl).append (hleading "static" rfl)).append (hleading "virtual" rfl)
    exact ⟨(hwords.append_solid solid_word.append).append₃.append₃.append₃,
      (solid_lit rfl).append₃.append, hincludes, by simp⟩
  case c =>
    have hwords := (hleading "static" rfl).append (hleading "inline" rfl)
    exact ⟨(hwords.append_solid solid_word.append).append₃.append.append,
      ((hleading "typedef" rfl).append_solid (solid_lit rfl)).append₃, hincludes, by simp⟩

def forms (l : DeclaredLanguage) : List Form :=
  l.solidForms ++ if l = java then [javaClasses] else []

end DeclaredLanguage

/-! ## The entries of an outline -/

/-- A declaration comes from a match of one of the forms; its name may have been tidied up. -/
def ComesFrom (fs : List Form) (text : Chars) (d : Declaration) : Prop :=
  ∃ f ∈ fs, ∃ m ∈ f.pattern.all text, ∃ name, d = { f.declaration text m with name := name }

section

variable {fs : List Form} {d : Declaration}

lemma comesFrom_of_mem_all {f : Form} (hf : f ∈ fs) (hd : d ∈ f.all text) :
    ComesFrom fs text d := by
  obtain ⟨m, hm, rfl⟩ := mem_map.mp hd
  exact ⟨f, hf, m, hm, m.groupText f.name, rfl⟩

lemma comesFrom_of_mem_flatMap {gs : List Form} (hgs : gs ⊆ fs)
    (hd : d ∈ gs.flatMap (·.all text)) : ComesFrom fs text d := by
  obtain ⟨f, hf, hd⟩ := mem_flatMap.mp hd
  exact comesFrom_of_mem_all (hgs hf) hd

lemma ComesFrom.rename (h : ComesFrom fs text d) (name : String) :
    ComesFrom fs text { d with name := name } := by
  obtain ⟨f, hf, m, hm, _, rfl⟩ := h
  exact ⟨f, hf, m, hm, name, rfl⟩

end

namespace DeclaredLanguage

variable (l : DeclaredLanguage)

lemma comesFrom_of_mem_sections (text : Chars) :
    ∀ s ∈ l.sections text, ∀ d ∈ s.entries, ComesFrom l.forms text d := by
  have hall {f : Form} (hf : f ∈ l.forms) : ∀ d ∈ f.all text, ComesFrom l.forms text d :=
    fun _ => comesFrom_of_mem_all hf
  have hlists {gs : List Form} (hgs : gs ⊆ l.forms) :
      ∀ d ∈ gs.flatMap (·.all text), ComesFrom l.forms text d :=
    fun _ => comesFrom_of_mem_flatMap hgs
  have hscript (h : scriptClasses :: (scriptFunctions ++ scriptImports) ⊆ l.forms) :
      ∀ s ∈ scriptSections text, ∀ d ∈ s.entries, ComesFrom l.forms text d := by
    simp only [cons_subset, append_subset] at h
    simp only [scriptSections, forall_mem_cons]
    exact ⟨hlists h.2.1, hall h.1, hlists h.2.2, by simp⟩
  cases l with
  | javascript => exact hscript (by simp [forms, solidForms])
  | typescript =>
    rw [sections, typedScriptSections, forall_mem_append]
    exact ⟨hscript (by simp [forms, solidForms]), by simpa using hall (by simp [forms, solidForms])⟩
  | java =>
    simp only [sections, javaSections, forall_mem_cons]
    refine ⟨hall (by simp [forms, solidForms]), hall (by simp [forms]), fun d hd => ?_, by simp⟩
    obtain ⟨e, he, rfl⟩ := mem_map.mp hd
    have hfrom := hall (f := javaImports) (by simp [forms, solidForms]) e he
    exact hfrom.rename _
  | cpp =>
    simp only [sections, cppSections, forall_mem_cons]
    exact ⟨hall (by simp [forms, solidForms]), hall (by simp [forms, solidForms]),
      hall (by simp [forms, solidForms]), by simp⟩
  | c =>
    simp only [sections, cSections, forall_mem_cons]
    refine ⟨hall (by simp [forms, solidForms]), fun d hd => ?_, hall (by simp [forms, solidForms]),
      by simp⟩
    obtain ⟨e, he, rfl⟩ := mem_map.mp hd
    have hfrom := hall (f := cStructs) (by simp [forms, solidForms]) e he
    split
    · exact hfrom.rename _
    · exact hfrom

lemma ofText_name (said : Chars → Source.Complaint) (s : String) : ofText said (.text l.name) s =
    sectionsReport l.name (l.sections s.toList) (textLines s).length := by
  cases l <;> rfl

lemma leads_of_mem_forms : ∀ f ∈ l.forms, f.pattern.Leads fun b =>
    (∀ x ∈ b, isBlank x = true) ∧ (b ≠ [] → l = java ∧ f.kind = .classDecl) := by
  intro f hf w hw
  rcases mem_append.mp hf with hf | hf
  · obtain ⟨b, c, r, rfl, hc, hspelled⟩ := l.solid_of_mem_solidForms f hf w hw
    exact ⟨[], c, r, by simp, hc, hspelled⟩
  · obtain ⟨hl, rfl⟩ : l = java ∧ f = javaClasses := by
      split at hf <;> simp_all
    obtain ⟨b, c, r, hb, hc, hspelled⟩ := javaClasses_leads w hw
    exact ⟨b, c, r, ⟨hb, fun _ => ⟨hl, rfl⟩⟩, hc, hspelled⟩

end DeclaredLanguage

lemma lineAt_add {b : Chars} (h : b <+: text.drop n) :
    Text.lineAt text (n + b.length) = Text.lineAt text n + b.count '\n' := by
  obtain ⟨r, hr⟩ := h
  rw [Text.lineAt, Text.lineAt, lineFeeds, lineFeeds, take_add, ← hr, take_left, count_append]
  omega

/-- An entry of an outline comes from a match of one of the forms of its language. Its line is that
of the first character of the match that is not blank, unless there are line feeds before that
character; and there are blanks before it in the classes of Java only. -/
theorem declared_lines (said : Chars → Source.Complaint) (l : DeclaredLanguage) (s : String) :
    ofText said (.text l.name) s =
      sectionsReport l.name (l.sections s.toList) (Text.textLines s).length ∧
    ∀ sec ∈ l.sections s.toList, ∀ d ∈ sec.entries, ∃ f ∈ l.forms, ∃ m ∈ f.pattern.all s.toList,
      ∃ name margin c r, d = { f.declaration s.toList m with name := name } ∧
        m.text <+: s.toList.drop m.start ∧ m.text = margin ++ c :: r ∧
        (∀ x ∈ margin, Text.isBlank x = true) ∧ Text.isBlank c = false ∧
        (d.line = Text.lineAt s.toList (m.start + margin.length) ↔ '\n' ∉ margin) ∧
        (margin ≠ [] → l = .java ∧ d.kind = .classDecl) := by
  refine ⟨l.ofText_name said s, fun sec hsec d hd => ?_⟩
  obtain ⟨f, hf, m, hm, name, rfl⟩ := l.comesFrom_of_mem_sections s.toList sec hsec d hd
  obtain ⟨hspelled, hwithin⟩ := spells_of_mem_all hm
  obtain ⟨margin, c, r, ⟨hblank, hjava⟩, hc, htext⟩ := l.leads_of_mem_forms f hf m.text hspelled
  refine ⟨f, hf, m, hm, name, margin, c, r, rfl, hwithin, htext, hblank, hc, ?_, hjava⟩
  have hmargin : margin <+: s.toList.drop m.start :=
    List.IsPrefix.trans ⟨c :: r, htext.symm⟩ hwithin
  rw [lineAt_add hmargin, ← count_eq_zero]
  change Text.lineAt s.toList m.start = _ ↔ _
  omega

/-- A class on the second line, behind an empty one, is listed with the first. -/
theorem class_behind_empty_line : ofText (fun _ => {}) (.text "java") "\nclass A \x7b\n\x7d\n" =
      sectionsReport "java" (javaSections "\nclass A \x7b\n\x7d\n".toList)
        (Text.textLines "\nclass A \x7b\n\x7d\n").length ∧
    ((javaSections "\nclass A \x7b\n\x7d\n".toList).flatMap (·.entries)).map
      (fun d => (d.kind, d.name, d.line)) = [(.classDecl, "A", 1)] ∧
    (javaClasses.pattern.all "\nclass A \x7b\n\x7d\n".toList).map
      (fun m => (m.start, m.text.takeWhile Text.isBlank)) = [(0, ['\n'])] ∧
    Text.lineAt "\nclass A \x7b\n\x7d\n".toList 1 = 2 :=
  ⟨(declared_lines _ .java _).1, by decide +kernel, by decide +kernel, by decide +kernel⟩

end Outline

/-!
## Where the issues of security rules stand

An issue that a security rule gives for a text comes with a line, the stretch that was matched and
the rows around it. These fit an offset in the text, and the stretches of one rule do not overlap.
-/

namespace Text

lemma exists_rows_eq (u : Chars) : ∃ after, rows u = u.takeWhile (· != '\n') :: after := by
  induction u with
  | nil => exact ⟨[], rfl⟩
  | cons c u ih =>
    obtain ⟨after, hu⟩ := ih
    by_cases hc : c = '\n'
    · exact ⟨rows u, by simp [rows, hc]⟩
    · exact ⟨after, by simp [rows, hc, hu]⟩

/-- The row of the place between `p` and `u` has as many rows before it as `p` has line feeds, and
ends with the first row of `u`. -/
lemma exists_rows_append (p u : Chars) : ∃ before start after,
    rows (p ++ u) = before ++ (start ++ u.takeWhile (· != '\n')) :: after ∧
      before.length = lineFeeds p := by
  induction p with
  | nil =>
    obtain ⟨after, hu⟩ := exists_rows_eq u
    exact ⟨[], [], after, hu, rfl⟩
  | cons c p ih =>
    obtain ⟨before, start, after, hrows, hlength⟩ := ih
    by_cases hc : c = '\n'
    · refine ⟨[] :: before, start, after, by simp [rows, hc, hrows], ?_⟩
      simpa [lineFeeds, hc] using hlength
    · have hfeeds : lineFeeds (c :: p) = lineFeeds p := count_cons_of_ne hc
      rw [hfeeds]
      cases before with
      | nil => exact ⟨[], c :: start, after, by simp [rows, hc, hrows], hlength⟩
      | cons b bs => exact ⟨(c :: b) :: bs, start, after, by simp [rows, hc, hrows], hlength⟩

end Text

namespace Pattern

variable {skip : Nat}

lemma start_of_mem_allFrom (h : m ∈ p.allFrom skip before n r) :
    n + skip ≤ m.start ∧ m.start < n + r.length := by
  fun_induction allFrom p skip before n r with
  | case1 => cases h
  | case2 skip before n c r ih =>
    have := ih h
    simp only [length_cons]
    omega
  | case3 before n c r found hfound ih =>
    simp only [length_cons]
    rcases mem_cons.mp h with rfl | h
    · have hstart : m.start = n := (of_matchAt hfound).2.2.1
      omega
    · have := ih h
      omega
  | case4 before n c r hnone ih =>
    have := ih h
    simp only [length_cons]
    omega

lemma pairwise_allFrom (p : Pattern) (skip : Nat) (before : Option Char) (n : Nat)
    (r : Chars) : (p.allFrom skip before n r).Pairwise fun m m' =>
      m.start < m'.start ∧ m.start + m.text.length ≤ m'.start := by
  fun_induction allFrom p skip before n r with
  | case1 => exact .nil
  | case2 skip before n c r ih => exact ih
  | case3 before n c r found hfound ih =>
    refine pairwise_cons.mpr ⟨fun m' hm' => ?_, ih⟩
    obtain ⟨-, -, hstart, hstop⟩ := of_matchAt hfound
    have hbehind := (start_of_mem_allFrom hm').1
    dsimp only at hstart
    omega
  | case4 before n c r hnone ih => exact ih

/-! ## What is found -/

/-- Whether a pattern looks at nothing around a stretch. -/
def edgeFree : Pattern → Bool
  | wordEdge => false
  | capture _ p | optional p => p.edgeFree
  | seq p q | either p q => p.edgeFree && q.edgeFree
  | _ => true

variable (before n r) in
lemma exists_getElem?_places {ok : Char → Bool} {w : Chars} (hw : ∀ c ∈ w, ok c = true) :
    ∃ d, (places ok before n (w ++ r))[w.length]? = some d ∧ d.rest = r := by
  induction w generalizing before n with
  | nil => exact ⟨⟨before, n, r⟩, by cases r <;> rfl, rfl⟩
  | cons c w ih =>
    obtain ⟨hc, hw⟩ := forall_mem_cons.mp hw
    rw [cons_append, places, if_pos hc]
    exact ih _ _ hw

lemma exists_mem_ends (hp : p.edgeFree = true) {s : Progress} {w : Chars} (hw : p.Spells w)
    (hrest : s.cursor.rest = w ++ r) : ∃ t ∈ p.ends s, t.cursor.rest = r := by
  induction p generalizing s w r with
  | run ok least greedy =>
    obtain ⟨d, hd, hr⟩ := exists_getElem?_places s.cursor.before s.cursor.offset r hw.2
    have hmem : d ∈ (places ok s.cursor.before s.cursor.offset s.cursor.rest).drop least := by
      refine mem_iff_getElem?.mpr ⟨w.length - least, ?_⟩
      rw [getElem?_drop, Nat.add_sub_cancel' hw.1, hrest, hd]
    refine ⟨⟨d, s.captures⟩, mem_map_of_mem ?_, hr⟩
    cases greedy <;> simpa [runEnds] using hmem
  | seq p q ihp ihq =>
    obtain ⟨u, v, hu, hv, rfl⟩ := hw
    obtain ⟨t, ht, hrest⟩ := ihp (by grind [edgeFree]) hu (hrest.trans (append_assoc ..))
    obtain ⟨t', ht', hr⟩ := ihq (by grind [edgeFree]) hv hrest
    exact ⟨t', mem_flatMap.mpr ⟨t, ht, ht'⟩, hr⟩
  | one ok =>
    obtain ⟨c, hc, rfl⟩ := hw
    simp [ends, hrest, hc]
  | capture number p ih =>
    obtain ⟨t, ht, hr⟩ := ih hp hw hrest
    exact ⟨_, mem_map_of_mem ht, hr⟩
  | empty | wordEdge | either | optional =>
    simp only [edgeFree, Spells, ends] at *
    grind

lemma isSome_matchAt (hp : p.edgeFree = true) (c : Cursor) :
    (p.matchAt c).isSome ↔ ∃ w, p.Spells w ∧ w <+: c.rest := by
  constructor
  · intro h
    obtain ⟨m, hm⟩ := Option.isSome_iff_exists.mp h
    obtain ⟨hw, hread, -⟩ := of_matchAt hm
    exact ⟨m.text, hw, hread⟩
  · rintro ⟨w, hw, r, hr⟩
    obtain ⟨t, ht, -⟩ := exists_mem_ends hp (s := ⟨c, []⟩) hw hr.symm
    rw [matchAt, first_eq, findSome?_isSome_iff]
    exact ⟨t, ht, rfl⟩

lemma isSome_searchFrom (hp : p.edgeFree = true) :
    (p.searchFrom before n r).isSome ↔ ∃ w, p.Spells w ∧ w <:+: r := by
  induction r generalizing before n with
  | nil => simp [searchFrom, isSome_matchAt hp]
  | cons c r ih =>
    have hhere := isSome_matchAt hp ⟨before, n, c :: r⟩
    rw [searchFrom]
    simp only [infix_cons_iff, and_or_left, exists_or, ← hhere, ← @ih (some c) (n + 1)]
    cases p.matchAt ⟨before, n, c :: r⟩ <;> simp

lemma spells_lit {s : String} {w : Chars} : (lit s).Spells w ↔ w = s.toList := by
  rw [lit]
  induction s.toList generalizing w with
  | nil => rfl
  | cons c cs ih =>
    rw [foldr_cons, Spells]
    simp only [ih]
    simp [char, Spells]

lemma spells_oneOfTexts {texts : List String} (hne : texts ≠ []) {w : Chars} :
    (oneOfTexts lit texts).Spells w ↔ ∃ s ∈ texts, w = s.toList := by
  fun_induction oneOfTexts lit texts with
  | case1 => exact absurd rfl hne
  | case2 s => simp [spells_lit]
  | case3 s r hr ih => simp [Spells, spells_lit, ih (by simpa using hr)]

end Pattern

namespace Security

/-- An issue fits an offset: the text goes on with its snippet there, its line is that of the
offset and holds the first row of the snippet, and its context is this row with its neighbours. -/
structure Issue.StandsAt (i : Issue) (text : Chars) (offset : Nat) : Prop where
  inside : offset < text.length
  line : i.line = (text.take offset).count '\n' + 1
  shown : ∃ snippet before row after, i.snippet = some snippet ∧
    snippet.toList <+: text.drop offset ∧ Text.rows text = before ++ row :: after ∧
    i.line = before.length + 1 ∧ snippet.toList.takeWhile (· != '\n') <:+: row ∧
    i.context = some (.ofList (['\n'].intercalate
      (before.getLast?.toList ++ row :: after.head?.toList)))

lemma around_append (before : List Chars) (row : Chars) (after : List Chars) :
    around (before ++ row :: after) (before.length + 1) =
      ['\n'].intercalate (before.getLast?.toList ++ row :: after.head?.toList) := by
  have hnext : (before ++ row :: after).take (before.length + 1 + 1) =
      before ++ row :: after.head?.toList := by
    rw [Nat.add_assoc, take_length_add_append]
    cases after <;> rfl
  rw [around, hnext]
  congr 1
  rcases eq_nil_or_concat before with rfl | ⟨init, last, rfl⟩
  · rfl
  · simp

lemma Rule.standsAt_issue (r : Rule)
    (hm : m ∈ r.pattern.all text) : (r.issue text (Text.rows text) m).StandsAt text m.start := by
  obtain ⟨-, rest, hrest⟩ := Pattern.spells_of_mem_all hm
  obtain ⟨before, start, after, hrows, hlength⟩ :=
    exists_rows_append (text.take m.start) (text.drop m.start)
  rw [take_append_drop] at hrows
  have hline : lineAt text m.start = before.length + 1 := by rw [lineAt, hlength]
  have hinside := (Pattern.start_of_mem_allFrom hm).2
  refine ⟨by simpa using hinside, rfl, .ofList m.text, before, _, after, rfl, ?_, hrows, hline,
    ?_, ?_⟩
  · rw [String.toList_ofList]
    exact ⟨rest, hrest⟩
  · have hfirst : m.text.takeWhile (· != '\n') <+: (m.text ++ rest).takeWhile (· != '\n') := by
      rw [takeWhile_append]
      split
      · exact (List.takeWhile_prefix _).trans (prefix_append ..)
      · exact prefix_rfl
    rw [String.toList_ofList, ← hrest]
    exact hfirst.isInfix.trans (suffix_append ..).isInfix
  · show some (String.ofList (around _ (lineAt text m.start))) = _
    rw [hline, hrows, around_append]

lemma nodup_rulesFor (language : String) : ((rulesFor language).map (·.id)).Nodup := by
  unfold rulesFor
  split
  · decide
  · decide
  · decide
  · exact .nil

/-- The issues of the security rules fit offsets that increase within each rule, with snippets that
do not overlap. -/
theorem patternIssues_stand (language : String) (text : List Char) :
    ∃ spots : List (Issue × Nat), spots.map Prod.fst = patternIssues language text ∧
      (∀ spot ∈ spots, spot.1.StandsAt text spot.2) ∧
      spots.Pairwise fun a b => a.1.ruleId = b.1.ruleId →
        a.2 < b.2 ∧ ∀ snippet ∈ a.1.snippet, a.2 + snippet.length ≤ b.2 := by
  refine ⟨(rulesFor language).flatMap fun r => (r.pattern.all text).map fun m =>
    (r.issue text (Text.rows text) m, m.start), ?_, ?_, ?_⟩
  · rw [map_flatMap]
    simp only [map_map]
    rfl
  · intro spot hspot
    obtain ⟨r, -, hspot⟩ := mem_flatMap.mp hspot
    obtain ⟨m, hm, rfl⟩ := mem_map.mp hspot
    exact r.standsAt_issue hm
  · refine pairwise_flatMap.mpr ⟨fun r _ => ?_, ?_⟩
    · refine pairwise_map.mpr ((Pattern.pairwise_allFrom ..).imp ?_)
      rintro m m' ⟨hlt, hle⟩ -
      refine ⟨hlt, fun snippet hsnippet => ?_⟩
      obtain rfl := Option.some.inj hsnippet
      simpa using hle
    · refine (pairwise_map.mp (nodup_rulesFor language)).imp fun hne a ha b hb heq => ?_
      obtain ⟨m, -, rfl⟩ := mem_map.mp ha
      obtain ⟨m', -, rfl⟩ := mem_map.mp hb
      exact absurd heq hne

open Pattern

/-! ## Packages of a dependency file -/

/-- A place in a text where a package stands, then signs of comparison and one of some versions, with
nothing but blanks between them. -/
structure Mention (package : String) (versions : List String) (text : Chars) where
  before : Chars
  gap : Chars
  signs : Chars
  gap' : Chars
  version : String
  after : Chars
  listed : version ∈ versions
  blank : ∀ c ∈ gap ++ gap', isBlank c = true
  sign : 1 ≤ signs.length ∧ ∀ c ∈ signs, among "=><~!" c = true
  text_eq : text = before ++ (package.toList ++ gap ++ signs ++ gap' ++ version.toList) ++ after

/-- A version goes on with a digit, or with a dot and another part. -/
def goesOn : Chars → Bool
  | '.' :: c :: _ => c.isAlphanum
  | c :: _ => c.isDigit
  | [] => false

variable {package : String} {versions : List String}

/-- Name and version stand there in whole, and no sign excludes the version: the sign `!` is in no
operator but `!=`. -/
structure Mention.Exact (m : Mention package versions text) : Prop where
  name : ∀ c ∈ m.before.getLast?, (c.isAlphanum || among "-_." c) = false
  signs : '!' ∉ m.signs
  version : goesOn m.after = false

lemma occursIn_requirement (h : (package, versions) ∈ vulnerable) :
    (requirement package versions).occursIn text = true ↔ Nonempty (Mention package versions text) := by
  have hall : ∀ p ∈ vulnerable, p.2 ≠ [] ∧ (requirement p.1 p.2).edgeFree = true := by decide
  obtain ⟨hne, hfree⟩ := hall _ h
  rw [occursIn, search, isSome_searchFrom hfree]
  constructor
  · rintro ⟨_, ⟨_, v, ⟨_, gap', ⟨_, signs, ⟨u, gap, hu, ⟨-, hgap⟩, rfl⟩, hsigns, rfl⟩, ⟨-, hgap'⟩,
      rfl⟩, hv, rfl⟩, before, after, rfl⟩
    obtain rfl := spells_lit.mp hu
    obtain ⟨v, hmem, rfl⟩ := (spells_oneOfTexts hne).mp hv
    exact ⟨⟨before, gap, signs, gap', v, after, hmem, forall_mem_append.mpr ⟨hgap, hgap'⟩, hsigns, rfl⟩⟩
  · rintro ⟨⟨before, gap, signs, gap', v, after, hmem, hgaps, hsigns, rfl⟩⟩
    obtain ⟨hgap, hgap'⟩ := forall_mem_append.mp hgaps
    exact ⟨_, ⟨_, _, ⟨_, gap', ⟨_, signs, ⟨_, gap, spells_lit.mpr rfl, ⟨Nat.zero_le _, hgap⟩, rfl⟩,
      hsigns, rfl⟩, ⟨Nat.zero_le _, hgap'⟩, rfl⟩, (spells_oneOfTexts hne).mpr ⟨v, hmem, rfl⟩, rfl⟩,
      before, after, rfl⟩

def Reported (package : String) (text : Chars) : Prop :=
  ∃ i ∈ dependencyIssues text, i.title = s!"Vulnerable Dependency: {package}"

/-- Each package has a title of its own. -/
lemma reported_iff (h : (package, versions) ∈ vulnerable) :
    Reported package text ↔ (requirement package versions).occursIn text = true := by
  have hown : ∀ p ∈ vulnerable, ∀ q ∈ vulnerable,
      s!"Vulnerable Dependency: {p.1}" = s!"Vulnerable Dependency: {q.1}" → p = q := by decide
  simp only [Reported, dependencyIssues, mem_flatMap]
  constructor
  · rintro ⟨i, ⟨p, hp, hi⟩, htitle⟩
    split at hi
    · cases mem_singleton.mp hi
      obtain rfl := hown p hp _ h htitle
      assumption
    · cases hi
  · intro hoccurs
    refine Exists.intro ?_ ⟨⟨_, h, ?_⟩, ?_⟩
    rotate_left
    · rw [if_pos hoccurs]
      exact mem_singleton_self _
    · rfl

/-- A package is reported exactly if it is mentioned with one of the versions. This is that it stands
there in whole with such a version, unless it is mentioned and all mentions are inexact. -/
theorem reported_iff_mentioned (h : (package, versions) ∈ vulnerable) (text : Chars) :
    (Reported package text ↔ Nonempty (Mention package versions text)) ∧
      ((Reported package text ↔ ∃ m : Mention package versions text, m.Exact) ↔
        ¬(Nonempty (Mention package versions text) ∧
          ∀ m : Mention package versions text, ¬m.Exact)) := by
  have hreported : Reported package text ↔ Nonempty (Mention package versions text) :=
    (reported_iff h).trans (occursIn_requirement h)
  refine ⟨hreported, ?_⟩
  rw [hreported]
  constructor
  · rintro hiff ⟨hmentioned, hinexact⟩
    obtain ⟨m, hm⟩ := hiff.mp hmentioned
    exact hinexact m hm
  · refine fun hsome => ⟨fun hmentioned => ?_, fun ⟨m, _⟩ => ⟨m⟩⟩
    exact Classical.byContradiction fun hnone => hsome ⟨hmentioned, not_exists.mp hnone⟩

/-- A version that only begins like a listed one. -/
def longerVersion : Chars := "requests==2.25.10".toList

/-- The package is reported though no listed version is asked for. -/
theorem longer_version_reported :
    let versions := ["2.25.0", "2.25.1"]
    ("requests", versions) ∈ vulnerable ∧ Reported "requests" longerVersion ∧
      ∀ m : Mention "requests" versions longerVersion, ¬m.Exact := by
  have h : ("requests", ["2.25.0", "2.25.1"]) ∈ vulnerable := by decide
  refine ⟨h, (reported_iff_mentioned h longerVersion).1.mpr
    ⟨⟨[], [], "==".toList, [], "2.25.1", ['0'], by decide, by simp, ⟨by decide, all_eq_true.mp (by decide)⟩,
      by decide⟩⟩, ?_⟩
  rintro ⟨before, gap, signs, gap', v, after, hv, _, _, htext⟩ ⟨_, _, hafter⟩
  let front := before ++ (("requests".toList ++ gap ++ signs) ++ gap')
  have htext : longerVersion = front ++ (v.toList ++ after) := by
    rw [htext]
    simp [front]
  have hdrop : longerVersion.drop front.length = v.toList ++ after := by
    rw [htext, drop_left]
  have hall : ∀ v ∈ ["2.25.0", "2.25.1"], ∀ n < 18, v.toList <+: longerVersion.drop n →
      goesOn ((longerVersion.drop n).drop v.toList.length) = true := by decide +kernel
  have hshort : front.length < 18 := by
    have hlength := congrArg length htext
    rw [length_append, show longerVersion.length = 17 from rfl] at hlength
    omega
  have hgoes := hall v hv _ hshort (hdrop ▸ prefix_append ..)
  rw [hdrop, drop_left, hafter] at hgoes
  cases hgoes

end Security
end ReviewDesk
