import Mathlib.Algebra.Order.Group.Multiset
import Mathlib.Data.List.Forall2
import ReviewDesk.Lint.Program
import ReviewDesk.Outline.File

/-!
# Functions, parts and findings of a program

A function is reported with its lines, which end at every line boundary of Unicode. They are the
right ones as long as no boundary has been met but line feeds and carriage returns. Every rule looks
at a node and the tree below it, so the findings of two programs one after the other add up.
-/

namespace ReviewDesk

open List Tally

namespace Text

variable {ends : Char → Bool} {c : Char} {t : Chars}

/-! ## Lines that end at some characters -/

/-- The lines of a text, each without the character that ends it. -/
def linesBy (ends : Char → Bool) : Chars → List Chars
  | [] => []
  | c :: r =>
    if ends c then [] :: linesBy ends r
    else match linesBy ends r with
      | [] => [[c]]
      | l :: ls => (c :: l) :: ls

lemma linesBy_end (h : ends c = true) (r : Chars) :
    linesBy ends (c :: r) = [] :: linesBy ends r := by
  rw [linesBy, if_pos h]

lemma linesBy_cons (h : ends c = false) (r : Chars) : linesBy ends (c :: r) =
      (c :: (linesBy ends r).head?.getD []) :: (linesBy ends r).tail := by
  rw [linesBy, if_neg (by simp [h])]
  cases linesBy ends r <;> rfl

lemma linesBy_ne_nil (h : t ≠ []) : linesBy ends t ≠ [] := by
  cases t with
  | nil => exact absurd rfl h
  | cons c r =>
    cases hc : ends c with
    | true => simp [linesBy_end hc]
    | false => simp [linesBy_cons hc]

lemma head_cons_tail (h : t ≠ []) :
    (linesBy ends t).head?.getD [] :: (linesBy ends t).tail = linesBy ends t := by
  cases hl : linesBy ends t with
  | nil => exact absurd hl (linesBy_ne_nil h)
  | cons l ls => rfl

/-- Behind the first of some lines a text goes on with a line feed or not at all. -/
lemma exists_intercalate_cons (l : Chars) (ls : List Chars) : ∃ tail,
    ['\n'].intercalate (l :: ls) = l ++ tail ∧ ∀ c ∈ tail.head?, c = '\n' := by
  cases ls with
  | nil => exact ⟨[], by simp⟩
  | cons m ms =>
    exact ⟨'\n' :: ['\n'].intercalate (m :: ms), by simp [intercalate_cons_of_ne_nil]⟩

/-- What two ways to end lines, the second of which knows more ends, make of the first line `l` of a
text by the first way: the second way cuts it at each end that it holds. -/
structure FirstLine (p q : Char → Bool) (t l rest : Chars) : Prop where
  lines : linesBy p t = l :: linesBy p rest
  shift : linesBy q rest = (linesBy q t).drop (l.countP q + 1)
  whole : l.countP q = 0 → linesBy q t = l :: linesBy q rest
  cut : l.countP q ≠ 0 → ∃ l₁ c l₂ more, l = l₁ ++ c :: l₂ ∧ p c = false ∧ linesBy q t = l₁ :: more

section

variable {p q : Char → Bool} (hpq : ∀ c, p c = true → q c = true)

include hpq

lemma exists_firstLine (ht : t ≠ []) : ∃ l rest, FirstLine p q t l rest := by
  induction t with
  | nil => exact absurd rfl ht
  | cons c r ih =>
    cases hp : p c with
    | true =>
      have hq := linesBy_end (hpq c hp) r
      exact ⟨[], r, linesBy_end hp r, by simp [hq], fun _ => hq, by simp⟩
    | false =>
      by_cases hr : r = []
      · subst hr
        refine ⟨[c], [], linesBy_cons hp [], ?_, ?_, fun _ => ⟨[], c, [], [], rfl, hp, ?_⟩⟩
        all_goals cases hq : q c <;> simp_all [linesBy]
      · obtain ⟨l, rest, h⟩ := ih hr
        refine ⟨c :: l, rest, by simp [linesBy_cons hp, h.lines], ?_, ?_, ?_⟩
        all_goals cases hq : q c
        · rw [h.shift, linesBy_cons hq]
          cases hm : linesBy q r with
          | nil => exact absurd hm (linesBy_ne_nil hr)
          | cons m ms => simp [hq]
        · rw [h.shift, linesBy_end hq]
          simp [hq]
        · intro hcount
          have hwhole := h.whole (by simpa [hq] using hcount)
          simp [linesBy_cons hq, hwhole]
        · simp [hq]
        · intro hcount
          obtain ⟨l₁, d, l₂, more, rfl, hd, hmore⟩ := h.cut (by simpa [hq] using hcount)
          exact ⟨c :: l₁, d, l₂, more, rfl, hd, by simp [linesBy_cons hq, hmore]⟩
        · exact fun _ => ⟨[], c, l, linesBy q r, rfl, hp, linesBy_end hq r⟩

/-- Behind `k` lines the two ways go on with the same text, the second one later by as many lines as
there are ends of its own in those lines. -/
lemma exists_rest_of_drop (k : Nat) (t : Chars) : ∃ rest,
    linesBy p rest = (linesBy p t).drop k ∧
    linesBy q rest = (linesBy q t).drop (k + sumOf (·.countP q) ((linesBy p t).take k)) := by
  induction k generalizing t with
  | zero => exact ⟨t, rfl, rfl⟩
  | succ k ih =>
    by_cases ht : t = []
    · exact ⟨[], by simp [ht, linesBy]⟩
    · obtain ⟨l, next, h⟩ := exists_firstLine hpq ht
      obtain ⟨rest, hp, hq⟩ := ih next
      refine ⟨rest, by rw [hp, h.lines, drop_succ_cons], ?_⟩
      rw [hq, h.shift, h.lines, take_succ_cons, sumOf_cons, drop_drop]
      congr 1
      omega

/-- The first `k` lines read the same, one below the other, exactly if no line is cut. -/
lemma intercalate_take_iff (hfeed : p '\n' = true) (k : Nat) (t : Chars) :
    ['\n'].intercalate ((linesBy q t).take k) = ['\n'].intercalate ((linesBy p t).take k) ↔
      ∀ l ∈ (linesBy p t).take k, l.countP q = 0 := by
  induction k generalizing t with
  | zero => simp
  | succ k ih =>
    by_cases ht : t = []
    · simp [ht, linesBy]
    · obtain ⟨l, rest, h⟩ := exists_firstLine hpq ht
      rw [h.lines, take_succ_cons, forall_mem_cons, ← ih rest]
      by_cases hl : l.countP q = 0
      · rw [h.whole hl, take_succ_cons]
        by_cases hrest : rest = [] ∨ k = 0
        · rcases hrest with rfl | rfl <;> simp [linesBy, hl]
        · -- Both ways have a further line, so both texts go on after a line feed.
          obtain ⟨hrest, hk⟩ := not_or.mp hrest
          have hne : ∀ ends, (linesBy ends rest).take k ≠ [] := fun ends =>
            mt take_eq_nil_iff.mp (not_or.mpr ⟨hk, linesBy_ne_nil hrest⟩)
          simp [intercalate_cons_of_ne_nil, hne, hl]
      · -- After `l₁` one side goes on with the end `c`, which is no line feed; the other cannot.
        obtain ⟨l₁, c, l₂, more, rfl, hc, hmore⟩ := h.cut hl
        refine iff_of_false (fun heq => ?_) fun hboth => hl hboth.1
        obtain ⟨tail, htail, hhead⟩ := exists_intercalate_cons l₁ (more.take k)
        obtain ⟨tail', htail', -⟩ :=
          exists_intercalate_cons (l₁ ++ c :: l₂) ((linesBy p rest).take k)
        rw [hmore, take_succ_cons, htail, htail', append_assoc,
          append_cancel_left_eq] at heq
        obtain rfl : c = '\n' := hhead c (by simp [heq])
        simp [hfeed] at hc

end

/-! ## Line feeds and carriage returns -/

lemma linesFrom_cons {r : Chars} (h : ∀ r', c = '\r' → r = '\n' :: r' → False)
    (line : Chars) : linesFrom line (c :: r) =
      if isLineEnd c then line.reverse :: linesFrom [] r else linesFrom (c :: line) r := by
  rw [linesFrom]
  exact h

lemma linesFrom_eq (h : '\r' ∉ t) (line : Chars) :
    linesFrom line t = if line = [] ∧ t = [] then [] else
      (line.reverse ++ (linesBy isLineEnd t).head?.getD []) :: (linesBy isLineEnd t).tail := by
  induction t generalizing line with
  | nil => cases line <;> simp [linesFrom, linesBy]
  | cons c r ih =>
    obtain ⟨hc, hr⟩ : '\r' ≠ c ∧ '\r' ∉ r := by simpa using h
    rw [linesFrom_cons (by simp [hc.symm]), ih hr, ih hr]
    cases hend : isLineEnd c with
    | true =>
      by_cases ht : r = []
      · simp [ht, linesBy, hend]
      · simp [linesBy_end hend, ht, head_cons_tail ht]
    | false => simp [linesBy_cons hend]

lemma cr_notMem_plainLineEnds (text : Chars) : '\r' ∉ Source.plainLineEnds text := by
  fun_induction Source.plainLineEnds text with
  | case1 => simp
  | case2 r ih => simpa using ih
  | case3 c r hpair ih =>
    rw [mem_cons, not_or]
    refine ⟨?_, ih⟩
    split
    · decide
    · exact Ne.symm ‹_›

lemma linesFrom_plainLineEnds (text line : Chars) :
    linesFrom line (Source.plainLineEnds text) = linesFrom line text := by
  fun_induction Source.plainLineEnds text generalizing line with
  | case1 => rfl
  | case2 r ih =>
    rw [linesFrom_cons (by simp), if_pos (by decide), ih, linesFrom]
  | case3 c r hpair ih =>
    rw [linesFrom_cons hpair]
    by_cases hc : c = '\r'
    · rw [if_pos hc, linesFrom_cons (by simp), if_pos (by decide), hc, if_pos (by decide), ih]
    · rw [if_neg hc, linesFrom_cons (by simp [hc]), ih, ih]

lemma lines_eq_linesBy (text : Chars) :
    lines text = linesBy isLineEnd (Source.plainLineEnds text) := by
  rw [lines, ← linesFrom_plainLineEnds, linesFrom_eq (cr_notMem_plainLineEnds text)]
  by_cases h : Source.plainLineEnds text = []
  · simp [h, linesBy]
  · simp [h, head_cons_tail h]

end Text

namespace Outline

open Source Text

/-! ## The lines of a function -/

def programLines (s : String) : List Chars := linesBy (· = '\n') (plainLineEnds s.toList)

def strayEnds (ls : List Chars) : Nat := sumOf (·.countP isLineEnd) ls

/-- The text that is reported for a function on the lines `f.lineStart` to `f.lineEnd` of a program.
-/
structure TextOf (s : String) (f : Function) (b : Body) : Prop where
  name : b.name = f.name
  first : b.lineStart = f.lineStart
  last : b.lineEnd = f.lineEnd
  /-- With no stray end before the function, its lines are shown if and only if they hold none. -/
  right_iff : strayEnds ((programLines s).take (f.lineStart - 1)) = 0 →
    (b.body = .ofList (['\n'].intercalate
      (((programLines s).take f.lineEnd).drop (f.lineStart - 1))) ↔
    strayEnds (((programLines s).take f.lineEnd).drop (f.lineStart - 1)) = 0)
  /-- What is shown begins earlier by as many lines as there are stray ends before the function. -/
  early : ∃ rest, linesBy (· = '\n') rest = (programLines s).drop (f.lineStart - 1) ∧
    linesBy isLineEnd rest = (lines s.toList).drop
      (f.lineStart - 1 + strayEnds ((programLines s).take (f.lineStart - 1))) ∧
    b.body = .ofList (['\n'].intercalate
      (((lines s.toList).drop (f.lineStart - 1)).take (f.lineEnd - (f.lineStart - 1))))

lemma isLineEnd_of_lineFeed (c : Char) (h : decide (c = '\n') = true) : isLineEnd c = true := by
  rw [of_decide_eq_true h]
  rfl

lemma linesBetween_textLines (s : String) (a e : Nat) : linesBetween (textLines s) a e =
      .ofList (['\n'].intercalate (((lines s.toList).drop (a - 1)).take (e - (a - 1)))) := by
  rw [linesBetween, textLines, ← map_take, ← map_drop, drop_take,
    ← String.toList_inj, String.toList_intercalate, map_map]
  simp [Function.comp_def]

lemma textOf_of_lines {s : String} {f : Function} {b : Body} (hname : b.name = f.name)
    (hfirst : b.lineStart = f.lineStart) (hlast : b.lineEnd = f.lineEnd)
    (hbody : b.body = linesBetween (textLines s) f.lineStart f.lineEnd) : TextOf s f b := by
  rw [linesBetween_textLines] at hbody
  obtain ⟨rest, hp, hq⟩ := exists_rest_of_drop isLineEnd_of_lineFeed (f.lineStart - 1)
    (plainLineEnds s.toList)
  rw [← lines_eq_linesBy] at hq
  refine ⟨hname, hfirst, hlast, fun hnone => ?_, rest, hp, hq, hbody⟩
  have hlines : (lines s.toList).drop (f.lineStart - 1) = linesBy isLineEnd rest := by
    rw [strayEnds, programLines] at hnone
    rw [hq, hnone, Nat.add_zero]
  rw [hbody, String.ofList_inj, hlines, drop_take, programLines, ← hp, strayEnds,
    sumOf_eq_zero]
  exact intercalate_take_iff isLineEnd_of_lineFeed rfl _ rest

lemma lines_of_body? {ls : List String} {n : Node} {name : String} {b : Body}
    (h : body? ls n name = some b) : b.name = name ∧ b.lineStart = n.line ∧ b.lineEnd = n.endLine ∧
      b.body = linesBetween ls n.line n.endLine := by
  unfold body? at h
  dsimp only at h
  split at h
  all_goals
    obtain ⟨returns, -, h⟩ := Option.bind_eq_some_iff.mp h
    obtain rfl := Option.some.inj h
    exact ⟨rfl, rfl, rfl, rfl⟩

/-- The functions of an outline and those that are reported with their text go side by side. -/
lemma forall₂_textOf {s : String} {named : Node → Option (Node × String)}
    (hnamed : ∀ n, (named n = none ∧ function? n = none) ∨
      ∃ name, n.label = .function name ∧ named n = some (n, name)) {ns : List Node} {bs : List Body}
    (h : (ns.filterMap named).mapM (fun x => body? (textLines s) x.1 x.2) = some bs) :
    List.Forall₂ (TextOf s) (ns.filterMap function?) bs := by
  induction ns generalizing bs with
  | nil =>
    obtain rfl : [] = bs := by simpa using h
    exact .nil
  | cons n ns ih =>
    obtain ⟨hnone, hf⟩ | ⟨name, hlabel, hsome⟩ := hnamed n
    · rw [filterMap_cons_none hnone] at h
      rw [filterMap_cons_none hf]
      exact ih h
    · rw [filterMap_cons_some hsome, mapM_cons] at h
      obtain ⟨b, hb, h⟩ := Option.bind_eq_some_iff.mp h
      obtain ⟨bs', hbs, h⟩ := Option.bind_eq_some_iff.mp h
      obtain rfl : b :: bs' = bs := by simpa using h
      obtain ⟨hname, hfirst, hlast, hbody⟩ := lines_of_body? hb
      rw [filterMap_cons_some (by rw [function?, hlabel])]
      exact .cons (textOf_of_lines hname hfirst hlast hbody) (ih hbs)

/-- **The text of a function.** If a program is read and its functions can be reported, they are
those of its outline in the same order, each with its lines as far as no line end of Unicode other
than those of the program has been met. -/
theorem bodies_textOf {s : String} {root : Node} {bs : List Body}
    (hroot : parse? s.toList = some root) (hbs : bodiesOf? (textLines s) root = some bs) :
    bodies (.text s) (.text "python") = bs ∧
      List.Forall₂ (TextOf s) (Program.ofTree root).functions bs := by
  refine ⟨?_, forall₂_textOf (fun n => ?_) hbs⟩
  · rw [bodies, hroot, Option.bind_some, hbs, Option.getD_some]
  · rw [function?]
    split
    · exact .inr ⟨_, ‹_›, rfl⟩
    · exact .inl ⟨rfl, rfl⟩

/-- A form feed in a literal on the first line: the function on the lines 2 and 3 is shown with the
end of line 1 and without its own last line. -/
theorem text_after_formFeed : ∃ f b,
    bodies (.text "x = '\x0c'\ndef f():\n    pass\n") (.text "python") = [b] ∧
    TextOf "x = '\x0c'\ndef f():\n    pass\n" f b ∧ b.lineStart = 2 ∧ b.lineEnd = 3 ∧
    b.body = "'\ndef f():" ∧ (programLines "x = '\x0c'\ndef f():\n    pass\n").drop 1 =
      ["def f():".toList, "    pass".toList] := by
  have hrun : ((parse? "x = '\x0c'\ndef f():\n    pass\n".toList).bind fun root =>
      (bodiesOf? (textLines "x = '\x0c'\ndef f():\n    pass\n") root).map fun bs =>
        bs.map fun b => (b.lineStart, b.lineEnd, b.body)) = some [(2, 3, "'\ndef f():")] := by
    decide +kernel
  obtain ⟨root, hroot, hrun⟩ := Option.bind_eq_some_iff.mp hrun
  obtain ⟨bs, hbs, hrun⟩ := Option.map_eq_some_iff.mp hrun
  obtain ⟨hbodies, htexts⟩ := bodies_textOf hroot hbs
  obtain ⟨b, rfl, hb⟩ := map_eq_singleton_iff.mp hrun
  obtain ⟨f, fs, hf, hnil, -⟩ := forall₂_cons_right_iff.mp htexts
  obtain ⟨hfirst, hlast, hbody⟩ : b.lineStart = 2 ∧ b.lineEnd = 3 ∧ b.body = "'\ndef f():" := by
    simpa using hb
  exact ⟨f, b, hbodies, hf, hfirst, hlast, hbody, by decide +kernel⟩

end Outline

namespace Source

namespace Node

/-! ## Rows of two trees -/

lemma flatten_joinRows (as bs : List (List Node)) :
    (joinRows as bs).flatten.Perm (as.flatten ++ bs.flatten) := by
  induction as, bs using joinRows.induct with
  | case1 bs => simp [joinRows]
  | case2 as _ => cases as <;> simp [joinRows]
  | case3 a as b bs ih =>
    calc (joinRows (a :: as) (b :: bs)).flatten
        = a ++ (b ++ (joinRows as bs).flatten) := by simp [joinRows]
      List.Perm _ (a ++ (b ++ (as.flatten ++ bs.flatten))) := (ih.append_left b).append_left a
      List.Perm _ (a ++ (as.flatten ++ (b ++ bs.flatten))) :=
        (perm_append_comm_assoc ..).append_left a
      _ = (a :: as).flatten ++ (b :: bs).flatten := by simp

lemma flatten_rowsOf_append (as bs : List Node) :
    (rowsOf (as ++ bs)).flatten.Perm ((rowsOf as).flatten ++ (rowsOf bs).flatten) := by
  induction as with
  | nil => simp [rowsOf]
  | cons a as ih =>
    calc (rowsOf (a :: as ++ bs)).flatten
        = (joinRows a.rows (rowsOf (as ++ bs))).flatten := by rw [cons_append, rowsOf]
      List.Perm _ (a.rows.flatten ++ (rowsOf (as ++ bs)).flatten) := flatten_joinRows ..
      List.Perm _ (a.rows.flatten ++ ((rowsOf as).flatten ++ (rowsOf bs).flatten)) :=
        ih.append_left _
      _ = (a.rows.flatten ++ (rowsOf as).flatten) ++ (rowsOf bs).flatten := by
        rw [append_assoc]
      List.Perm _ ((rowsOf (a :: as)).flatten ++ (rowsOf bs).flatten) := by
        rw [rowsOf]
        exact (flatten_joinRows ..).symm.append_right _

lemma mem_rowsOf {as : List Node} {n : Node} : n ∈ (rowsOf as).flatten ↔ ∃ a ∈ as, n ∈ a.walk := by
  induction as with
  | nil => simp [rowsOf]
  | cons a as ih =>
    rw [rowsOf, (flatten_joinRows ..).mem_iff, mem_append, ih, exists_mem_cons_iff]
    rfl

lemma walk_eq (n : Node) : n.walk = n :: (rowsOf n.children).flatten := by
  cases n with
  | mk => rw [walk, rows, flatten_cons]; rfl

end Node

/-! ## Programs -/

/-- The program with the given statements, whose last token ends on a line. -/
def moduleOf (last : Nat) (body : List Node) : Node :=
  .mk .root .module 0 last (body.map (·.as .body))

def nodesIn (body : List Node) : List Node := (Node.rowsOf (body.map (·.as .body))).flatten

lemma walk_moduleOf (last : Nat) (body : List Node) :
    (moduleOf last body).walk = moduleOf last body :: nodesIn body :=
  Node.walk_eq _

lemma nodesIn_append (b₁ b₂ : List Node) :
    (nodesIn (b₁ ++ b₂)).Perm (nodesIn b₁ ++ nodesIn b₂) := by
  unfold nodesIn
  rw [map_append]
  exact Node.flatten_rowsOf_append ..

/-- Every text that is read is the program of some statements. -/
lemma parse?_moduleOf {text : Chars} {root : Node} (h : parse? text = some root) :
    ∃ last body, root = moduleOf last body := by
  obtain ⟨tree, htree, rfl⟩ := Option.map_eq_some_iff.mp h
  obtain ⟨tokens, _, htree⟩ := Option.bind_eq_some_iff.mp htree
  obtain ⟨⟨tree, after⟩, hread, rfl⟩ := Option.map_eq_some_iff.mp htree
  obtain ⟨⟨stmts, before⟩, _, hnode⟩ := Option.bind_eq_some_iff.mp hread
  cases hnode
  refine ⟨_, stmts.reverse.flatten.map (·.node), congrArg (Node.mk .root .module 0 _) ?_⟩
  rw [asParts, map_map, map_map]
  rfl

/-- Not a whole number with more than 4300 digits. -/
def isShort (n : Node) : Bool :=
  match n.label with
  | .constant (.int v) => (Decimal.natDigits v).length ≤ 4300
  | _ => true

/-- No whole number in some statements has more than 4300 digits. -/
def ShortNumbers (body : List Node) : Prop := ∀ s ∈ body, ∀ n ∈ s.walk, isShort n = true

instance (body : List Node) : Decidable (ShortNumbers body) := List.decidableBAll _ body

lemma ShortNumbers.nodesIn {body : List Node} (h : ShortNumbers body) :
    ∀ n ∈ nodesIn body, isShort n = true := by
  intro n hn
  obtain ⟨part, hpart, hn⟩ := Node.mem_rowsOf.mp hn
  obtain ⟨s, hs, rfl⟩ := mem_map.mp hpart
  rw [Node.walk_eq] at hn
  -- The role is all that a statement does not share with the part that it becomes.
  rcases mem_cons.mp hn with rfl | hn
  · exact h s hs s (by rw [Node.walk_eq]; exact mem_cons_self ..)
  · exact h s hs n (by rw [Node.walk_eq]; exact mem_cons_of_mem _ hn)

end Source

namespace Lint

open Source

lemma isUnwritable_of_short {n : Node} (h : isShort n = true) : isUnwritable n = false := by
  unfold isShort at h
  unfold isUnwritable
  split
  · next v hv =>
    rw [hv] at h
    have hless := (Nat.length_toDigits_le_iff (by decide) (by decide)).mp (of_decide_eq_true h)
    rw [intDigits?, Nat.pow_eq, if_neg (Nat.not_le.mpr hless)]
    rfl
  · rfl

def findingsAt (nodes : List Node) : List Finding := passes.flatMap (nodes.flatMap ·)

lemma findings_eq {tree : Node} (h : ∀ n ∈ tree.walk, isShort n = true) :
    findings tree = findingsAt tree.walk := by
  refine if_neg ?_
  rw [Bool.not_eq_true, any_eq_false]
  exact fun n hn => by rw [isUnwritable_of_short (h n hn)]; decide

lemma findingsAt_perm {ms ns : List Node} (h : ms.Perm ns) : (findingsAt ms).Perm (findingsAt ns) :=
  List.Perm.flatMap_left _ fun _ _ => h.flatMap_right _

lemma findingsAt_append (ms ns : List Node) :
    (findingsAt (ms ++ ns)).Perm (findingsAt ms ++ findingsAt ns) := by
  unfold findingsAt
  simp only [flatMap_append]
  exact (flatMap_append_perm ..).symm

lemma findingsAt_root (last : Nat) (body nodes : List Node) :
    findingsAt (moduleOf last body :: nodes) = findingsAt nodes := rfl

lemma findings_moduleOf {body : List Node} (h : ShortNumbers body) (last : Nat) :
    findings (moduleOf last body) = findingsAt (nodesIn body) := by
  rw [findings_eq, walk_moduleOf, findingsAt_root]
  rw [walk_moduleOf]
  exact forall_mem_cons.mpr ⟨rfl, h.nodesIn⟩

/-- **Programs add up.** The findings for the statements of two programs one after the other are, each
with all that it says and as often as it is there, the findings for the first and those for the
second. -/
theorem findings_append {b₁ b₂ : List Node} (h₁ : ShortNumbers b₁) (h₂ : ShortNumbers b₂)
    (last last₁ last₂ : Nat) : (findings (moduleOf last (b₁ ++ b₂)) : Multiset Finding) =
      findings (moduleOf last₁ b₁) + findings (moduleOf last₂ b₂) := by
  have h : ShortNumbers (b₁ ++ b₂) := forall_mem_append.mpr ⟨h₁, h₂⟩
  rw [findings_moduleOf h, findings_moduleOf h₁, findings_moduleOf h₂, Multiset.coe_add,
    Multiset.coe_eq_coe]
  calc List.Perm (findingsAt (nodesIn (b₁ ++ b₂))) (findingsAt (nodesIn b₁ ++ nodesIn b₂)) :=
        findingsAt_perm (nodesIn_append b₁ b₂)
    List.Perm _ (findingsAt (nodesIn b₁) ++ findingsAt (nodesIn b₂)) := findingsAt_append ..

def addingLoop : Node :=
  .mk .root .forLoop 1 1
    [.mk .target (.name "x" .store) 1 1 [], .mk .iter (.name "y" .load) 1 1 [],
      .mk .body (.augAssign .add) 1 1
        [.mk .target (.name "z" .store) 1 1 [], .mk .value (.constant (.int 2)) 1 1 []]]

def evalCall : Node :=
  .mk .root .exprStmt 3 3
    [.mk .value .call 3 3
      [.mk .func (.name "eval" .load) 3 3 [], .mk .arg (.constant (.int 7)) 3 3 []]]

/-- In the whole program the two numbers come first; apart from the order each part gives what it
gives alone. -/
theorem findings_of_loop_and_call :
    let rules (body : List Node) : List (String × Nat) :=
      (findings (moduleOf 3 body)).map fun f => (f.ruleId, f.line)
    ShortNumbers [addingLoop] ∧ ShortNumbers [evalCall] ∧
      rules [addingLoop] = [("magic_number", 1), ("string_concat_loop", 1)] ∧
      rules [evalCall] = [("magic_number", 3), ("eval_usage", 3)] ∧
      rules [addingLoop, evalCall] =
        [("magic_number", 1), ("magic_number", 3), ("string_concat_loop", 1), ("eval_usage", 3)] ∧
      (findings (moduleOf 3 [addingLoop, evalCall]) : Multiset Finding) =
        findings (moduleOf 1 [addingLoop]) + findings (moduleOf 3 [evalCall]) := by
  have hloop : ShortNumbers [addingLoop] := by decide
  have hcall : ShortNumbers [evalCall] := by decide
  exact ⟨hloop, hcall, by decide +kernel, by decide +kernel, by decide +kernel,
    findings_append hloop hcall 3 1 3⟩

end Lint

/-!
## Two counts of branches

The rules for programs and the outline of a program both measure how complex a function is. The
rules count assertions as well, and an `and` or `or` once for every operand after the first, where
the outline counts it once. The two agree on functions without assertions whose conditions join two
operands at a time.
-/

open Source Tally

namespace Source

lemma Node.WellFormed.of_mem_walk {root n : Node} (h : root.WellFormed) (hn : n ∈ root.walk) :
    n.WellFormed := by
  induction h with
  | mk fits parts ih =>
    rw [Node.walk_eq] at hn
    rcases mem_cons.mp hn with rfl | hn
    · exact .mk fits parts
    · obtain ⟨c, hc, hn⟩ := Node.mem_rowsOf.mp hn
      exact ih c hc hn

def Node.isAssert (n : Node) : Bool :=
  match n.label with
  | .assert => true
  | _ => false

def Node.isBoolOp (n : Node) : Bool :=
  match n.label with
  | .boolOp _ => true
  | _ => false

def Node.operands (n : Node) : Nat := (n.parts .value).length

lemma Node.WellFormed.two_le_operands {n : Node} (h : n.WellFormed) (hop : n.isBoolOp = true) :
    2 ≤ n.operands := by
  cases h with
  | @mk role label line endLine children fits parts =>
    cases label with
    | boolOp op =>
      have hall : children.filter (·.role = .value) = children :=
        filter_eq_self.mpr fun c hc => decide_eq_true (fits.2 c hc)
      show 2 ≤ (children.filter (·.role = .value)).length
      rw [hall]
      exact fits.1
    | _ => cases hop

end Source

/-- What one node counts for in the two measures. -/
lemma branchWeight_eq {n : Node} (h : n.WellFormed) :
    Lint.branchWeight n = (if Outline.isBranch n.label then 1 else 0) +
      (if n.isAssert then 1 else 0) + (if n.isBoolOp then n.operands - 2 else 0) := by
  have htwo := h.two_le_operands
  obtain ⟨role, label, line, endLine, children⟩ := n
  cases label with
  | boolOp op =>
    have htwo := htwo rfl
    show Node.operands _ - 1 = 1 + 0 + (Node.operands _ - 2)
    omega
  | _ => rfl

section

variable {n : Node} (h : n.WellFormed)

include h

lemma complexity_eq_add : Lint.complexity n = Outline.complexity n +
    (n.walk.filter Node.isAssert).length +
      sumOf (fun m => m.operands - 2) (n.walk.filter Node.isBoolOp) := by
  have hweights := sumOf_congr fun m (hm : m ∈ n.walk) => branchWeight_eq (h.of_mem_walk hm)
  rw [Lint.complexity, Outline.complexity, hweights, sumOf_add, sumOf_add, sumOf_ite, sumOf_ite,
    sumOf_filter, ← countP_eq_length_filter]
  omega

lemma complexity_eq_iff : Lint.complexity n = Outline.complexity n ↔
    ∀ m ∈ n.walk, m.isAssert = false ∧ (m.isBoolOp = true → m.operands ≤ 2) := by
  have hadd := complexity_eq_add h
  have hasserts : (n.walk.filter Node.isAssert).length = 0 ↔ ∀ m ∈ n.walk, m.isAssert = false := by
    simp only [length_eq_zero_iff, filter_eq_nil_iff, Bool.not_eq_true]
  have hmore : sumOf (fun m => m.operands - 2) (n.walk.filter Node.isBoolOp) = 0 ↔
      ∀ m ∈ n.walk, m.isBoolOp = true → m.operands ≤ 2 := by
    simp only [sumOf_eq_zero, mem_filter, and_imp, Nat.sub_eq_zero_iff_le]
  constructor
  · intro heq m hm
    exact ⟨hasserts.mp (by omega) m hm, hmore.mp (by omega) m hm⟩
  · intro hall
    have hnone := hasserts.mpr fun m hm => (hall m hm).1
    have htwo := hmore.mpr fun m hm => (hall m hm).2
    omega

end

/-- **How the two measures differ.** For every part of a program that was read, so for every
function of it, the measure of the rules is that of the outline, the number of assertions, and for
each `and` or `or` the number of its operands beyond two, of which it has two at least. So the first
measure is never smaller, and the two agree exactly if there is no assertion and no operation with
more operands. -/
theorem measures_differ_by {text : List Char} {root n : Node} (hroot : parse? text = some root)
    (hn : n ∈ root.walk) :
    Lint.complexity n = Outline.complexity n + (n.walk.filter Node.isAssert).length +
      sumOf (fun m => m.operands - 2) (n.walk.filter Node.isBoolOp) ∧
    (∀ m ∈ n.walk.filter Node.isBoolOp, 2 ≤ m.operands) ∧ Outline.complexity n ≤ Lint.complexity n ∧
    (Lint.complexity n = Outline.complexity n ↔
      ∀ m ∈ n.walk, m.isAssert = false ∧ (m.isBoolOp = true → m.operands ≤ 2)) := by
  have h := (parse?_wellFormed hroot).of_mem_walk hn
  have hadd := complexity_eq_add h
  refine ⟨hadd, fun m hm => ?_, by omega, complexity_eq_iff h⟩
  obtain ⟨hm, hop⟩ := mem_filter.mp hm
  exact (h.of_mem_walk hm).two_le_operands hop

/-- A function that asserts three things at once: the outline sees one branch, the rules see
three. -/
theorem measures_of_assertion : ∃ root n,
    parse? "def f(a, b, c):\n assert a and b and c\n".toList = some root ∧ n ∈ root.walk ∧
    Lint.functionName? n = some "f" ∧ Outline.complexity n = 2 ∧ Lint.complexity n = 4 ∧
    Lint.complexity n = Outline.complexity n + (n.walk.filter Node.isAssert).length +
      sumOf (fun m => m.operands - 2) (n.walk.filter Node.isBoolOp) := by
  have hrun : (parse? "def f(a, b, c):\n assert a and b and c\n".toList).any (fun root =>
      root.walk.any fun n => Lint.functionName? n = some "f" ∧ Outline.complexity n = 2 ∧
        Lint.complexity n = 4) = true := by
    decide +kernel
  generalize hroot : parse? _ = read at hrun ⊢
  cases read with
  | none => cases hrun
  | some root =>
    obtain ⟨n, hn, hfigures⟩ := any_eq_true.mp hrun
    obtain ⟨hname, houtline, hrules⟩ := of_decide_eq_true hfigures
    exact ⟨root, n, rfl, hn, hname, houtline, hrules, (measures_differ_by hroot hn).1⟩

end ReviewDesk
