import ReviewDesk.Proofs.Groups
import ReviewDesk.Proofs.HunkLines

/-!
# Counts of changed lines

The changed lines of a text are counted over its rows, by their sign alone, and over its hunks. The
second count lacks the rows that stray outside hunks, and these are all that it lacks.

Among the changed lines, those that define a function are counted as added or removed. A removed one
is taken for an added one if the hunk also adds the same line under the same number.
-/

namespace ReviewDesk

open List

namespace Tally

/-- If every step adds a weight to a size, a whole run adds the sum of the weights. -/
lemma foldl_eq_add_sumOf {σ α : Type} {step : σ → α → σ} (size : σ → Nat) {weight : α → Nat}
    (h : ∀ s x, size (step s x) = size s + weight x) (s : σ) (xs : List α) :
    size (xs.foldl step s) = size s + sumOf weight xs := by
  induction xs generalizing s with
  | nil => rfl
  | cons x xs ih => rw [foldl_cons, ih, h, sumOf_cons, Nat.add_assoc]

end Tally

namespace Diff

open Tally

variable {rows : List Row} {row : Row} {h : Hunk} (sign : Sign) (q : LinePatterns)

/-! ## Rows outside hunks -/

def lineTotal (hs : List Hunk) : Nat := sumOf (fun h => (h.lines sign).length) hs

/-- Whether a hunk is open after rows, if `isOpen` tells it for the time before them. The last row
that begins with `@@` decides. -/
def openAfter (isOpen : Bool) (rows : List Row) : Bool :=
  ((rows.filter beginsHunk).getLast?.map fun row => decide (IsHeader row)).getD isOpen

def strays (isOpen : Bool) : List Row → List Row
  | [] => []
  | row :: rows =>
    if beginsHunk row then strays (IsHeader row) rows
    else if isOpen then strays isOpen rows
    else row :: strays isOpen rows

lemma openAfter_cons (isOpen : Bool) (row : Row) (rows : List Row) :
    openAfter isOpen (row :: rows) =
      openAfter (if beginsHunk row then decide (IsHeader row) else isOpen) rows := by
  unfold openAfter
  by_cases hrow : beginsHunk row
  · rw [filter_cons_of_pos hrow, if_pos hrow, getLast?_cons]
    cases (rows.filter beginsHunk).getLast? <;> rfl
  · rw [filter_cons_of_neg hrow, if_neg hrow]

lemma exists_split_cons {α : Type} {P : List α → Prop} {a x : α} {l : List α} :
    (∃ before after, a :: l = before ++ x :: after ∧ P before) ↔
      (a = x ∧ P []) ∨ ∃ before after, l = before ++ x :: after ∧ P (a :: before) := by
  constructor
  · rintro ⟨before, after, hl, hP⟩
    rcases cons_eq_append_iff.mp hl with ⟨rfl, hx⟩ | ⟨before, rfl, hrest⟩
    · exact .inl ⟨(List.cons.inj hx).1.symm, hP⟩
    · exact .inr ⟨before, after, hrest, hP⟩
  · rintro (⟨rfl, hP⟩ | ⟨before, after, rfl, hP⟩)
    · exact ⟨[], l, rfl, hP⟩
    · exact ⟨a :: before, after, rfl, hP⟩

lemma mem_strays {isOpen : Bool} : row ∈ strays isOpen rows ↔ beginsHunk row = false ∧
      ∃ before after, rows = before ++ row :: after ∧ openAfter isOpen before = false := by
  induction rows generalizing isOpen with
  | nil => simp [strays]
  | cons r rows ih =>
    rw [exists_split_cons, strays]
    simp only [openAfter_cons]
    have hnow : openAfter isOpen [] = isOpen := rfl
    by_cases hr : beginsHunk r
    · rw [if_pos hr, if_pos hr, ih]
      refine and_congr_right fun hrow => ⟨.inr, fun h => h.resolve_left ?_⟩
      rintro ⟨rfl, _⟩
      exact absurd hr (Bool.eq_false_iff.mp hrow)
    · rw [if_neg hr, if_neg hr, hnow]
      cases isOpen with
      | true =>
        rw [if_pos rfl, ih]
        simp
      | false =>
        rw [if_neg Bool.false_ne_true, mem_cons, ih]
        constructor
        · rintro (rfl | ⟨hrow, hlater⟩)
          · exact ⟨Bool.eq_false_iff.mpr hr, .inl ⟨rfl, rfl⟩⟩
          · exact ⟨hrow, .inr hlater⟩
        · rintro ⟨hrow, ⟨rfl, _⟩ | hlater⟩
          · exact .inl rfl
          · exact .inr ⟨hrow, hlater⟩

/-! ## Two counts -/

lemma Sign.marks_of_beginsHunk (h : beginsHunk row = true) (sign : Sign) :
    sign.marks row = false := by
  obtain ⟨r, rfl⟩ := isPrefixOf_iff_prefix.mp h
  cases sign <;> rfl

lemma length_lines_add (h : Hunk) (row : Row) (sign : Sign) :
    ((h.add row).lines sign).length = (h.lines sign).length + if sign.marks row then 1 else 0 := by
  rw [lines_add]
  split
  · rw [length_append, length_singleton]
  · rfl

lemma lineTotal_add_strays (o : Option Hunk) (rows : List Row) :
    lineTotal sign (hunksFrom o rows) + (strays o.isSome rows).countP sign.marks =
      lineTotal sign o.toList + rows.countP sign.marks := by
  induction rows generalizing o with
  | nil => rfl
  | cons row rows ih =>
    rw [hunksFrom, strays, countP_cons]
    by_cases hrow : beginsHunk row
    · -- the open hunk is closed, and the next one, if there is a header, has no lines yet
      have hopen : (hunkHeader? row).isSome = decide (IsHeader row) :=
        Bool.eq_iff_iff.mpr (isSome_hunkHeader?.trans decide_eq_true_iff.symm)
      have hempty : lineTotal sign (hunkHeader? row).toList = 0 := by
        cases hhead : hunkHeader? row with
        | none => rfl
        | some h => simp [lineTotal, lines_hunkHeader? hhead]
      have ih := ih (hunkHeader? row)
      rw [hopen, hempty] at ih
      rw [if_pos hrow, if_pos hrow, lineTotal, sumOf_append, ← lineTotal, ← lineTotal,
        sign.marks_of_beginsHunk hrow]
      simp only [Bool.false_eq_true, ↓reduceIte]
      omega
    · -- the row goes to the open hunk or, if there is none, strays
      rw [if_neg hrow, if_neg hrow]
      have ih := ih (o.map (·.add row))
      cases o with
      | none =>
        simp only [Option.map_none, Option.isSome_none, Bool.false_eq_true, ↓reduceIte,
          countP_cons] at ih ⊢
        omega
      | some h =>
        have hadd := length_lines_add h row sign
        simp only [Option.map_some, Option.isSome_some, ↓reduceIte, Option.toList_some, lineTotal,
          sumOf_cons, sumOf_nil] at ih ⊢
        omega

lemma lineTotal_hunks (rows : List Row) :
    lineTotal sign (hunks rows) + (strays false rows).countP sign.marks =
      rows.countP sign.marks := by
  have htotal := lineTotal_add_strays sign none rows
  rwa [Option.toList_none, lineTotal, lineTotal, sumOf_nil, Nat.zero_add] at htotal

/-- What the hunks of rows add and remove. -/
def hunkChanges (rows : List Row) : Nat × Nat :=
  (sumOf (·.added.length) (hunks rows), sumOf (·.removed.length) (hunks rows))

/-- A row with the sign of an added or a removed line. -/
def IsChange (row : Row) : Prop := Sign.added.marks row = true ∨ Sign.removed.marks row = true

/-- The last row that begins with `@@` is a header. -/
def InHunk (before : List Row) : Prop :=
  ∃ head, (before.filter beginsHunk).getLast? = some head ∧ IsHeader head

lemma openAfter_false {before : List Row} : openAfter false before = true ↔ InHunk before := by
  unfold openAfter InHunk
  cases (before.filter beginsHunk).getLast? <;> simp

lemma changedLines_eq (text : Chars) :
    Git.changedLines text = ((Text.rows text).countP Sign.added.marks,
      (Text.rows text).countP Sign.removed.marks) := by
  have hhead (c : Char) (row : Row) : decide (row.head? = some c) = Text.startsWith [c] row := by
    rw [Bool.eq_iff_iff, decide_eq_true_iff, head?_eq_some_iff, Text.startsWith,
      isPrefixOf_iff_prefix]
    exact exists_congr fun _ => eq_comm
  unfold Git.changedLines
  simp only [hhead]
  rfl

lemma strays_iff : (∀ row ∈ strays false rows, ¬IsChange row) ↔
      ∀ before row after, rows = before ++ row :: after → IsChange row → InHunk before := by
  constructor
  · intro h before row after hrows hchange
    refine openAfter_false.mp ((Bool.not_eq_false _).mp fun hclosed => ?_)
    refine h row (mem_strays.mpr ⟨Bool.eq_false_iff.mpr fun hbegins => ?_, ?_⟩) hchange
    · rcases hchange with hmarks | hmarks <;> simp [Sign.marks_of_beginsHunk hbegins] at hmarks
    · exact ⟨before, after, hrows, hclosed⟩
  · intro h row hrow hchange
    obtain ⟨_, before, after, hrows, hclosed⟩ := mem_strays.mp hrow
    rw [openAfter_false.mpr (h before row after hrows hchange)] at hclosed
    cases hclosed

/-- The hunks of a text never tell more changes than its rows. They tell as many exactly if before
each row that counts as a change the last one that begins with `@@` is a header. -/
theorem hunkChanges_le_and_eq_iff (text : List Char) :
    ((hunkChanges (Text.rows text)).1 ≤ (Git.changedLines text).1 ∧
        (hunkChanges (Text.rows text)).2 ≤ (Git.changedLines text).2) ∧
      (hunkChanges (Text.rows text) = Git.changedLines text ↔
        ∀ before row after, Text.rows text = before ++ row :: after → IsChange row →
          InHunk before) := by
  have hadded := lineTotal_hunks .added (Text.rows text)
  have hremoved := lineTotal_hunks .removed (Text.rows text)
  have hnone : (∀ row ∈ strays false (Text.rows text), ¬IsChange row) ↔
      (strays false (Text.rows text)).countP Sign.added.marks = 0 ∧
        (strays false (Text.rows text)).countP Sign.removed.marks = 0 := by
    simp only [IsChange, not_or, countP_eq_zero, forall_and]
  have hchanges : hunkChanges (Text.rows text) = (lineTotal .added (hunks (Text.rows text)),
      lineTotal .removed (hunks (Text.rows text))) := rfl
  rw [← strays_iff, hnone, changedLines_eq, hchanges, Prod.mk.injEq]
  omega

/-! ## Lines that define a function -/

/-- The line without blanks around it begins the definition of a function or a class. -/
def isDefinition (content : Row) : Bool :=
  ["def ", "function ", "class "].any fun word => Text.startsWith word.toList (Text.trim content)

lemma lineKind_eq_definition {content : Row} :
    lineKind (Text.trim content) = .definition ↔ isDefinition content = true := by
  unfold lineKind isDefinition
  dsimp only
  generalize Text.trim content = t
  -- no word that begins an import begins like one that begins a definition
  have hapart : (["import ", "from ", "#include", "require("].any fun p =>
        Text.startsWith p.toList t) = true →
      (["def ", "function ", "class "].any fun p => Text.startsWith p.toList t) = false := by
    intro himport
    obtain ⟨p, hp, hstarts⟩ := any_eq_true.mp himport
    obtain ⟨r, rfl⟩ := isPrefixOf_iff_prefix.mp hstarts
    fin_cases hp <;> rfl
  split
  · rename_i himport
    simp [hapart himport]
  · split
    · rename_i hdefinition
      simp [hdefinition]
    · rename_i hdefinition
      split <;> simp [hdefinition]

def LinePatterns.definitions : Bool → Nat
  | true => q.functionAdditions
  | false => q.functionDeletions

/-- The definitions of a hunk that are counted as added, and those counted as removed. -/
def Hunk.counted (h : Hunk) (asAdded : Bool) : Nat :=
  (h.added ++ h.removed).countP fun l => isDefinition l.content && h.added.contains l == asAdded

lemma definitions_count (h : Hunk) (l : NumberedLine) (asAdded : Bool) :
    (q.count h l).definitions asAdded = q.definitions asAdded +
      if isDefinition l.content && h.added.contains l == asAdded then 1 else 0 := by
  have hkind : lineKind (Text.trim l.content) = .definition ↔ _ := lineKind_eq_definition
  unfold LinePatterns.count
  cases hline : lineKind (Text.trim l.content) with
  | definition =>
    rw [hkind.mp hline]
    cases hadded : h.added.contains l <;> cases asAdded <;> rfl
  | «import» | comment | other =>
    have hnot : isDefinition l.content = false := by
      rw [← Bool.not_eq_true, ← hkind, hline]
      simp
    rw [hnot]
    cases asAdded <;> rfl

lemma definitions_countHunk (h : Hunk) (asAdded : Bool) :
    (q.countHunk h).definitions asAdded = q.definitions asAdded + h.counted asAdded := by
  rw [LinePatterns.countHunk, Hunk.counted, ← sumOf_ite]
  exact foldl_eq_add_sumOf (·.definitions asAdded)
    (fun q l => definitions_count q h l asAdded) q _

lemma definitions_countFile (f : FilePatch) (asAdded : Bool) :
    (q.countFile f).definitions asAdded =
      q.definitions asAdded + sumOf (·.counted asAdded) f.hunks := by
  rw [LinePatterns.countFile, foldl_eq_add_sumOf (·.definitions asAdded)
    (fun q h => definitions_countHunk q h asAdded)]
  -- the counts of tests and documents are other fields
  cases isTestPath f.path <;> cases isDocumentPath f.path <;> cases asAdded <;> rfl

def Patch.hunks (p : Patch) : List Hunk := p.files.flatMap (·.hunks)

lemma definitions_linePatterns (p : Patch) (asAdded : Bool) :
    (linePatterns p).definitions asAdded = sumOf (·.counted asAdded) p.hunks := by
  rw [Patch.hunks, sumOf_flatMap]
  have hfold := foldl_eq_add_sumOf (·.definitions asAdded)
    (fun q f => definitions_countFile q f asAdded) {} p.files
  have hstart : LinePatterns.definitions {} asAdded = 0 := by cases asAdded <;> rfl
  rwa [hstart, Nat.zero_add] at hfold

/-! ## Definitions that come back -/

/-- The number of lines with a sign that define a function. -/
def Hunk.definitions (h : Hunk) (sign : Sign) : Nat :=
  (h.lines sign).countP (isDefinition ·.content)

/-- The number of definitions that are both removed and, as the same line, added. -/
def Hunk.returned (h : Hunk) : Nat :=
  h.removed.countP fun l => isDefinition l.content && h.added.contains l

lemma counted_true (h : Hunk) : h.counted true = h.definitions .added + h.returned := by
  have hadded : h.added.countP (fun l => isDefinition l.content && h.added.contains l) =
      h.added.countP (isDefinition ·.content) :=
    countP_congr fun l hl => by simp [hl]
  simp only [Hunk.counted, countP_append, beq_true, hadded, Hunk.definitions, Hunk.lines,
    Hunk.returned]

lemma counted_false (h : Hunk) : h.counted false + h.returned = h.definitions .removed := by
  have hadded : h.added.countP (fun l => isDefinition l.content && !h.added.contains l) = 0 :=
    countP_eq_zero.mpr fun l hl => by simp [hl]
  have hsplit := length_eq_countP_add_countP h.added.contains
    (l := h.removed.filter (isDefinition ·.content))
  rw [countP_filter, countP_filter, ← countP_eq_length_filter] at hsplit
  simp only [Hunk.counted, countP_append, beq_false, hadded, Hunk.definitions, Hunk.lines,
    Hunk.returned]
  simp only [Bool.and_comm, decide_not, Bool.decide_eq_true] at hsplit ⊢
  omega

/-- A definition that is removed as the line `i` of its sign is added as the line `j` of the other,
and both are told with the same number. -/
def Hunk.BringsBack (h : Hunk) : Prop :=
  ∃ i j content, isDefinition content = true ∧ (h.removed.map (·.content))[i]? = some content ∧
    (h.added.map (·.content))[j]? = some content ∧ h.oldStart + i = h.newStart + j

def Hunk.Numbered (h : Hunk) : Prop :=
  ∀ (sign : Sign) (i : Nat) (l : NumberedLine), (h.lines sign)[i]? = some l →
    l.number = h.start sign + i

lemma numbered_of_mem_hunks (hh : h ∈ hunks rows) : h.Numbered := by
  rw [hunks_eq] at hh
  obtain ⟨s, _, hs⟩ := mem_filterMap.mp hh
  intro sign i l hl
  rw [lines_of_hunk? hs, getElem?_map, getElem?_zipIdx, Option.map_map] at hl
  obtain ⟨row, _, rfl⟩ := Option.map_eq_some_iff.mp hl
  rfl

lemma numbered_of_mem_parse {text : Chars} (hh : h ∈ (parse text).hunks) : h.Numbered := by
  obtain ⟨f, hf, hh⟩ := mem_flatMap.mp hh
  unfold parse at hf
  split at hf
  · cases hf
  · obtain ⟨part, _, hpart⟩ := mem_filterMap.mp hf
    unfold filePatch? at hpart
    dsimp only at hpart
    split at hpart
    · cases hpart
      exact numbered_of_mem_hunks hh
    · cases hpart

lemma returned_eq_zero_iff (hh : h.Numbered) : h.returned = 0 ↔ ¬h.BringsBack := by
  have hzero : h.returned = 0 ↔ ∀ l ∈ h.removed, isDefinition l.content = true → l ∉ h.added := by
    simp [Hunk.returned, countP_eq_zero]
  rw [hzero]
  constructor
  · rintro hnone ⟨i, j, content, hdefinition, hremoved, hadded, hnumber⟩
    rw [getElem?_map] at hremoved hadded
    obtain ⟨l, hl, rfl⟩ := Option.map_eq_some_iff.mp hremoved
    obtain ⟨m, hm, hcontent⟩ := Option.map_eq_some_iff.mp hadded
    have hlm : l = m := by
      cases l
      cases m
      rw [NumberedLine.mk.injEq]
      exact ⟨(hh .removed i _ hl).trans (hnumber.trans (hh .added j _ hm).symm), hcontent.symm⟩
    exact hnone l (mem_of_getElem? hl) hdefinition (hlm ▸ mem_of_getElem? hm)
  · intro hnone l hremoved hdefinition hadded
    obtain ⟨i, hi⟩ := getElem?_of_mem hremoved
    obtain ⟨j, hj⟩ := getElem?_of_mem hadded
    refine hnone ⟨i, j, l.content, hdefinition, ?_, ?_, ?_⟩
    · rw [getElem?_map, hi, Option.map_some]
    · rw [getElem?_map, hj, Option.map_some]
    · exact (hh .removed i l hi).symm.trans (hh .added j l hj)

/-- The definitions counted as added and as removed are the added and the removed ones exactly if no
hunk adds a definition that it removes under the same number. -/
theorem definitions_counted_iff (text : List Char) :
    ((linePatterns (parse text)).functionAdditions =
          sumOf (·.definitions .added) (parse text).hunks ∧
        (linePatterns (parse text)).functionDeletions =
          sumOf (·.definitions .removed) (parse text).hunks) ↔
      ∀ h ∈ (parse text).hunks, ¬h.BringsBack := by
  have hadded : (linePatterns (parse text)).functionAdditions =
      sumOf (·.definitions .added) (parse text).hunks +
        sumOf Hunk.returned (parse text).hunks := by
    rw [← sumOf_add]
    simp only [← counted_true]
    exact definitions_linePatterns (parse text) true
  have hremoved : (linePatterns (parse text)).functionDeletions +
      sumOf Hunk.returned (parse text).hunks =
        sumOf (·.definitions .removed) (parse text).hunks := by
    simp only [← counted_false]
    rw [sumOf_add, ← definitions_linePatterns]
    rfl
  have hnone : (∀ h ∈ (parse text).hunks, ¬h.BringsBack) ↔
      sumOf Hunk.returned (parse text).hunks = 0 := by
    rw [sumOf_eq_zero]
    exact forall₂_congr fun h hh => (returned_eq_zero_iff (numbered_of_mem_parse hh)).symm
  rw [hnone]
  omega

def lineFeedAdded : Chars :=
  ("diff --git a/f.py b/f.py\n@@ -1 +1 @@\n-def f(): pass\n\\ No newline at end of file\n" ++
    "+def f(): pass\n").toList

/-- One definition is removed and one added, and both are counted as added. -/
theorem removed_counts_as_added : ((linePatterns (parse lineFeedAdded)).functionAdditions = 2 ∧
        (linePatterns (parse lineFeedAdded)).functionDeletions = 0) ∧
      ¬((linePatterns (parse lineFeedAdded)).functionAdditions =
            sumOf (·.definitions .added) (parse lineFeedAdded).hunks ∧
          (linePatterns (parse lineFeedAdded)).functionDeletions =
            sumOf (·.definitions .removed) (parse lineFeedAdded).hunks) := by
  have hhunk : (parse lineFeedAdded).hunks =
      [{ oldStart := 1, oldCount := 1, newStart := 1, newCount := 1, heading := []
         added := [⟨1, "def f(): pass".toList⟩], removed := [⟨1, "def f(): pass".toList⟩]
         noNewline := true }] := by
    decide +kernel
  refine ⟨⟨?_, ?_⟩, fun h => ?_⟩
  · exact (definitions_linePatterns _ true).trans (by rw [hhunk]; decide)
  · exact (definitions_linePatterns _ false).trans (by rw [hhunk]; decide)
  · refine (definitions_counted_iff lineFeedAdded).mp h _ (hhunk ▸ mem_singleton_self _) ?_
    exact ⟨0, 0, "def f(): pass".toList, by decide, rfl, rfl, rfl⟩

/-!
## The figures of a patch

Every file of a patch counts for its own type, so the figures by type add up to those of the patch.
The files that are listed are the first of a stable sort by the number of changes.
-/

def ofType (files : List FilePatch) (e : Row) : List FilePatch :=
  files.filter fun f => extension f.path = e

def typeCount (files : List FilePatch) (e : Row) : TypeCount :=
  ⟨e, (ofType files e).length, sumOf (·.additions) (ofType files e),
    sumOf (·.deletions) (ofType files e)⟩

def TypeCount.add (t : TypeCount) (f : FilePatch) : TypeCount :=
  { t with count := t.count + 1, additions := t.additions + f.additions,
           deletions := t.deletions + f.deletions }

/-- The types that occur have one entry each, which counts the files of that type and no others. -/
structure IsPartition (files : List FilePatch) (types : List TypeCount) : Prop where
  apart : (types.map (·.extension)).Nodup
  occurs : ∀ e, e ∈ types.map (·.extension) ↔ ∃ f ∈ files, extension f.path = e
  counted : ∀ t ∈ types, t = typeCount files t.extension

def byType : Grouping TypeCount FilePatch Row where
  key := (·.extension)
  group f := extension f.path
  entry e files := ⟨e, files.length, sumOf (·.additions) files, sumOf (·.deletions) files⟩
  step := TypeCount.add
  key_entry _ _ := rfl
  key_step _ _ := rfl
  entry_snoc _ _ _ _ := by simp [TypeCount.add, sumOf_append]

/-- A column of the figures, if each entry holds what the files of its type weigh. -/
lemma IsPartition.sumOf_column {files : List FilePatch} {types : List TypeCount}
    (h : IsPartition files types) {column : TypeCount → Nat} {w : FilePatch → Nat}
    (hcolumn : ∀ e, column (typeCount files e) = sumOf w (ofType files e)) :
    sumOf column types = sumOf w files := by
  have htells : byType.Tells files types :=
    ⟨h.apart, fun e => (h.occurs e).trans mem_map.symm, h.counted⟩
  exact htells.sumOf_column hcolumn

/-! ## Files by changes -/

def listed (f : FilePatch) : Value :=
  .object [("file_path", rowText f.path), ("changes", .ofNat f.changes),
    ("additions", .ofNat f.additions), ("deletions", .ofNat f.deletions)]

end Diff

end ReviewDesk
