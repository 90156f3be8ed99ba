import Mathlib.Tactic.Lemma
import ReviewDesk.Diff.Patch

/-!
# A text before a diff

A diff is often sent with a text before its first file, such as the message of a commit. Headers and
the texts between them are kept in two lists, and a text before the first header stands in the
second one only. So a blank text changes nothing, and any other one moves every text to the header
of the next file.
-/

namespace ReviewDesk

open List Text

namespace Text

/-! ## Rows and blanks -/

lemma rows_append (p d : Chars) : rows (p ++ '\n' :: d) = rows p ++ rows d := by
  induction p with
  | nil => simp [rows]
  | cons c p ih =>
    by_cases hc : c = '\n'
    · simp [rows, hc, ih]
    · obtain ⟨q, qs, hq⟩ := exists_cons_of_ne_nil (rows_ne_nil p)
      simp [rows, hc, ih, hq]

lemma rows_of_notMem {p : Chars} (h : '\n' ∉ p) : rows p = [p] := by
  induction p with
  | nil => rfl
  | cons c p ih =>
    simp only [mem_cons, not_or] at h
    simp [rows, Ne.symm h.1, ih h.2]

lemma flatMap_rows (q : Chars) : (rows q).flatMap (· ++ ['\n']) = q ++ ['\n'] := by
  induction q with
  | nil => rfl
  | cons c q ih =>
    by_cases hc : c = '\n'
    · simp [rows, hc, ih]
    · obtain ⟨r, rs, hr⟩ := exists_cons_of_ne_nil (rows_ne_nil q)
      rw [hr] at ih
      simp only [rows, hc, ↓reduceIte, hr, flatMap_cons, cons_append] at ih ⊢
      rw [ih]

lemma trim_isEmpty (cs : Chars) : (trim cs).isEmpty = true ↔ ∀ c ∈ cs, isBlank c = true := by
  have hall (cs : Chars) : cs.dropWhile isBlank = [] ↔ ∀ c ∈ cs, isBlank c = true := by
    induction cs with
    | nil => simp
    | cons c cs ih => cases hc : isBlank c <;> simp [hc, ih]
  have hend : (trim cs).isEmpty = true ↔ ∀ c ∈ cs.dropWhile isBlank, isBlank c = true := by
    simp only [trim, trimEnd, trimStart, List.isEmpty_iff, reverse_eq_nil_iff, hall,
      mem_reverse]
  rw [hend]
  constructor
  · intro h
    refine (hall cs).mp ?_
    -- the first character that is left would not be blank
    cases hleft : cs.dropWhile isBlank with
    | nil => rfl
    | cons c rest =>
      have hhead : isBlank c = false := by
        simpa [hleft] using head_dropWhile_not isBlank (l := cs) (by simp [hleft])
      rw [hleft] at h
      simp [hhead] at h
  · intro h
    rw [(hall cs).mpr h]
    simp

lemma occurs_iff {p t : Chars} : occurs p t = true ↔ ∃ a b, t = a ++ p ++ b := by
  induction t with
  | nil => simp [occurs]
  | cons c t ih =>
    rw [occurs, Bool.or_eq_true, isPrefixOf_iff_prefix, ih]
    constructor
    · rintro (⟨b, hb⟩ | ⟨a, b, rfl⟩)
      · exact ⟨[], b, hb.symm⟩
      · exact ⟨c :: a, b, rfl⟩
    · rintro ⟨a, b, h⟩
      cases a with
      | nil => exact .inl ⟨b, h.symm⟩
      | cons c' a =>
        cases h
        exact .inr ⟨a, b, rfl⟩

end Text

namespace Diff

variable {p row : Row} {rows : List Row} {d : Chars}

/-! ## Headers -/

/-- A row that names a file: `diff --git a/old b/new`. -/
def NamesFile (row : Row) : Prop :=
  ∃ old new, row = "diff --git a/".toList ++ (old ++ " b/".toList ++ new)

/-- No row of a text holds a header, not even in its middle. -/
def NoHeader (text : Chars) : Prop :=
  ∀ row ∈ Text.rows text, ∀ a b, row = a ++ b → ¬NamesFile b

lemma cutAt?_eq_some {a b : Row} (h : cutAt? p row = some (a, b)) : row = a ++ (p ++ b) := by
  induction row generalizing a b with
  | nil =>
    simp only [cutAt?] at h
    split at h
    · rename_i hp
      cases h
      simpa using hp
    · cases h
  | cons c r ih =>
    simp only [cutAt?] at h
    split at h
    · rename_i hp
      obtain ⟨t, ht⟩ := isPrefixOf_iff_prefix.mp hp
      cases h
      rw [← ht, drop_left, nil_append]
    · obtain ⟨⟨a', b'⟩, hcut, heq⟩ := Option.map_eq_some_iff.mp h
      cases heq
      rw [ih hcut]
      rfl

lemma cutAt?_prefix (hp : p ≠ []) (r : Row) : cutAt? p (p ++ r) = some ([], r) := by
  obtain ⟨c, q, rfl⟩ := exists_cons_of_ne_nil hp
  have hstarts : startsWith (c :: q) (c :: (q ++ r)) = true :=
    isPrefixOf_iff_prefix.mpr ⟨r, rfl⟩
  have hdrop : (c :: q ++ r).drop (c :: q).length = r := drop_left
  rw [cons_append] at hdrop ⊢
  rw [cutAt?, if_pos hstarts, hdrop]

lemma exists_cutAt? (hp : p ≠ []) (a b : Row) :
    ∃ x y, cutAt? p (a ++ (p ++ b)) = some (x, y) ∧ b <:+ y := by
  induction a with
  | nil => exact ⟨[], b, cutAt?_prefix hp b, suffix_refl b⟩
  | cons c a ih =>
    rw [cons_append, cutAt?]
    split
    · refine ⟨[], _, rfl, ?_⟩
      have hle : p.length ≤ (c :: a ++ p).length := by simp; omega
      have hdrop : (c :: a ++ p ++ b).drop p.length = (c :: a ++ p).drop p.length ++ b :=
        drop_append_of_le_length hle
      rw [append_assoc] at hdrop
      exact ⟨_, hdrop.symm⟩
    · obtain ⟨x, y, hcut, hy⟩ := ih
      exact ⟨c :: x, y, by rw [hcut]; rfl, hy⟩

lemma headerIn?_eq_none_iff : headerIn? row = none ↔ ∀ a b, row = a ++ b → ¬NamesFile b := by
  constructor
  · rintro hnone a _ rfl ⟨old, new, rfl⟩
    obtain ⟨x, y, hcut, u, rfl⟩ :=
      exists_cutAt? (p := "diff --git a/".toList) (by decide) a (old ++ " b/".toList ++ new)
    have hside : occurs " b/".toList (u ++ (old ++ " b/".toList ++ new)) = true :=
      occurs_iff.mpr ⟨u ++ old, new, by simp only [append_assoc]⟩
    rw [headerIn?, hcut] at hnone
    simp only [hside, ↓reduceIte, reduceCtorEq] at hnone
  · intro h
    unfold headerIn?
    split
    · rename_i before rest hcut
      refine if_neg fun hside => ?_
      obtain ⟨old, new, rfl⟩ := occurs_iff.mp hside
      exact h before _ (cutAt?_eq_some hcut) ⟨old, new, rfl⟩
    · rfl

instance (text : Chars) : Decidable (NoHeader text) :=
  decidable_of_iff (∀ row ∈ Text.rows text, headerIn? row = none)
    (forall_congr' fun _ => imp_congr_right fun _ => headerIn?_eq_none_iff)

lemma headerIn?_of_namesFile (h : NamesFile row) : headerIn? row = some ([], row) := by
  obtain ⟨old, new, rfl⟩ := h
  have hside : occurs " b/".toList (old ++ " b/".toList ++ new) = true :=
    occurs_iff.mpr ⟨old, new, rfl⟩
  rw [headerIn?, cutAt?_prefix (by decide)]
  exact if_pos hside

/-! ## Cutting -/

lemma cutRows_plain (hrows : rows ≠ []) (h : headerIn? row = none) :
    cutRows (row :: rows) = (row ++ '\n' :: (cutRows rows).1, (cutRows rows).2) := by
  obtain ⟨r, rs, rfl⟩ := exists_cons_of_ne_nil hrows
  simp [cutRows, h]

lemma cutRows_header (hrows : rows ≠ []) (h : NamesFile row) :
    cutRows (row :: rows) = ([], (row ++ ['\n'], (cutRows rows).1) :: (cutRows rows).2) := by
  obtain ⟨r, rs, rfl⟩ := exists_cons_of_ne_nil hrows
  simp [cutRows, headerIn?_of_namesFile h]

lemma cutRows_append {before : List Row} (hrows : rows ≠ [])
    (h : ∀ row ∈ before, headerIn? row = none) : cutRows (before ++ rows) =
      (before.flatMap (· ++ ['\n']) ++ (cutRows rows).1, (cutRows rows).2) := by
  induction before with
  | nil => rfl
  | cons row before ih =>
    have hrest := ih fun r hr => h r (.tail _ hr)
    rw [cons_append, cutRows_plain (by simp [hrows]) (h row (.head _)), hrest]
    simp

/-- The text before the first header of a diff. -/
def before (d : Chars) : Row := (cutRows (Text.rows d)).1

def headers (d : Chars) : List Row := (cutRows (Text.rows d)).2.map (·.1)

/-- The texts after the headers of a diff. -/
def texts (d : Chars) : List Row := (cutRows (Text.rows d)).2.map (·.2)

lemma fileParts_of_blank (h : ∀ c ∈ before d, isBlank c = true) :
    fileParts d = joinHeaders (headers d) (texts d) := by
  have hblank : (trim (before d)).isEmpty = true := (trim_isEmpty _).mpr h
  simp only [before] at hblank
  simp only [fileParts, hblank, ↓reduceIte, drop_succ_cons, drop_zero]
  rfl

lemma fileParts_of_not_blank (h : ¬∀ c ∈ before d, isBlank c = true) :
    fileParts d = joinHeaders (headers d) (before d :: texts d) := by
  have hblank : ¬(trim (before d)).isEmpty = true := fun hd => h ((trim_isEmpty _).mp hd)
  simp only [before] at hblank
  simp only [fileParts, hblank]
  rfl

/-! ## Preambles -/

/-- A text that ends with a line feed and holds no header. -/
structure Preamble (p : Chars) : Prop where
  ended : ∃ q, p = q ++ ['\n']
  noHeader : NoHeader p

/-- A diff whose first row names a file. -/
def OpensFile (d : Chars) : Prop := ∃ row, (Text.rows d).head? = some row ∧ NamesFile row

section

variable {p d : Chars}

lemma cutRows_preamble (hp : Preamble p) (d : Chars) :
    cutRows (Text.rows (p ++ d)) = (p ++ before d, (cutRows (Text.rows d)).2) := by
  obtain ⟨q, rfl⟩ := hp.ended
  have hrows : Text.rows (q ++ ['\n'] ++ d) = Text.rows q ++ Text.rows d := by
    rw [append_assoc]
    exact rows_append q d
  have hplain : ∀ row ∈ Text.rows q, headerIn? row = none := by
    intro row hrow
    refine headerIn?_eq_none_iff.mpr (hp.noHeader row ?_)
    rw [rows_append]
    exact mem_append_left _ hrow
  rw [hrows, cutRows_append (rows_ne_nil d) hplain, flatMap_rows]
  rfl

lemma before_preamble (hp : Preamble p) (d : Chars) : before (p ++ d) = p ++ before d :=
  congrArg Prod.fst (cutRows_preamble hp d)

lemma headers_preamble (hp : Preamble p) (d : Chars) : headers (p ++ d) = headers d :=
  congrArg (·.2.map (·.1)) (cutRows_preamble hp d)

lemma texts_preamble (hp : Preamble p) (d : Chars) : texts (p ++ d) = texts d :=
  congrArg (·.2.map (·.2)) (cutRows_preamble hp d)

/-- A first row that ends is a header, and nothing stands before it. -/
lemma before_eq_nil (hd : OpensFile d) (h : '\n' ∈ d) : before d = [] := by
  obtain ⟨row, hhead, hrow⟩ := hd
  obtain ⟨a, b, rfl⟩ := append_of_mem h
  obtain ⟨first, rest, ha⟩ := exists_cons_of_ne_nil (rows_ne_nil a)
  rw [rows_append, ha] at hhead
  cases hhead
  rw [before, rows_append, ha, cons_append, cutRows_header (by simp [rows_ne_nil]) hrow]

lemma before_eq_self (h : '\n' ∉ d) : before d = d := by
  rw [before, rows_of_notMem h, cutRows]

lemma OpensFile.not_blank (hd : OpensFile d) : ¬∀ c ∈ d, isBlank c = true := by
  obtain ⟨row, hhead, old, new, hrow⟩ := hd
  have hmark : 'd' ∈ row := hrow ▸ mem_append_left _ (by decide)
  obtain ⟨rest, hrows⟩ := head?_eq_some_iff.mp hhead
  have hmem : 'd' ∈ d ++ ['\n'] := by
    rw [← flatMap_rows, hrows, flatMap_cons]
    exact mem_append_left _ (mem_append_left _ hmark)
  have hd : 'd' ∈ d := by simpa using hmem
  intro hblank
  exact absurd (hblank 'd' hd) (by decide)

lemma parse_eq {text : Chars} (h : ¬∀ c ∈ text, isBlank c = true) :
    parse text = ⟨(fileParts text).filterMap filePatch?⟩ :=
  if_neg fun hempty => h ((trim_isEmpty text).mp hempty)

/-- The patch that is read if every header of a diff is given the text before it: the first one the
preamble, the next one the text of the first file, and so on. The last text is left without a
header. -/
def displaced (p d : Chars) : Patch :=
  ⟨(joinHeaders (headers d) ((p ++ before d) :: texts d)).filterMap filePatch?⟩

lemma parse_blank_preamble (hp : Preamble p) (hd : OpensFile d)
    (hblank : ∀ c ∈ p, isBlank c = true) (hended : '\n' ∈ d) : parse (p ++ d) = parse d := by
  have hbefore : before (p ++ d) = p := by
    rw [before_preamble hp, before_eq_nil hd hended, append_nil]
  have hnot : ¬∀ c ∈ p ++ d, isBlank c = true := fun h =>
    hd.not_blank fun c hc => h c (mem_append_right _ hc)
  have hparts : fileParts (p ++ d) = joinHeaders (headers d) (texts d) := by
    rw [fileParts_of_blank (by rwa [hbefore]), headers_preamble hp, texts_preamble hp]
  have hparts' : fileParts d = joinHeaders (headers d) (texts d) := by
    refine fileParts_of_blank ?_
    rw [before_eq_nil hd hended]
    simp
  rw [parse_eq hnot, parse_eq hd.not_blank, hparts, hparts']

lemma parse_other_preamble (hp : Preamble p) (hd : OpensFile d)
    (h : ¬((∀ c ∈ p, isBlank c = true) ∧ '\n' ∈ d)) : parse (p ++ d) = displaced p d := by
  have hnot : ¬∀ c ∈ p ++ d, isBlank c = true := fun h =>
    hd.not_blank fun c hc => h c (mem_append_right _ hc)
  have hbefore : ¬∀ c ∈ before (p ++ d), isBlank c = true := by
    rw [before_preamble hp]
    by_cases hended : '\n' ∈ d
    · rw [before_eq_nil hd hended, append_nil]
      exact fun hblank => h ⟨hblank, hended⟩
    · rwa [before_eq_self hended]
  rw [parse_eq hnot, fileParts_of_not_blank hbefore, before_preamble hp, headers_preamble hp,
    texts_preamble hp, displaced]

/-- A preamble leaves the files of a diff, their hunks and all totals as they are exactly if it is
blank, unless the texts that it moves to other headers happen to be read the same. A diff of one row
that does not end is no header and goes with the preamble. -/
theorem parse_preamble_iff (hp : Preamble p) (hd : OpensFile d) : parse (p ++ d) = parse d ↔
      ((∀ c ∈ p, Text.isBlank c = true) ∧ '\n' ∈ d) ∨ displaced p d = parse d := by
  by_cases h : (∀ c ∈ p, Text.isBlank c = true) ∧ '\n' ∈ d
  · exact ⟨fun _ => .inl h, fun _ => parse_blank_preamble hp hd h.1 h.2⟩
  · rw [parse_other_preamble hp hd h]
    exact ⟨.inr, fun hor => hor.resolve_left h⟩

end

def oneLineDiff (path line : String) : Chars :=
  ("diff --git a/" ++ path ++ " b/" ++ path ++ "\n@@ -1,0 +1,1 @@\n+" ++ line ++ "\n").toList

/-- Two files after the subject of a mail: `f` has no hunk, and the line that was added to it is read
as one of `g`. After an empty row all is read as without it. -/
theorem parse_after_subject :
    parse ("Subject: tidy\n".toList ++ (oneLineDiff "f" "x" ++ oneLineDiff "g" "y")) ≠
        parse (oneLineDiff "f" "x" ++ oneLineDiff "g" "y") ∧
      (displaced "Subject: tidy\n".toList (oneLineDiff "f" "x" ++ oneLineDiff "g" "y")).files.map
          (fun f => (f.path, f.hunks.map (·.added.map (·.content)))) =
        [(['f'], []), (['g'], [[['x']]])] ∧
      parse ("\n".toList ++ (oneLineDiff "f" "x" ++ oneLineDiff "g" "y")) =
        parse (oneLineDiff "f" "x" ++ oneLineDiff "g" "y") := by
  have hopens : OpensFile (oneLineDiff "f" "x" ++ oneLineDiff "g" "y") :=
    ⟨"diff --git a/f b/f".toList, by decide +kernel, ['f'], ['f'], by decide⟩
  refine ⟨?_, by decide +kernel, ?_⟩
  · rw [Ne, parse_preamble_iff ⟨⟨"Subject: tidy".toList, by decide⟩, by decide +kernel⟩ hopens]
    rintro (⟨hblank, _⟩ | hsame)
    · exact absurd (hblank 'S' (by decide +kernel)) (by decide)
    · exact absurd hsame (by decide +kernel)
  · rw [parse_preamble_iff ⟨⟨[], by decide⟩, by decide +kernel⟩ hopens]
    exact .inl ⟨all_eq_true.mp (by decide +kernel), by decide +kernel⟩

/-!
## Diffs one after the other

A diff that ends with a line feed can be followed by another one: the files of both are read, each
from its own part, and the totals add up. The exception is a second diff of a single row without a
line feed, which is read as one more row of the last file before it.
-/

def pieces (rows : List Row) : List Row := (cutRows rows).2.map fun p => p.1 ++ p.2

lemma joinHeaders_map (parts : List (Row × Row)) :
    joinHeaders (parts.map (·.1)) (parts.map (·.2)) = parts.map fun p => p.1 ++ p.2 := by
  induction parts with
  | nil => rfl
  | cons p parts ih => rw [map_cons, map_cons, joinHeaders, ih, map_cons]

lemma fileParts_eq_pieces (hd : OpensFile d) (h : '\n' ∈ d) :
    fileParts d = pieces (Text.rows d) := by
  have hblank : ∀ c ∈ before d, isBlank c = true := by
    rw [before_eq_nil hd h]
    exact fun c hc => by cases hc
  rw [fileParts_of_blank hblank]
  exact joinHeaders_map _

lemma cutRows_holding {text header : Row} (hrows : rows ≠ [])
    (h : headerIn? row = some (text, header)) :
    cutRows (row :: rows) = (text, (header ++ ['\n'], (cutRows rows).1) :: (cutRows rows).2) := by
  obtain ⟨r, rs, rfl⟩ := exists_cons_of_ne_nil hrows
  simp [cutRows, h]

/-- Rows that end before a header are cut as if nothing followed. -/
lemma cutRows_append_opening (ended : List Row) (hrows : rows ≠ [])
    (hopens : (cutRows rows).1 = []) : cutRows (ended ++ rows) =
      ((cutRows (ended ++ [[]])).1, (cutRows (ended ++ [[]])).2 ++ (cutRows rows).2) := by
  induction ended with
  | nil =>
    rw [nil_append, nil_append]
    exact Prod.ext hopens rfl
  | cons row ended ih =>
    have hleft : ended ++ rows ≠ [] := by simp [hrows]
    have hright : ended ++ [[]] ≠ [] := by simp
    rw [cons_append, cons_append]
    cases hrow : headerIn? row with
    | none => rw [cutRows_plain hleft hrow, cutRows_plain hright hrow, ih]
    | some h =>
      rw [cutRows_holding hleft hrow, cutRows_holding hright hrow, ih, cons_append]

/-- A last row that does not end is added to the last text. -/
lemma cutRows_append_row (ended : List Row) (d : Row) : ((cutRows (ended ++ [[]])).2 = [] →
        cutRows (ended ++ [d]) = ((cutRows (ended ++ [[]])).1 ++ d, [])) ∧
      ∀ parts header text, (cutRows (ended ++ [[]])).2 = parts ++ [(header, text)] →
        cutRows (ended ++ [d]) = ((cutRows (ended ++ [[]])).1, parts ++ [(header, text ++ d)]) := by
  induction ended with
  | nil => exact ⟨fun _ => rfl, fun parts header text h => by simp [cutRows] at h⟩
  | cons row ended ih =>
    obtain ⟨ihnone, ihsome⟩ := ih
    have hleft : ended ++ [d] ≠ [] := by simp
    have hright : ended ++ [[]] ≠ [] := by simp
    rw [cons_append, cons_append]
    cases hrow : headerIn? row with
    | none =>
      rw [cutRows_plain hleft hrow, cutRows_plain hright hrow]
      refine ⟨fun h => ?_, fun parts header text h => ?_⟩
      · simp [ihnone h]
      · simp [ihsome parts header text h]
    | some h =>
      rw [cutRows_holding hleft hrow, cutRows_holding hright hrow]
      refine ⟨fun hnil => absurd hnil (cons_ne_nil _ _), fun parts header text heq => ?_⟩
      -- the last text is either the one of this row or one of a later row
      cases parts with
      | nil =>
        obtain ⟨hhead, htail⟩ := List.cons.inj heq
        cases hhead
        simp [ihnone htail]
      | cons p parts =>
        obtain ⟨rfl, htail⟩ := List.cons.inj heq
        simp [ihsome parts header text htail]

/-! ## Two diffs -/

/-- What is read of two diffs together is what is read of each, one after the other. -/
structure Joined (c d : Chars) : Prop where
  files : (parse (c ++ d)).files = (parse c).files ++ (parse d).files
  count : (parse (c ++ d)).files.length = (parse c).files.length + (parse d).files.length
  additions : (parse (c ++ d)).additions = (parse c).additions + (parse d).additions
  deletions : (parse (c ++ d)).deletions = (parse c).deletions + (parse d).deletions
  changes : (parse (c ++ d)).changes = (parse c).changes + (parse d).changes
  balance : (parse (c ++ d)).changes = (parse (c ++ d)).additions + (parse (c ++ d)).deletions

lemma joined_iff {c : Chars} :
    Joined c d ↔ (parse (c ++ d)).files = (parse c).files ++ (parse d).files := by
  refine ⟨Joined.files, fun h => ?_⟩
  refine ⟨h, by rw [h, length_append], ?_, ?_, ?_, Tally.sumOf_add _ _ _⟩
  · rw [Patch.additions, h, Tally.sumOf_append]
    rfl
  · rw [Patch.deletions, h, Tally.sumOf_append]
    rfl
  · rw [Patch.changes, h, Tally.sumOf_append]
    rfl

def lastPart (c : Chars) : Row := (fileParts c).getLastD []

/-- The files that are read if a row goes to the last part of a diff. -/
def swallowed (c d : Chars) : List FilePatch :=
  ((fileParts c).dropLast ++ [lastPart c ++ d]).filterMap filePatch?

section

variable {c d q : Chars}

lemma files_of_opens (hd : OpensFile d) : (parse d).files = (fileParts d).filterMap filePatch? := by
  rw [parse_eq hd.not_blank]

lemma fileParts_row (hd : OpensFile d) (h : '\n' ∉ d) : fileParts d = [d] := by
  have hbefore : ¬∀ c ∈ before d, isBlank c = true := by
    rw [before_eq_self h]
    exact hd.not_blank
  rw [fileParts_of_not_blank hbefore, before_eq_self h, headers, texts, rows_of_notMem h]
  rfl

section

variable (hc : OpensFile (q ++ ['\n']))
include hc

lemma OpensFile.append (d : Chars) : OpensFile (q ++ ['\n'] ++ d) := by
  obtain ⟨row, hrow, hnames⟩ := hc
  obtain ⟨first, rest, hq⟩ := exists_cons_of_ne_nil (rows_ne_nil q)
  rw [rows_append, hq] at hrow
  refine ⟨row, ?_, hnames⟩
  rw [append_assoc, singleton_append, rows_append, hq]
  exact hrow

lemma fileParts_append (hd : OpensFile d) (h : '\n' ∈ d) :
    fileParts (q ++ ['\n'] ++ d) = fileParts (q ++ ['\n']) ++ fileParts d := by
  rw [fileParts_eq_pieces (hc.append d) (by simp), fileParts_eq_pieces hc (by simp),
    fileParts_eq_pieces hd h]
  rw [append_assoc, singleton_append, rows_append, rows_append, pieces,
    cutRows_append_opening _ (rows_ne_nil d) (before_eq_nil hd h), map_append]
  rfl

lemma fileParts_ne_nil : fileParts (q ++ ['\n']) ≠ [] := by
  have ⟨row, hrow, hnames⟩ := hc
  obtain ⟨first, rest, hq⟩ := exists_cons_of_ne_nil (rows_ne_nil q)
  rw [fileParts_eq_pieces hc (by simp)]
  rw [rows_append, hq] at hrow ⊢
  cases hrow
  rw [cons_append, pieces, cutRows_header (by simp [rows_ne_nil]) hnames]
  simp

lemma fileParts_append_row (h : '\n' ∉ d) :
    fileParts (q ++ ['\n'] ++ d) =
      (fileParts (q ++ ['\n'])).dropLast ++ [lastPart (q ++ ['\n']) ++ d] := by
  have hparts : fileParts (q ++ ['\n']) = pieces (Text.rows q ++ [[]]) := by
    rw [fileParts_eq_pieces hc (by simp), rows_append]
    rfl
  have hsome := fileParts_ne_nil hc
  rw [hparts, pieces, Ne, map_eq_nil_iff] at hsome
  have hlast := (dropLast_concat_getLast hsome).symm
  generalize (cutRows (Text.rows q ++ [[]])).2.dropLast = parts at hlast
  rcases hcut : (cutRows (Text.rows q ++ [[]])).2.getLast hsome with ⟨header, text⟩
  rw [hcut] at hlast
  rw [fileParts_eq_pieces (hc.append d) (by simp), append_assoc, singleton_append,
    rows_append, rows_of_notMem h, pieces,
    (cutRows_append_row (Text.rows q) d).2 parts header text hlast]
  rw [lastPart, hparts, pieces, hlast]
  simp

lemma files_append_row (h : '\n' ∉ d) :
    (parse (q ++ ['\n'] ++ d)).files = swallowed (q ++ ['\n']) d := by
  rw [files_of_opens (hc.append d), fileParts_append_row hc h, swallowed]

/-- Where the last part names a file and the row does, only one of the two is left. -/
lemma swallowed_ne (hd : OpensFile d) (h : '\n' ∉ d)
    (hlast : (filePatch? (lastPart (q ++ ['\n']))).isSome) (hrow : (filePatch? d).isSome) :
    swallowed (q ++ ['\n']) d ≠ (parse (q ++ ['\n'])).files ++ (parse d).files := by
  have hparts : fileParts (q ++ ['\n']) =
      (fileParts (q ++ ['\n'])).dropLast ++ [lastPart (q ++ ['\n'])] := by
    rw [lastPart, getLastD_eq_getLast?, getLast?_eq_some_getLast (fileParts_ne_nil hc)]
    exact (dropLast_concat_getLast _).symm
  obtain ⟨f, hf⟩ := Option.isSome_iff_exists.mp hlast
  obtain ⟨g, hg⟩ := Option.isSome_iff_exists.mp hrow
  have hfiles : (parse (q ++ ['\n'])).files =
      (fileParts (q ++ ['\n'])).dropLast.filterMap filePatch? ++ [f] := by
    rw [files_of_opens hc, congrArg (List.filterMap filePatch?) hparts, filterMap_append,
      filterMap_cons_some hf, filterMap_nil]
  have hfile : (parse d).files = [g] := by
    rw [files_of_opens hd, fileParts_row hd h, filterMap_cons_some hg, filterMap_nil]
  have hone := length_filterMap_le filePatch? [lastPart (q ++ ['\n']) ++ d]
  intro heq
  rw [hfiles, hfile, swallowed, filterMap_append] at heq
  have hlength := congrArg List.length heq
  simp only [length_append, length_cons, length_nil] at hlength hone
  omega

end

/-- Two diffs are read one after the other, and their totals add up, exactly if the second one has a
line feed, unless its only row happens to be read the same as a row of the last file. It never is if
both name a file: the row then takes the hunks of that file over. -/
theorem joined_iff_line_feed (hended : ∃ q, c = q ++ ['\n']) (hc : OpensFile c) (hd : OpensFile d) :
    (Joined c d ↔ '\n' ∈ d ∨ swallowed c d = (parse c).files ++ (parse d).files) ∧
      ('\n' ∉ d → (filePatch? (lastPart c)).isSome → (filePatch? d).isSome → ¬Joined c d) := by
  obtain ⟨q, rfl⟩ := hended
  by_cases h : '\n' ∈ d
  · have hjoined : Joined (q ++ ['\n']) d := by
      rw [joined_iff, files_of_opens (hc.append d), fileParts_append hc hd h,
        filterMap_append, files_of_opens hc, files_of_opens hd]
    exact ⟨iff_of_true hjoined (.inl h), fun hnot => absurd h hnot⟩
  · have hiff : Joined (q ++ ['\n']) d ↔
        swallowed (q ++ ['\n']) d = (parse (q ++ ['\n'])).files ++ (parse d).files := by
      rw [joined_iff, files_append_row hc h]
    refine ⟨hiff.trans ⟨.inr, fun hor => hor.resolve_left h⟩, fun _ hlast hrow => ?_⟩
    exact fun hjoined => swallowed_ne hc hd h hlast hrow (hiff.mp hjoined)

end

/-- A header without a line feed after the diff of a file: the file is gone, and its hunk is read as
one of the file that the row names. With the line feed both are read. -/
theorem unended_header_takes_hunk : ¬Joined (oneLineDiff "f" "x") "diff --git a/g b/g".toList ∧
      (parse (oneLineDiff "f" "x" ++ "diff --git a/g b/g".toList)).files.map
          (fun f => (f.path, f.hunks.map (·.added.map (·.content)))) = [(['g'], [[['x']]])] ∧
      Joined (oneLineDiff "f" "x") "diff --git a/g b/g\n".toList := by
  have hended : ∃ q, oneLineDiff "f" "x" = q ++ ['\n'] :=
    ⟨"diff --git a/f b/f\n@@ -1,0 +1,1 @@\n+x".toList, by decide +kernel⟩
  have hf : OpensFile (oneLineDiff "f" "x") :=
    ⟨"diff --git a/f b/f".toList, by decide +kernel, ['f'], ['f'], by decide⟩
  have hg (d : List Char) (h : (Text.rows d).head? = some "diff --git a/g b/g".toList) :
      OpensFile d :=
    ⟨"diff --git a/g b/g".toList, h, ['g'], ['g'], by decide⟩
  refine ⟨?_, by decide +kernel, ?_⟩
  · exact (joined_iff_line_feed hended hf (hg _ (by decide +kernel))).2 (by decide +kernel)
      (by decide +kernel) (by decide +kernel)
  · exact (joined_iff_line_feed hended hf (hg _ (by decide +kernel))).1.mpr
      (.inl (by decide +kernel))

end Diff

end ReviewDesk
