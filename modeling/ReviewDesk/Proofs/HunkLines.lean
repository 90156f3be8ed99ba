import Mathlib.Tactic.FinCases
import ReviewDesk.Proofs.Unified

/-!
# The lines of hunks

Rows are cut into spans at those that begin with `@@`. A span whose first row is a header gives one
hunk, whose lines are the rows of the span that have a sign, each once and in order.

The lines of each sign are numbered on their own. So the numbers are the places of the lines in the
two files only if no kept line stands before a changed one and no removed line before a kept one.
-/

namespace ReviewDesk

open List

namespace Tally

open Nat

/-!
## Writing and reading diffs

A diff that was written in the unified format is read back exactly if all its lines are plain and
all its files have names. Nothing else is, by the length of what is told: a row gives a hunk at most
its own length, and a line that is dropped or cut gives less.
-/

variable {α β : Type} {f g : α → Nat} {xs : List α}

lemma sumOf_flatMap (count : β → Nat) (g : α → List β) (xs : List α) :
    sumOf count (xs.flatMap g) = sumOf (fun x => sumOf count (g x)) xs := by
  induction xs with
  | nil => rfl
  | cons x xs ih => rw [flatMap_cons, sumOf_append, ih, sumOf_cons]

lemma sumOf_map (count : β → Nat) (g : α → β) (xs : List α) :
    sumOf count (xs.map g) = sumOf (fun x => count (g x)) xs := by
  induction xs with
  | nil => rfl
  | cons x xs ih => rw [map_cons, sumOf_cons, ih, sumOf_cons]

lemma sumOf_le (h : ∀ x ∈ xs, f x ≤ g x) : sumOf f xs ≤ sumOf g xs := by
  induction xs with
  | nil => exact le_refl 0
  | cons x xs ih =>
    have hx := h x (.head _)
    have hxs := ih fun y hy => h y (.tail _ hy)
    rw [sumOf_cons, sumOf_cons]
    omega

lemma eq_of_sumOf_le (h : ∀ x ∈ xs, f x ≤ g x)
    (hsum : sumOf g xs ≤ sumOf f xs) : ∀ x ∈ xs, f x = g x := by
  induction xs with
  | nil => exact fun x hx => by cases hx
  | cons x xs ih =>
    have hx := h x (.head _)
    have hxs := sumOf_le fun y hy => h y (mem_cons_of_mem x hy)
    rw [sumOf_cons, sumOf_cons] at hsum
    refine forall_mem_cons.mpr ⟨by omega, ih (fun y hy => h y (.tail _ hy)) ?_⟩
    omega

end Tally

namespace Diff

open Tally

variable {header row text : Row} (rows : List Row) (f : FileDiff)

/-! ## Lengths -/

def signedLength : Nat := sumOf (fun r => r.length + 1) rows

def HunkContent.length (t : HunkContent) : Nat :=
  signedLength t.added + signedLength t.removed + signedLength t.kept

def toldLength (t : Row × List HunkContent) : Nat := sumOf HunkContent.length t.2

/-- What a row can give to a hunk: its length if it is taken as a line. -/
def reach : Row → Nat
  | '+' :: r => if Text.startsWith ['+', '+'] r then 0 else r.length + 1
  | '-' :: r => if Text.startsWith ['-', '-'] r then 0 else r.length + 1
  | ' ' :: r => r.length + 1
  | _ => 0

lemma signedLength_snoc (r : Row) :
    signedLength (rows ++ [r]) = signedLength rows + (r.length + 1) := by
  rw [signedLength, sumOf_append]
  rfl

lemma length_told_add (h : Hunk) (row : Row) :
    (h.add row).told.length = h.told.length + reach row := by
  unfold Hunk.add
  split
  · rw [reach]
    split
    · rfl
    · simp only [HunkContent.length, Hunk.told, map_append, map_cons, map_nil,
        signedLength_snoc]
      omega
  · rw [reach]
    split
    · rfl
    · simp only [HunkContent.length, Hunk.told, map_append, map_cons, map_nil,
        signedLength_snoc]
      omega
  · simp only [reach, HunkContent.length, Hunk.told, map_append, map_cons, map_nil,
      signedLength_snoc]
    omega
  · rfl
  · rw [reach]
    · rfl
    all_goals assumption

lemma reach_beginsHunk (h : beginsHunk row = true) : reach row = 0 := by
  obtain ⟨r, rfl⟩ := isPrefixOf_iff_prefix.mp h
  rfl

lemma length_hunkHeader? {h : Hunk} (hh : hunkHeader? row = some h) : h.told.length = 0 := by
  simp only [hunkHeader?, Option.bind_eq_bind, Option.bind_eq_some_iff] at hh
  obtain ⟨_, _, _, _, _, _, _, _, _, _, heq⟩ := hh
  cases heq
  rfl

lemma length_hunksFrom (o : Option Hunk) (rows : List Row) :
    sumOf (fun h => h.told.length) (hunksFrom o rows) ≤
      sumOf (fun h => h.told.length) o.toList + sumOf reach rows := by
  induction rows generalizing o with
  | nil => exact le_refl _
  | cons row rows ih =>
    by_cases hrow : beginsHunk row
    · rw [hunksFrom, if_pos hrow, sumOf_append, sumOf_cons, reach_beginsHunk hrow]
      have hnew : sumOf (fun h => h.told.length) (hunkHeader? row).toList = 0 := by
        cases hh : hunkHeader? row with
        | none => rfl
        | some h => simp [length_hunkHeader? hh]
      have hrest := ih (hunkHeader? row)
      omega
    · rw [hunksFrom, if_neg hrow, sumOf_cons]
      have hrest := ih (o.map (·.add row))
      cases o with
      | none =>
        simp only [Option.map_none, Option.toList_none, sumOf_nil] at hrest ⊢
        omega
      | some h =>
        simp only [Option.map_some, Option.toList_some, sumOf_cons, sumOf_nil,
          length_told_add] at hrest ⊢
        omega

lemma length_filePatch? {text : Chars} {p : FilePatch} (h : filePatch? text = some p) :
    toldLength p.told ≤ sumOf reach (Text.rows text) := by
  simp only [filePatch?] at h
  split at h
  · cases h
    have hle := length_hunksFrom none (Text.rows text)
    rw [Option.toList_none, sumOf_nil, Nat.zero_add] at hle
    rw [toldLength, FilePatch.told, sumOf_map]
    exact hle
  · cases h

lemma length_parts (parts : List Row) :
    sumOf toldLength ((parts.filterMap filePatch?).map FilePatch.told) ≤
      sumOf (fun p => sumOf reach (Text.rows p)) parts := by
  induction parts with
  | nil => exact le_refl 0
  | cons p parts ih =>
    rw [sumOf_cons]
    cases hp : filePatch? p with
    | none =>
      rw [filterMap_cons_none hp]
      omega
    | some f =>
      rw [filterMap_cons_some hp, map_cons, sumOf_cons]
      have hf := length_filePatch? hp
      omega

/-! ## Rows that are cut -/

def uncut (row : Row) : Row := ((headerIn? row).map (·.1)).getD row

lemma uncut_eq_self (h : headerIn? row = none) : uncut row = row := by
  rw [uncut, h]
  rfl

lemma uncut_eq_text (h : headerIn? row = some (text, header)) : uncut row = text := by
  rw [uncut, h]
  rfl

lemma headerIn?_eq_some (h : headerIn? row = some (text, header)) :
    row = text ++ header ∧ NamesFile header := by
  unfold headerIn? at h
  split at h
  · rename_i before rest hcut
    split at h
    · rename_i hside
      cases h
      obtain ⟨old, new, rfl⟩ := Text.occurs_iff.mp hside
      exact ⟨cutAt?_eq_some hcut, old, new, rfl⟩
    · cases h
  · cases h

lemma reach_namesFile (h : NamesFile row) : reach row = 0 := by
  obtain ⟨old, new, rfl⟩ := h
  rfl

/-- Cutting neither adds nor loses anything but what stands in rows with a header. -/
lemma reach_cutRows {rows : List Row} (h : ∀ row ∈ rows, '\n' ∉ row) :
    sumOf reach (Text.rows (cutRows (rows ++ [[]])).1) +
        sumOf (fun p => sumOf reach (Text.rows p)) (pieces (rows ++ [[]])) =
      sumOf (fun row => reach (uncut row)) rows := by
  induction rows with
  | nil => rfl
  | cons row rows ih =>
    have ih := ih fun r hr => h r (.tail _ hr)
    have hrow := h row (.head _)
    have hrows : rows ++ [[]] ≠ [] := by simp
    rw [pieces] at ih ⊢
    rw [cons_append, sumOf_cons]
    cases hcut : headerIn? row with
    | none =>
      rw [cutRows_plain hrows hcut, uncut_eq_self hcut]
      simp only [Text.rows_append, Text.rows_of_notMem hrow, sumOf_append, sumOf_cons, sumOf_nil]
      omega
    | some p =>
      obtain ⟨text, header⟩ := p
      rw [cutRows_holding hrows hcut, uncut_eq_text hcut]
      obtain ⟨rfl, hnames⟩ := headerIn?_eq_some hcut
      simp only [mem_append, not_or] at hrow
      simp only [map_cons, append_assoc, singleton_append, Text.rows_append,
        Text.rows_of_notMem hrow.1, Text.rows_of_notMem hrow.2, sumOf_cons, sumOf_nil,
        reach_namesFile hnames]
      omega

/-! ## Lines -/

lemma reach_le (row : Row) : reach row ≤ row.length := by
  unfold reach
  split <;> try split
  all_goals simp

lemma reach_uncut_le (row : Row) : reach (uncut row) ≤ row.length := by
  cases hcut : headerIn? row with
  | none =>
    rw [uncut_eq_self hcut]
    exact reach_le row
  | some p =>
    obtain ⟨text, header⟩ := p
    rw [uncut_eq_text hcut, (headerIn?_eq_some hcut).1, length_append]
    exact Nat.le_trans (reach_le text) (Nat.le_add_right _ _)

lemma Line.plain_of_reach {l : Line} (h : reach (uncut l.row) = l.row.length) : l.Plain := by
  cases hcut : headerIn? l.row with
  | some p =>
    obtain ⟨text, header⟩ := p
    obtain ⟨hrow, hnames⟩ := headerIn?_eq_some hcut
    have hlength : 0 < header.length := length_pos_of_mem hnames.letter
    have hle := reach_le text
    rw [uncut_eq_text hcut, hrow, length_append] at h
    omega
  | none =>
    rw [uncut_eq_self hcut] at h
    refine ⟨headerIn?_eq_none_iff.mp hcut, fun hsign hstarts => ?_, fun hsign hstarts => ?_⟩
    all_goals
      have hstarts : Text.startsWith _ l.content = true := isPrefixOf_iff_prefix.mpr hstarts
      simp [Line.row, hsign, Sign.mark, reach, hstarts] at h

lemma length_contents (ls : List Line) :
    signedLength (contents .added ls) + signedLength (contents .removed ls) +
      signedLength (contents .kept ls) = sumOf (fun l => l.row.length) ls := by
  induction ls with
  | nil => rfl
  | cons l ls ih =>
    obtain ⟨sign, content, single⟩ := l
    rw [sumOf_cons, ← ih]
    cases sign <;> simp [contents, signedLength, Line.row] <;> omega

lemma toldLength_told : toldLength f.told = sumOf (fun l => l.row.length) f.lines := by
  rw [toldLength, FileDiff.told, sumOf_map, FileDiff.lines, sumOf_flatMap]
  exact congrArg (sumOf · f.chunks) (funext fun k => length_contents k.lines)

lemma Chunk.reach_rows (k : Chunk) :
    sumOf (fun row => reach (uncut row)) k.rows = sumOf (fun l => reach (uncut l.row)) k.lines := by
  have hheader : reach k.header = 0 := rfl
  rw [Chunk.rows, sumOf_cons, uncut_eq_self k.headerIn?_header, hheader, Nat.zero_add, sumOf_map]

lemma FileDiff.reach_rows :
    sumOf (fun row => reach (uncut row)) f.rows = sumOf (fun l => reach (uncut l.row)) f.lines := by
  have hold : reach ("--- a/".toList ++ f.path) = 0 := rfl
  have hnew : reach ("+++ b/".toList ++ f.path) = 0 := rfl
  have hnone : reach [] = 0 := rfl
  rw [rows, body, sumOf_cons, sumOf_cons, sumOf_cons,
    uncut_eq_text (headerIn?_of_namesFile f.namesFile_heading),
    uncut_eq_self (f.headerIn?_side (by decide)), uncut_eq_self (f.headerIn?_side (by decide)),
    hnone, hold, hnew, Nat.zero_add, Nat.zero_add, Nat.zero_add, sumOf_flatMap, lines,
    sumOf_flatMap]
  exact congrArg (sumOf · f.chunks) (funext Chunk.reach_rows)

/-! ## Diffs -/

lemma length_parse_render (fs : List FileDiff) :
    sumOf toldLength ((parse (render fs)).files.map FilePatch.told) ≤
      sumOf (fun l => reach (uncut l.row)) (fs.flatMap FileDiff.lines) := by
  cases fs with
  | nil => exact le_refl 0
  | cons f fs =>
    have hcut := reach_cutRows (newline_notMem_flatMap (f :: fs))
    rw [files_of_opens (opensFile_render f fs),
      fileParts_eq_pieces (opensFile_render f fs) (newline_mem_render f fs), rows_render]
    calc _ ≤ sumOf (fun p => sumOf reach (Text.rows p)) _ := length_parts _
      _ ≤ sumOf (fun row => reach (uncut row)) ((f :: fs).flatMap FileDiff.rows) := by omega
      _ = _ := by
        rw [sumOf_flatMap, sumOf_flatMap]
        exact congrArg (sumOf · (f :: fs)) (funext FileDiff.reach_rows)

/-- A file that has a name and whose lines are plain. -/
structure FileDiff.Plain (f : FileDiff) : Prop where
  named : f.path ≠ []
  lines : ∀ l ∈ f.lines, l.Plain

lemma plain_of_told {fs : List FileDiff}
    (h : (parse (render fs)).files.map FilePatch.told = fs.map FileDiff.told) :
    ∀ l ∈ fs.flatMap FileDiff.lines, l.Plain := by
  have hle := length_parse_render fs
  rw [h, sumOf_map, funext toldLength_told, ← sumOf_flatMap] at hle
  exact fun l hl => Line.plain_of_reach (eq_of_sumOf_le (fun l _ => reach_uncut_le l.row) hle l hl)

/-- A diff that was written is read back exactly if its files have names and their lines are plain. -/
theorem parse_render_iff (fs : List FileDiff) :
    (parse (render fs)).files.map FilePatch.told = fs.map FileDiff.told ↔ ∀ f ∈ fs, f.Plain := by
  constructor
  · intro h f hf
    have hlines : ∀ f ∈ fs, ∀ l ∈ f.lines, l.Plain := fun f hf l hl =>
      plain_of_told h l (mem_flatMap.mpr ⟨f, hf, hl⟩)
    -- as many files are read as were written, so none is left out
    have hall := congrArg List.length (h.symm.trans (told_parse_render hlines))
    rw [length_map, length_map, eq_comm, length_filter_eq_length_iff] at hall
    exact ⟨of_decide_eq_true (hall f hf), hlines f hf⟩
  · intro h
    rw [told_parse_render fun f hf => (h f hf).lines, filter_eq_self.mpr]
    exact fun f hf => decide_eq_true (h f hf).named

lemma lt_pow_of_lt_ten {n k : Nat} (hk : k ≠ 0) (h : n < 10) : n < Nat.pow 10 k :=
  Nat.lt_of_lt_of_le h (Nat.le_self_pow hk 10)

def increment : FileDiff where
  path := ['f']
  solid := forall_mem_singleton.mpr (by decide)
  chunks := [
    { oldStart := 1, oldCount := 0, newStart := 1, newCount := 2
      lines := [⟨.added, "++i;".toList, by decide⟩, ⟨.added, "x".toList, by decide⟩]
      readable := fun n hn => lt_pow_of_lt_ten (by decide) (by
        simp only [mem_cons, not_mem_nil, or_false] at hn
        omega) }]

/-- The first of the two lines is lost. -/
theorem increment_lost : (parse (render [increment])).files.map FilePatch.told =
        [("f".toList, [⟨1, 0, 1, 2, ["x".toList], [], []⟩])] ∧
      (parse (render [increment])).files.map FilePatch.told ≠ [increment].map FileDiff.told := by
  refine ⟨by decide +kernel, fun h => ?_⟩
  have hplain := ((parse_render_iff [increment]).mp h increment (mem_singleton_self _)).lines
  exact (hplain _ (mem_cons_self ..)).notPluses rfl ⟨"i;".toList, rfl⟩

end Diff

namespace Diff

open Hunk

variable {cs r row : Row} {sign : Sign} {h : Hunk}

/-! ## Headers -/

/-- A start, or a start and a count after a comma. -/
def IsRange (r : Row) : Prop :=
  IsNumber r ∨ ∃ start count, IsNumber start ∧ IsNumber count ∧ r = start ++ ',' :: count

/-- A row `@@ -range +range @@` with anything after it. -/
def IsHeader (row : Row) : Prop :=
  ∃ old new rest, IsRange old ∧ IsRange new ∧
    row = "@@ -".toList ++ (old ++ (" +".toList ++ (new ++ (" @@".toList ++ rest))))

lemma number?_eq_some {n : Nat} (h : number? cs = some (n, r)) :
    ∃ ds, IsNumber ds ∧ cs = ds ++ r := by
  simp only [number?] at h
  split at h
  · cases h
  · rename_i hdigits
    cases h
    simp only [Bool.or_eq_true, List.isEmpty_iff, decide_eq_true_eq, not_or, not_lt] at hdigits
    have hall : ∀ c ∈ cs.takeWhile Text.isDecimal, Text.isDecimal c = true :=
      all_eq_true.mp all_takeWhile
    exact ⟨_, ⟨hdigits.1, hdigits.2, hall⟩, takeWhile_append_dropWhile.symm⟩

lemma range?_eq_some {start count : Nat} (h : range? cs = some (start, count, r)) :
    ∃ ds, IsRange ds ∧ cs = ds ++ r := by
  unfold range? at h
  split at h
  · rename_i hstart
    split at h
    · rename_i hcount
      cases h
      obtain ⟨ds, hds, rfl⟩ := number?_eq_some hstart
      obtain ⟨es, hes, rfl⟩ := number?_eq_some hcount
      exact ⟨ds ++ ',' :: es, .inr ⟨ds, es, hds, hes, rfl⟩, by simp⟩
    · cases h
  · rename_i hstart
    cases h
    obtain ⟨ds, hds, rfl⟩ := number?_eq_some hstart
    exact ⟨ds, .inl hds, rfl⟩
  · cases h

lemma range?_append {ds : Row} (h : IsRange ds) (r : Row) :
    ∃ start count, range? (ds ++ ' ' :: r) = some (start, count, ' ' :: r) := by
  have hblank : Text.isDecimal ' ' = false := by decide
  have hcomma : Text.isDecimal ',' = false := by decide
  rcases h with h | ⟨start, count, hstart, hcount, rfl⟩
  · refine ⟨digitsNumber ds, 1, ?_⟩
    simp only [range?, number?_append h (r := ' ' :: r) (by simp [hblank])]
    rfl
  · refine ⟨digitsNumber start, digitsNumber count, ?_⟩
    rw [append_assoc, cons_append]
    simp only [range?, number?_append hstart (r := ',' :: (count ++ ' ' :: r)) (by simp [hcomma]),
      number?_append hcount (r := ' ' :: r) (by simp [hblank])]

lemma after?_eq_some {p : String} (h : after? p cs = some r) : cs = p.toList ++ r := by
  unfold after? at h
  split at h
  · rename_i hstarts
    cases h
    obtain ⟨t, rfl⟩ := isPrefixOf_iff_prefix.mp hstarts
    rw [← String.length_toList, drop_left]
  · cases h

lemma isSome_hunkHeader? : (hunkHeader? row).isSome = true ↔ IsHeader row := by
  constructor
  · intro h
    obtain ⟨hunk, h⟩ := Option.isSome_iff_exists.mp h
    simp only [hunkHeader?, Option.bind_eq_bind, Option.bind_eq_some_iff] at h
    obtain ⟨r₁, h₁, ⟨_, _, r₂⟩, h₂, r₃, h₃, ⟨_, _, r₄⟩, h₄, r₅, h₅, _⟩ := h
    obtain ⟨old, hold, rfl⟩ := range?_eq_some h₂
    obtain ⟨new, hnew, rfl⟩ := range?_eq_some h₄
    dsimp only at h₃ h₅
    refine ⟨old, new, r₅, hold, hnew, ?_⟩
    rw [after?_eq_some h₁, after?_eq_some h₃, after?_eq_some h₅]
  · rintro ⟨old, new, rest, hold, hnew, rfl⟩
    obtain ⟨s, c, hold⟩ := range?_append hold ('+' :: (new ++ (" @@".toList ++ rest)))
    obtain ⟨s', c', hnew⟩ := range?_append hnew ('@' :: '@' :: rest)
    have hold : range? (old ++ (" +".toList ++ (new ++ (" @@".toList ++ rest)))) =
        some (s, c, " +".toList ++ (new ++ (" @@".toList ++ rest))) := hold
    have hnew : range? (new ++ (" @@".toList ++ rest)) = some (s', c', " @@".toList ++ rest) := hnew
    simp only [hunkHeader?, after?_append, hold, hnew, Option.bind_eq_bind, Option.bind_some]
    rfl

instance : DecidablePred IsHeader := fun _ => decidable_of_iff _ isSome_hunkHeader?

/-! ## Spans -/

/-- A row that begins with `@@`, and the rows up to the next one that does. -/
structure Span where
  head : Row
  body : List Row

def Span.rows (s : Span) : List Row := s.head :: s.body

def spans : List Row → List Span
  | [] => []
  | row :: rows =>
    if beginsHunk row then ⟨row, rows.takeWhile (!beginsHunk ·)⟩ :: spans rows else spans rows

lemma append_spans (rows : List Row) :
    rows.takeWhile (!beginsHunk ·) ++ (spans rows).flatMap Span.rows = rows := by
  induction rows with
  | nil => rfl
  | cons row rows ih =>
    by_cases hrow : beginsHunk row
    · rw [spans, if_pos hrow, takeWhile_cons_of_neg (by simp [hrow]), flatMap_cons,
        Span.rows, nil_append, cons_append, ih]
    · rw [spans, if_neg hrow, takeWhile_cons_of_pos (by simp [hrow]), cons_append, ih]

lemma of_mem_spans {rows : List Row} {s : Span} (h : s ∈ spans rows) :
    beginsHunk s.head = true ∧ ∀ row ∈ s.body, beginsHunk row = false := by
  induction rows with
  | nil => cases h
  | cons row rows ih =>
    rw [spans] at h
    split at h
    · rcases mem_cons.mp h with rfl | h
      · refine ⟨by assumption, fun r hr => ?_⟩
        have hall : (rows.takeWhile (!beginsHunk ·)).all (!beginsHunk ·) = true :=
          all_takeWhile
        simpa using all_eq_true.mp hall r hr
      · exact ih h
    · exact ih h

lemma IsHeader.beginsHunk (h : IsHeader row) : beginsHunk row = true := by
  obtain ⟨old, new, rest, _, _, rfl⟩ := h
  rfl

lemma heads_spans (rows : List Row) :
    ((spans rows).filter (IsHeader ·.head)).map Span.head = rows.filter (IsHeader ·) := by
  induction rows with
  | nil => rfl
  | cons row rows ih =>
    rw [spans]
    split
    · by_cases hhead : IsHeader row <;> simp [hhead, ih]
    · rename_i hrow
      have hhead : ¬IsHeader row := fun hhead => hrow hhead.beginsHunk
      simp [hhead, ih]

def Span.hunk? (s : Span) : Option Hunk := (hunkHeader? s.head).map (s.body.foldl add)

lemma hunksFrom_eq (o : Option Hunk) (rows : List Row) :
    hunksFrom o rows = (o.map ((rows.takeWhile (!beginsHunk ·)).foldl add)).toList ++
      (spans rows).filterMap Span.hunk? := by
  induction rows generalizing o with
  | nil => cases o <;> rfl
  | cons row rows ih =>
    by_cases hrow : beginsHunk row
    · rw [hunksFrom, if_pos hrow, ih, spans, if_pos hrow,
        takeWhile_cons_of_neg (by simp [hrow])]
      cases o <;> cases hhead : hunkHeader? row <;> simp [Span.hunk?, hhead]
    · rw [hunksFrom, if_neg hrow, ih, spans, if_neg hrow,
        takeWhile_cons_of_pos (by simp [hrow])]
      cases o <;> rfl

lemma hunks_eq (rows : List Row) : hunks rows = (spans rows).filterMap Span.hunk? :=
  hunksFrom_eq none rows

lemma Span.isSome_hunk? {s : Span} : s.hunk?.isSome = true ↔ IsHeader s.head := by
  rw [hunk?, Option.isSome_map, isSome_hunkHeader?]

/-- The hunks are those of the spans with a header, in order. -/
lemma forall₂_hunks {rows : List Row} {P : Span → Hunk → Prop} :
    List.Forall₂ P ((spans rows).filter (IsHeader ·.head)) (hunks rows) ↔
      ∀ s ∈ spans rows, ∀ h, s.hunk? = some h → P s h := by
  rw [hunks_eq]
  induction spans rows with
  | nil => simp
  | cons s ss ih =>
    rw [forall_mem_cons, ← ih]
    cases hs : s.hunk? with
    | none =>
      have hnot : ¬IsHeader s.head := by simp [← Span.isSome_hunk?, hs]
      rw [filter_cons_of_neg (by simpa using hnot), filterMap_cons_none hs]
      simp
    | some h =>
      have his : IsHeader s.head := by simp [← Span.isSome_hunk?, hs]
      rw [filter_cons_of_pos (by simpa using his), filterMap_cons_some hs,
        forall₂_cons]
      simp

/-! ## Lines -/

/-- The row begins with the sign and not like a row of a file's heading. -/
def Sign.marks : Sign → Row → Bool
  | added, row => Text.startsWith "+".toList row && !Text.startsWith "+++".toList row
  | removed, row => Text.startsWith "-".toList row && !Text.startsWith "---".toList row
  | kept, row => Text.startsWith " ".toList row

def Hunk.lines (h : Hunk) : Sign → List NumberedLine
  | .added => h.added
  | .removed => h.removed
  | .kept => h.kept

def Hunk.start (h : Hunk) : Sign → Nat
  | .added => h.newStart
  | .removed | .kept => h.oldStart

lemma Sign.eq_cons_of_marks (h : sign.marks row = true) : row = sign.mark :: row.tail := by
  have hstarts : [sign.mark] <+: row := by
    cases sign with
    | added => exact isPrefixOf_iff_prefix.mp (Bool.and_eq_true_iff.mp h).1
    | removed => exact isPrefixOf_iff_prefix.mp (Bool.and_eq_true_iff.mp h).1
    | kept => exact isPrefixOf_iff_prefix.mp h
  obtain ⟨r, rfl⟩ := hstarts
  rfl

lemma Sign.eq_of_marks {s t : Sign} (hs : s.marks row = true)
    (ht : t.marks row = true) : s = t := by
  have hmark : s.mark = t.mark :=
    (List.cons.inj ((eq_cons_of_marks hs).symm.trans (eq_cons_of_marks ht))).1
  revert hmark
  cases s <;> cases t <;> decide

lemma start_add (h : Hunk) (row : Row) : (h.add row).start = h.start := by
  unfold add
  split <;> (try split) <;> funext sign <;> cases sign <;> rfl

lemma lines_add (h : Hunk) (row : Row) (sign : Sign) :
    (h.add row).lines sign = if sign.marks row then
      h.lines sign ++ [⟨h.start sign + (h.lines sign).length, row.tail⟩] else h.lines sign := by
  unfold add
  split
  · rename_i r
    cases hstarts : Text.startsWith ['+', '+'] r <;> cases sign <;>
      simp_all [Sign.marks, Text.startsWith, lines, start]
  · rename_i r
    cases hstarts : Text.startsWith ['-', '-'] r <;> cases sign <;>
      simp_all [Sign.marks, Text.startsWith, lines, start]
  · cases sign <;> simp [Sign.marks, Text.startsWith, lines, start]
  · cases sign <;> simp [Sign.marks, Text.startsWith, lines]
  · rename_i hplus hminus hblank _
    rw [if_neg]
    intro hmarks
    have hrow := Sign.eq_cons_of_marks hmarks
    cases sign with
    | added => exact hplus _ hrow
    | removed => exact hminus _ hrow
    | kept => exact hblank _ hrow

lemma lines_foldl (h : Hunk) (rows : List Row) (sign : Sign) :
    (rows.foldl add h).lines sign = h.lines sign ++
      ((rows.filter sign.marks).zipIdx (h.start sign + (h.lines sign).length)).map
        fun p => ⟨p.2, p.1.tail⟩ := by
  induction rows generalizing h with
  | nil => simp
  | cons row rows ih =>
    rw [foldl_cons, ih, start_add, lines_add]
    split
    · rename_i hmarks
      rw [filter_cons_of_pos hmarks, zipIdx_cons, map_cons, length_append]
      simp [Nat.add_assoc]
    · rename_i hmarks
      rw [filter_cons_of_neg hmarks]

lemma lines_hunkHeader? (hh : hunkHeader? row = some h) (sign : Sign) : h.lines sign = [] := by
  simp only [hunkHeader?, Option.bind_eq_bind, Option.bind_eq_some_iff] at hh
  obtain ⟨_, _, _, _, _, _, _, _, _, _, heq⟩ := hh
  cases heq
  cases sign <;> rfl

lemma start_foldl (h : Hunk) (rows : List Row) : (rows.foldl add h).start = h.start := by
  induction rows generalizing h with
  | nil => rfl
  | cons row rows ih => rw [foldl_cons, ih, start_add]

/-- The lines with a sign are the rows that have it, numbered one after the other. -/
lemma lines_of_hunk? {s : Span} (hs : s.hunk? = some h) (sign : Sign) :
    h.lines sign = ((s.body.filter sign.marks).zipIdx (h.start sign)).map
      fun p => ⟨p.2, p.1.tail⟩ := by
  obtain ⟨h₀, hhead, rfl⟩ := Option.map_eq_some_iff.mp hs
  rw [lines_foldl, lines_hunkHeader? hhead, start_foldl]
  rfl

/-- Written with the sign before it, the content of a line is the row it was read from. -/
lemma rows_of_hunk? {s : Span} (hs : s.hunk? = some h) (sign : Sign) :
    (h.lines sign).map (sign.mark :: ·.content) = s.body.filter sign.marks := by
  have hrow : ∀ p ∈ (s.body.filter sign.marks).zipIdx (h.start sign),
      sign.mark :: p.1.tail = p.1 := fun p hp =>
    (Sign.eq_cons_of_marks (mem_filter.mp (fst_mem_of_mem_zipIdx hp)).2).symm
  rw [lines_of_hunk? hs, map_map]
  calc _ = ((s.body.filter sign.marks).zipIdx (h.start sign)).map Prod.fst :=
        map_congr_left hrow
    _ = _ := zipIdx_map_fst ..

/-- The lines of hunks are rows of the text and nothing else. The rows are cut into spans at those
that begin with `@@`. Each row that is a header gives one hunk, in order. The lines of a hunk with a
sign, written with that sign, are all the rows of its span that have it, in order, and no row has
two signs. -/
theorem hunks_tell_spans (rows : List Row) :
    (rows.takeWhile (!beginsHunk ·) ++ (spans rows).flatMap Span.rows = rows ∧
        ∀ s ∈ spans rows, beginsHunk s.head = true ∧ ∀ row ∈ s.body, beginsHunk row = false) ∧
      ((spans rows).filter (IsHeader ·.head)).map Span.head = rows.filter (IsHeader ·) ∧
      List.Forall₂ (fun s h => ∀ sign,
          (h.lines sign).map (sign.mark :: ·.content) = s.body.filter sign.marks)
        ((spans rows).filter (IsHeader ·.head)) (hunks rows) ∧
      ∀ (s t : Sign) (row : Row), s.marks row = true → t.marks row = true → s = t :=
  ⟨⟨append_spans rows, fun _ => of_mem_spans⟩, heads_spans rows,
    forall₂_hunks.mpr fun _ _ _ hs => rows_of_hunk? hs, fun _ _ _ => Sign.eq_of_marks⟩

/-! ## Numbers -/

/-- The place of a line in its file, by the rows before it: an added line has a place in the new
file, the others have one in the old file. -/
def Hunk.place (h : Hunk) (before : List Row) : Sign → Nat
  | .added => h.newStart + (before.countP Sign.added.marks + before.countP Sign.kept.marks)
  | .removed | .kept =>
    h.oldStart + (before.countP Sign.removed.marks + before.countP Sign.kept.marks)

/-- Every row that stands for a line is told with its place. -/
def Hunk.Placed (h : Hunk) (body : List Row) : Prop :=
  ∀ (sign : Sign) (before : List Row) (row : Row) (after : List Row),
    body = before ++ row :: after → sign.marks row = true →
      (h.lines sign)[before.countP sign.marks]? = some ⟨h.place before sign, row.tail⟩

/-- The sign of the other lines in the same file. -/
def Sign.partner : Sign → Sign
  | added => kept
  | removed => kept
  | kept => removed

/-- No kept line stands before a changed one, and no removed line before a kept one. -/
def InOrder (body : List Row) : Prop :=
  body.Pairwise fun a b => ∀ sign : Sign, sign.marks b = true → sign.partner.marks a = false

/-- The number that a row is told with counts the rows of its own sign only. -/
lemma getElem?_lines {s : Span} (hs : s.hunk? = some h)
    {before : List Row} {after : List Row} (hbody : s.body = before ++ row :: after)
    (hrow : sign.marks row = true) : (h.lines sign)[before.countP sign.marks]? =
      some ⟨h.start sign + before.countP sign.marks, row.tail⟩ := by
  rw [lines_of_hunk? hs, hbody, filter_append, filter_cons_of_pos hrow,
    countP_eq_length_filter]
  simp

/-- Such a number is right as long as none of the other lines in the same file came before. -/
lemma place_eq_iff (h : Hunk) (before : List Row) (sign : Sign) :
    h.start sign + before.countP sign.marks = h.place before sign ↔
      ∀ r ∈ before, sign.partner.marks r = false := by
  have hnone : (∀ r ∈ before, sign.partner.marks r = false) ↔
      before.countP sign.partner.marks = 0 := by simp [countP_eq_zero]
  rw [hnone]
  cases sign <;> simp only [start, place, Sign.partner] <;> omega

lemma pairwise_iff_split {α : Type} {R : α → α → Prop} {l : List α} :
    l.Pairwise R ↔ ∀ before x after, l = before ++ x :: after → ∀ y ∈ before, R y x := by
  constructor
  · rintro h before x after rfl y hy
    exact (pairwise_append.mp h).2.2 y hy x (.head _)
  · intro h
    induction l with
    | nil => exact .nil
    | cons a l ih =>
      refine pairwise_cons.mpr ⟨fun b hb => ?_, ih fun before x after hl y hy => ?_⟩
      · obtain ⟨before, after, rfl⟩ := append_of_mem hb
        exact h (a :: before) b after rfl a (.head _)
      · exact h (a :: before) x after (by rw [hl]; rfl) y (.tail _ hy)

lemma placed_iff {s : Span} (hs : s.hunk? = some h) : h.Placed s.body ↔ InOrder s.body := by
  rw [InOrder, pairwise_iff_split]
  constructor
  · intro hplaced before row after hbody r hr sign hrow
    have hnumber := hplaced sign before row after hbody hrow
    rw [getElem?_lines hs hbody hrow] at hnumber
    simp only [Option.some.injEq, NumberedLine.mk.injEq, and_true] at hnumber
    exact (place_eq_iff h before sign).mp hnumber r hr
  · intro horder sign before row after hbody hrow
    have hright : ∀ r ∈ before, sign.partner.marks r = false := fun r hr =>
      horder before row after hbody r hr sign hrow
    rw [getElem?_lines hs hbody hrow, (place_eq_iff h before sign).mpr hright]

/-- The lines of all hunks are told with their places exactly if in every hunk no kept line stands
before a changed one and no removed line before a kept one. -/
theorem placed_iff_inOrder (rows : List Row) :
    List.Forall₂ (fun s h => h.Placed s.body) ((spans rows).filter (IsHeader ·.head)) (hunks rows) ↔
      ∀ s ∈ spans rows, IsHeader s.head → InOrder s.body := by
  rw [forall₂_hunks]
  refine forall_congr' fun s => forall_congr' fun _ => ?_
  rw [← Span.isSome_hunk?, Option.isSome_iff_exists]
  constructor
  · rintro hplaced ⟨h, hs⟩
    exact (placed_iff hs).mp (hplaced h hs)
  · exact fun horder h hs => (placed_iff hs).mpr (horder ⟨h, hs⟩)

def insertion : List Row :=
  ["@@ -1,2 +1,3 @@".toList, " a".toList, "+b".toList, " c".toList]

/-- The added line stands in the second place of the new file and is told as the first. -/
theorem insertion_misplaced : (hunks insertion).map (·.added) = [[⟨1, "b".toList⟩]] ∧
      ¬List.Forall₂ (fun s h => h.Placed s.body) ((spans insertion).filter (IsHeader ·.head))
        (hunks insertion) := by
  refine ⟨by decide +kernel, fun hplaced => ?_⟩
  have hspan : (⟨"@@ -1,2 +1,3 @@".toList, [" a".toList, "+b".toList, " c".toList]⟩ : Span) ∈
      spans insertion := mem_cons_self ..
  have horder := (placed_iff_inOrder insertion).mp hplaced _ hspan (by decide +kernel)
  have hkept : Sign.kept.marks " a".toList = false :=
    (pairwise_cons.mp horder).1 "+b".toList (mem_cons_self ..) .added (by decide)
  exact absurd hkept (by decide)

end Diff

end ReviewDesk
