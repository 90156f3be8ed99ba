import ReviewDesk.Proofs.Preamble

/-!
# The unified format

How a change of files is written as a diff, and how each of the rows is read. A diff of lines that
are plain, which neither hold a header nor look like a row of a file's heading, is read as it was
written.
-/

namespace ReviewDesk

open List Text

namespace Text

lemma rows_flatMap {rs : List Chars} (h : ∀ r ∈ rs, '\n' ∉ r) :
    rows (rs.flatMap (· ++ ['\n'])) = rs ++ [[]] := by
  induction rs with
  | nil => rfl
  | cons r rs ih =>
    rw [flatMap_cons, append_assoc, singleton_append, rows_append,
      rows_of_notMem (h r (.head _)), ih fun q hq => h q (.tail _ hq)]
    rfl

lemma digit?_of_isDigit {c : Char} (h : c.isDigit) : digit? c = some (c.toNat - 48) := by
  have hascii : c.toNat < 128 := by
    simp only [Char.isDigit, Bool.and_eq_true, decide_eq_true_eq] at h
    have hle : c.val.toNat ≤ 57 := UInt32.le_iff_toNat_le.mp h.2
    exact Nat.lt_of_le_of_lt hle (by decide)
  rw [digit?, if_pos hascii, if_pos h]

lemma isDecimal_of_isDigit {c : Char} (h : c.isDigit) : isDecimal c = true := by
  rw [isDecimal, digit?_of_isDigit h, Option.isSome_some]

lemma trim_eq_self {cs : Chars} (h : ∀ c ∈ cs, isBlank c = false) : trim cs = cs := by
  have hdrop (l : Chars) (hl : ∀ c ∈ l, isBlank c = false) : l.dropWhile isBlank = l := by
    cases l with
    | nil => rfl
    | cons c l => exact dropWhile_cons_of_neg (by simp [hl c (.head _)])
  rw [trim, trimStart, hdrop cs h, trimEnd, hdrop _ (by simpa using h), reverse_reverse]

end Text

namespace Diff

open Decimal (natDigits)

variable {n : Nat} {c : Char}

/-! ## Writing -/

inductive Sign where
  | added
  | removed
  | kept
  deriving DecidableEq

def Sign.mark : Sign → Char
  | added => '+'
  | removed => '-'
  | kept => ' '

structure Line where
  sign : Sign
  content : Row
  single : '\n' ∉ content

def Line.row (l : Line) : Row := l.sign.mark :: l.content

/-- A hunk that is to be written. -/
structure Chunk where
  oldStart : Nat
  oldCount : Nat
  newStart : Nat
  newCount : Nat
  lines : List Line
  readable : ∀ n ∈ [oldStart, oldCount, newStart, newCount], n < Nat.pow 10 mostDigits

namespace Chunk

def header (k : Chunk) : Row :=
  "@@ -".toList ++ (natDigits k.oldStart ++ ',' :: (natDigits k.oldCount ++
    (" +".toList ++ (natDigits k.newStart ++ ',' :: (natDigits k.newCount ++ " @@".toList)))))

def rows (k : Chunk) : List Row := k.header :: k.lines.map Line.row

end Chunk

/-- A change of one file that is to be written. -/
structure FileDiff where
  path : Row
  solid : ∀ c ∈ path, isBlank c = false
  chunks : List Chunk

namespace FileDiff

variable (f : FileDiff)

def heading : Row := "diff --git a/".toList ++ (f.path ++ " b/".toList ++ f.path)

/-- The rows after the one that names the file. -/
def body : List Row :=
  ("--- a/".toList ++ f.path) :: ("+++ b/".toList ++ f.path) :: f.chunks.flatMap Chunk.rows

def rows : List Row := f.heading :: f.body

def lines : List Line := f.chunks.flatMap Chunk.lines

end FileDiff

/-- Rows with a line feed after each. -/
def written (rows : List Row) : Chars := rows.flatMap (· ++ ['\n'])

def render (fs : List FileDiff) : Chars := written (fs.flatMap FileDiff.rows)

/-! ## What is told of a file -/

/-- The numbers of a hunk and the contents of its lines. -/
structure HunkContent where
  oldStart : Nat
  oldCount : Nat
  newStart : Nat
  newCount : Nat
  added : List Row
  removed : List Row
  kept : List Row
  deriving DecidableEq

def Hunk.told (h : Hunk) : HunkContent :=
  ⟨h.oldStart, h.oldCount, h.newStart, h.newCount, h.added.map (·.content),
    h.removed.map (·.content), h.kept.map (·.content)⟩

def contents (sign : Sign) (lines : List Line) : List Row :=
  (lines.filter (·.sign = sign)).map (·.content)

def Chunk.told (k : Chunk) : HunkContent :=
  ⟨k.oldStart, k.oldCount, k.newStart, k.newCount, contents .added k.lines,
    contents .removed k.lines, contents .kept k.lines⟩

def FilePatch.told (f : FilePatch) : Row × List HunkContent := (f.path, f.hunks.map Hunk.told)

def FileDiff.told (f : FileDiff) : Row × List HunkContent := (f.path, f.chunks.map Chunk.told)

/-- A line that holds no header and, with its sign, does not begin like the rows `+++` and `---` of a
heading. -/
structure Line.Plain (l : Line) : Prop where
  noHeader : ∀ a b, l.row = a ++ b → ¬NamesFile b
  notPluses : l.sign = .added → ¬['+', '+'] <+: l.content
  notMinuses : l.sign = .removed → ¬['-', '-'] <+: l.content

/-! ## Numbers -/

lemma isDigit_of_mem_natDigits (h : c ∈ natDigits n) : c.isDigit :=
  Nat.isDigit_of_mem_toDigits (by decide) (by decide) h

lemma length_natDigits_le {k : Nat} (hk : 0 < k) (h : n < Nat.pow 10 k) :
    (natDigits n).length ≤ k :=
  (Nat.length_toDigits_le_iff (by decide) hk).mpr h

lemma digitsNumber_natDigits (n : Nat) : digitsNumber (natDigits n) = n := by
  have hdigit : ∀ (cs : Chars) (m : Nat), (∀ c ∈ cs, c.isDigit) →
      cs.foldl (fun n c => 10 * n + (digit? c).getD 0) m = Nat.ofDigitChars 10 cs m := by
    intro cs m hcs
    rw [Nat.ofDigitChars_eq_foldl]
    induction cs generalizing m with
    | nil => rfl
    | cons c cs ih =>
      rw [foldl_cons, foldl_cons, digit?_of_isDigit (hcs c (.head _)),
        ih _ fun x hx => hcs x (.tail _ hx)]
      rfl
  rw [digitsNumber, hdigit _ _ fun c hc => isDigit_of_mem_natDigits hc]
  exact Nat.ofDigitChars_ten_toDigits

/-- The digits of a number that is read: at least one and not too many, of any script. -/
structure IsNumber (ds : Row) : Prop where
  notEmpty : ds ≠ []
  short : ds.length ≤ mostDigits
  decimal : ∀ c ∈ ds, isDecimal c = true

lemma number?_append {ds r : Row} (h : IsNumber ds) (hr : ∀ c ∈ r.head?, isDecimal c = false) :
    number? (ds ++ r) = some (digitsNumber ds, r) := by
  have hrest : r.takeWhile isDecimal = [] ∧ r.dropWhile isDecimal = r := by
    cases r with
    | nil => exact ⟨rfl, rfl⟩
    | cons c r =>
      have hc : ¬isDecimal c = true := by simp [hr c rfl]
      exact ⟨takeWhile_cons_of_neg hc, dropWhile_cons_of_neg hc⟩
  have htake : (ds ++ r).takeWhile isDecimal = ds := by
    rw [takeWhile_append_of_pos h.decimal, hrest.1, append_nil]
  have hdrop : (ds ++ r).dropWhile isDecimal = r := by
    rw [dropWhile_append_of_pos h.decimal, hrest.2]
  simp only [number?, htake, hdrop]
  rw [if_neg]
  simp [h.notEmpty, h.short]

lemma number?_natDigits (h : n < Nat.pow 10 mostDigits) (hc : isDecimal c = false) (r : Row) :
    number? (natDigits n ++ c :: r) = some (n, c :: r) := by
  have hdigits : IsNumber (natDigits n) :=
    { notEmpty := Nat.toDigits_ne_nil
      short := length_natDigits_le (by decide) h
      decimal := fun x hx => isDecimal_of_isDigit (isDigit_of_mem_natDigits hx) }
  rw [number?_append hdigits (by simp [hc]), digitsNumber_natDigits]

lemma range?_natDigits {m : Nat} (hm : m < Nat.pow 10 mostDigits)
    (hn : n < Nat.pow 10 mostDigits) (r : Row) :
    range? (natDigits m ++ ',' :: (natDigits n ++ ' ' :: r)) = some (m, n, ' ' :: r) := by
  simp only [range?, number?_natDigits hm (c := ',') (by decide),
    number?_natDigits hn (c := ' ') (by decide)]

lemma after?_append (p : String) (r : Row) : after? p (p.toList ++ r) = some r := by
  have hstarts : startsWith p.toList (p.toList ++ r) = true :=
    isPrefixOf_iff_prefix.mpr ⟨r, rfl⟩
  rw [after?, if_pos hstarts, ← String.length_toList, drop_left]

def Chunk.opened (k : Chunk) : Hunk :=
  { oldStart := k.oldStart, oldCount := k.oldCount, newStart := k.newStart
    newCount := k.newCount, heading := [] }

lemma hunkHeader?_header (k : Chunk) : hunkHeader? k.header = some k.opened := by
  have hnew : range? (natDigits k.newStart ++ ',' :: (natDigits k.newCount ++ " @@".toList)) =
      some (k.newStart, k.newCount, " @@".toList ++ []) :=
    range?_natDigits (k.readable _ (by simp)) (k.readable _ (by simp)) ['@', '@']
  have hold (r : Row) : range? (natDigits k.oldStart ++ ',' :: (natDigits k.oldCount ++
      (" +".toList ++ r))) = some (k.oldStart, k.oldCount, " +".toList ++ r) :=
    range?_natDigits (k.readable _ (by simp)) (k.readable _ (by simp)) ('+' :: r)
  unfold hunkHeader? Chunk.header
  simp only [after?_append, hold, hnew, Option.bind_eq_bind, Option.bind_some]
  rfl

/-! ## Rows of a heading -/

lemma cutAt?_first {p a : Row} (h : c ∉ a) (b : Row) :
    cutAt? (c :: p) (a ++ (c :: p ++ b)) = some (a, b) := by
  induction a with
  | nil => exact cutAt?_prefix (by simp) b
  | cons x a ih =>
    simp only [mem_cons, not_or] at h
    have hstarts : startsWith (c :: p) (x :: (a ++ (c :: p ++ b))) = false := by
      simp [startsWith, List.isPrefixOf, h.1]
    rw [cons_append, cutAt?, hstarts, ih h.2]
    rfl

/-- The two paths of a row `diff --git` are told apart if they have no blanks. -/
lemma gitPaths?_of_solid {old new : Row} (hold : ∀ c ∈ old, isBlank c = false)
    (hnew : ∀ c ∈ new, isBlank c = false) :
    gitPaths? ("diff --git a/".toList ++ (old ++ " b/".toList ++ new)) = some (old, new) := by
  have hblank : isBlank ' ' = true := by decide
  have hfeed : isBlank '\n' = true := by decide
  have hnone : '\n' ∉ old ++ " b/".toList ++ new := by
    simp only [mem_append, not_or]
    refine ⟨⟨fun hc => ?_, by decide⟩, fun hc => ?_⟩
    · simp [hold _ hc] at hfeed
    · simp [hnew _ hc] at hfeed
  have hall : ∀ c ∈ old ++ " b/".toList ++ new, (c != '\n') = true := fun _ hc =>
    bne_iff_ne.mpr fun heq => hnone (heq ▸ hc)
  have hline : (old ++ " b/".toList ++ new).takeWhile (· != '\n') = old ++ " b/".toList ++ new := by
    rw [← append_nil (old ++ " b/".toList ++ new), takeWhile_append_of_pos hall]
    rfl
  have hside : " b/".toList = ' ' :: ['b', '/'] := by decide
  unfold gitPaths?
  rw [after?_append, Option.bind_eq_bind, Option.bind_some, hline, append_assoc, hside]
  exact cutAt?_first (fun hc => by simp [hold _ hc] at hblank) new

namespace FileDiff

variable (f : FileDiff)

lemma blank_notMem (hc : isBlank c = true) : c ∉ f.path := fun h => by
  rw [f.solid c h] at hc
  cases hc

lemma namesFile_heading : NamesFile f.heading := ⟨f.path, f.path, rfl⟩

lemma gitPaths?_heading : gitPaths? f.heading = some (f.path, f.path) :=
  gitPaths?_of_solid f.solid f.solid

end FileDiff

lemma path_ite {c : Prop} [Decidable c] {a b : FileHeader} {path : Option Row}
    (ha : c → a.path = path) (hb : ¬c → b.path = path) : (if c then a else b).path = path := by
  split
  · exact ha ‹_›
  · exact hb ‹_›

lemma read_path {row : Row} {h : FileHeader} (hdiff : startsWith "diff --git".toList row = false)
    (hplus : startsWith "+++".toList row = true → hasPath h.path = true) :
    (h.read row).path = h.path := by
  refine path_ite (fun hs => absurd hs (Bool.eq_false_iff.mp hdiff)) fun _ => ?_
  refine path_ite (fun _ => rfl) fun _ => path_ite (fun _ => rfl) fun _ => ?_
  refine path_ite (fun _ => rfl) fun _ => path_ite (fun _ => ?_) fun _ => ?_
  · cases indexHashes? row <;> rfl
  refine path_ite (fun _ => ?_) fun _ => path_ite (fun hs => ?_) fun _ => rfl
  · cases sidePath? 'a' row <;> rfl
  · cases sidePath? 'b' row with
    | none => rfl
    | some new => exact if_pos (hplus hs)

lemma foldl_read_path {rows : List Row}
    (hdiff : ∀ row ∈ rows, startsWith "diff --git".toList row = false)
    (hplus : ∀ row ∈ rows, startsWith "+++".toList row = false) (h : FileHeader) :
    (rows.foldl FileHeader.read h).path = h.path := by
  induction rows generalizing h with
  | nil => rfl
  | cons row rows ih =>
    rw [foldl_cons, ih (fun r hr => hdiff r (.tail _ hr))
      (fun r hr => hplus r (.tail _ hr)),
      read_path (hdiff row (.head _)) fun hs =>
        absurd hs (Bool.eq_false_iff.mp (hplus row (.head _)))]

namespace FileDiff

variable (f : FileDiff)

lemma read_heading (h : FileHeader) : (h.read f.heading).path = some f.path := by
  have hopening : "diff --git a/".toList = "diff --git".toList ++ " a/".toList := by decide
  have hstarts : startsWith "diff --git".toList f.heading = true := by
    unfold heading
    rw [hopening, append_assoc]
    exact isPrefixOf_iff_prefix.mpr (prefix_append _ _)
  unfold FileHeader.read
  simp only [hstarts, ↓reduceIte, gitPaths?_heading]

lemma read_newSide {h : FileHeader} (hpath : h.path = some f.path) :
    (h.read ("+++ b/".toList ++ f.path)).path = some f.path := by
  by_cases hempty : f.path = []
  · have hread : (h.read "+++ b/".toList).path = if hasPath h.path then h.path else some [] := rfl
    rw [hempty] at hpath ⊢
    rw [append_nil, hread, hpath, if_neg (by decide)]
  · have hdiff : startsWith "diff --git".toList ("+++ b/".toList ++ f.path) = false := rfl
    have hknown : hasPath h.path = true := by simp [hasPath, hpath, hempty]
    rw [read_path hdiff fun _ => hknown, hpath]

end FileDiff

/-! ## Rows that hold no header -/

lemma NamesFile.blanks {row : Row} (h : NamesFile row) : 3 ≤ row.count ' ' := by
  obtain ⟨old, new, rfl⟩ := h
  have hleft : "diff --git a/".toList.count ' ' = 2 := by decide
  have hright : " b/".toList.count ' ' = 1 := by decide
  simp only [count_append, hleft, hright]
  omega

lemma NamesFile.letter {row : Row} (h : NamesFile row) : 'd' ∈ row := by
  obtain ⟨old, new, rfl⟩ := h
  exact mem_append_left _ (by decide)

/-- The rows `--- a/path` and `+++ b/path` have one blank only. -/
lemma FileDiff.headerIn?_side (f : FileDiff) {side : Row} (hside : side.count ' ' = 1) :
    headerIn? (side ++ f.path) = none := by
  refine headerIn?_eq_none_iff.mpr fun a b hab hb => ?_
  have hblanks := hb.blanks
  have hpath : f.path.count ' ' = 0 := count_eq_zero.mpr (f.blank_notMem (by decide))
  have hcount := congrArg (List.count ' ') hab
  simp only [count_append, hside, hpath] at hcount
  omega

lemma Chunk.mem_header {k : Chunk} (h : c ∈ k.header) :
    c.isDigit = true ∨ c ∈ "@ -,+".toList := by
  have hmarks : "@ -,+".toList = ['@', ' ', '-', ',', '+'] := by decide
  have hdigit : ∀ n, c ∈ natDigits n → c.isDigit = true := fun _ => isDigit_of_mem_natDigits
  unfold header at h
  simp only [mem_append, mem_cons] at h
  grind

lemma Chunk.headerIn?_header (k : Chunk) : headerIn? k.header = none := by
  refine headerIn?_eq_none_iff.mpr fun a b hab hb => ?_
  have hmem : 'd' ∈ k.header := hab ▸ mem_append_right a hb.letter
  exact absurd (Chunk.mem_header hmem) (by decide)

lemma Line.newline_notMem_row (l : Line) : '\n' ∉ l.row := by
  obtain ⟨sign, content, single⟩ := l
  cases sign <;> simpa [Line.row, Sign.mark] using single

lemma Line.Plain.headerIn? {l : Line} (h : l.Plain) : headerIn? l.row = none :=
  headerIn?_eq_none_iff.mpr h.noHeader

/-! ## Hunks -/

lemma beginsHunk_row (l : Line) : beginsHunk l.row = false := by
  obtain ⟨sign, content, single⟩ := l
  cases sign <;> rfl

lemma hunksFrom_other {row : Row} (h : beginsHunk row = false) (o : Option Hunk)
    (rows : List Row) : hunksFrom o (row :: rows) = hunksFrom (o.map (·.add row)) rows := by
  rw [hunksFrom, if_neg (by simp [h])]

lemma hunksFrom_lines (h : Hunk) (ls : List Line) (rows : List Row) :
    hunksFrom (some h) (ls.map Line.row ++ rows) =
      hunksFrom (some (ls.foldl (fun h l => h.add l.row) h)) rows := by
  induction ls generalizing h with
  | nil => rfl
  | cons l ls ih =>
    rw [map_cons, cons_append, hunksFrom_other (beginsHunk_row l), Option.map_some, ih,
      foldl_cons]

def Chunk.hunk (k : Chunk) : Hunk := k.lines.foldl (fun h l => h.add l.row) k.opened

lemma hunksFrom_chunks (ks : List Chunk) (o : Option Hunk) :
    hunksFrom o (ks.flatMap Chunk.rows ++ [[]]) = o.toList ++ ks.map Chunk.hunk := by
  induction ks generalizing o with
  | nil => cases o <;> rfl
  | cons k ks ih =>
    have hbegins : beginsHunk k.header = true := rfl
    rw [flatMap_cons, Chunk.rows, append_assoc, cons_append, hunksFrom,
      if_pos hbegins, hunkHeader?_header, hunksFrom_lines, ih]
    rfl

def HunkContent.add (t : HunkContent) (l : Line) : HunkContent :=
  match l.sign with
  | .added => { t with added := t.added ++ [l.content] }
  | .removed => { t with removed := t.removed ++ [l.content] }
  | .kept => { t with kept := t.kept ++ [l.content] }

lemma told_add {l : Line} (hl : l.Plain) (h : Hunk) : (h.add l.row).told = h.told.add l := by
  obtain ⟨sign, content, single⟩ := l
  cases sign with
  | added =>
    have hstarts : startsWith ['+', '+'] content = false :=
      Bool.eq_false_iff.mpr fun hs => hl.notPluses rfl (List.isPrefixOf_iff_prefix.mp hs)
    simp [Line.row, Sign.mark, Hunk.add, hstarts, Hunk.told, HunkContent.add]
  | removed =>
    have hstarts : startsWith ['-', '-'] content = false :=
      Bool.eq_false_iff.mpr fun hs => hl.notMinuses rfl (List.isPrefixOf_iff_prefix.mp hs)
    simp [Line.row, Sign.mark, Hunk.add, hstarts, Hunk.told, HunkContent.add]
  | kept => simp [Line.row, Sign.mark, Hunk.add, Hunk.told, HunkContent.add]

lemma told_foldl {ls : List Line} (hls : ∀ l ∈ ls, l.Plain) (h : Hunk) :
    (ls.foldl (fun h l => h.add l.row) h).told = ls.foldl HunkContent.add h.told := by
  induction ls generalizing h with
  | nil => rfl
  | cons l ls ih =>
    rw [foldl_cons, foldl_cons, ih fun q hq => hls q (.tail _ hq),
      told_add (hls l (.head _))]

lemma foldl_add (ls : List Line) (t : HunkContent) : ls.foldl HunkContent.add t =
      { t with
        added := t.added ++ contents .added ls
        removed := t.removed ++ contents .removed ls
        kept := t.kept ++ contents .kept ls } := by
  induction ls generalizing t with
  | nil => simp [contents]
  | cons l ls ih =>
    obtain ⟨sign, content, single⟩ := l
    rw [foldl_cons, ih]
    cases sign <;> simp [HunkContent.add, contents]

lemma Chunk.told_hunk {k : Chunk} (h : ∀ l ∈ k.lines, l.Plain) : k.hunk.told = k.told := by
  rw [Chunk.hunk, told_foldl h, foldl_add]
  rfl

/-! ## Files -/

namespace FileDiff

variable {f : FileDiff}

lemma mem_chunkRows {row : Row} (h : row ∈ f.chunks.flatMap Chunk.rows) :
    (∃ k ∈ f.chunks, row = k.header) ∨ ∃ l ∈ f.lines, row = l.row := by
  obtain ⟨k, hk, hrow⟩ := mem_flatMap.mp h
  rcases mem_cons.mp hrow with rfl | hrow
  · exact .inl ⟨k, hk, rfl⟩
  · obtain ⟨l, hl, rfl⟩ := mem_map.mp hrow
    exact .inr ⟨l, mem_flatMap.mpr ⟨k, hk, hl⟩, rfl⟩

lemma newline_notMem_rows (f : FileDiff) : ∀ row ∈ f.rows, '\n' ∉ row := by
  have hpath : '\n' ∉ f.path := f.blank_notMem (by decide)
  intro row hrow
  simp only [rows, body, mem_cons] at hrow
  rcases hrow with rfl | rfl | rfl | hrow
  · unfold heading
    simp [hpath]
  · simp [hpath]
  · simp [hpath]
  · rcases mem_chunkRows hrow with ⟨k, _, rfl⟩ | ⟨l, _, rfl⟩
    · exact fun h => absurd (Chunk.mem_header h) (by decide)
    · exact l.newline_notMem_row

section

variable (h : ∀ l ∈ f.lines, l.Plain)
include h

lemma headerIn?_body : ∀ row ∈ f.body, headerIn? row = none := by
  intro row hrow
  simp only [body, mem_cons] at hrow
  rcases hrow with rfl | rfl | hrow
  · exact f.headerIn?_side (by decide)
  · exact f.headerIn?_side (by decide)
  · rcases mem_chunkRows hrow with ⟨k, _, rfl⟩ | ⟨l, hl, rfl⟩
    · exact k.headerIn?_header
    · exact (h l hl).headerIn?

lemma startsWith_chunkRows {row : Row}
    (hrow : row ∈ f.chunks.flatMap Chunk.rows ++ [[]]) :
    startsWith "diff --git".toList row = false ∧ startsWith "+++".toList row = false := by
  rcases mem_append.mp hrow with hrow | hrow
  · rcases mem_chunkRows hrow with ⟨k, _, rfl⟩ | ⟨l, hl, rfl⟩
    · exact ⟨rfl, rfl⟩
    · have hplain := h l hl
      obtain ⟨sign, content, single⟩ := l
      cases sign with
      | added =>
        refine ⟨rfl, Bool.eq_false_iff.mpr fun hs => hplain.notPluses rfl ?_⟩
        exact isPrefixOf_iff_prefix.mp hs
      | removed => exact ⟨rfl, rfl⟩
      | kept => exact ⟨rfl, rfl⟩
  · rw [mem_singleton.mp hrow]
    exact ⟨rfl, rfl⟩

lemma path_of_rows :
    (((f.rows ++ [[]]).take 10).foldl FileHeader.read {}).path = some f.path := by
  have hold (g : FileHeader) : (g.read ("--- a/".toList ++ f.path)).path = g.path :=
    read_path rfl fun hs => by cases hs
  have hrows : (f.rows ++ [[]]).take 10 = f.heading :: ("--- a/".toList ++ f.path) ::
      ("+++ b/".toList ++ f.path) :: (f.chunks.flatMap Chunk.rows ++ [[]]).take 7 := rfl
  rw [hrows, foldl_cons, foldl_cons, foldl_cons, foldl_read_path]
  · exact f.read_newSide (by rw [hold, f.read_heading])
  · exact fun row hrow => (startsWith_chunkRows h (mem_of_mem_take hrow)).1
  · exact fun row hrow => (startsWith_chunkRows h (mem_of_mem_take hrow)).2

lemma told_hunks : (hunks (f.rows ++ [[]])).map Hunk.told = f.chunks.map Chunk.told := by
  have hrows : f.rows ++ [[]] = f.heading :: ("--- a/".toList ++ f.path) ::
      ("+++ b/".toList ++ f.path) :: (f.chunks.flatMap Chunk.rows ++ [[]]) := rfl
  rw [hunks, hrows, hunksFrom_other rfl, hunksFrom_other rfl, hunksFrom_other rfl, Option.map_none,
    Option.map_none, Option.map_none, hunksFrom_chunks, Option.toList_none, nil_append,
    map_map]
  refine map_congr_left fun k hk => Chunk.told_hunk fun l hl => h l ?_
  exact mem_flatMap.mpr ⟨k, hk, hl⟩

/-- A file with plain lines is read as it was written, but not if it has no name. -/
lemma told_filePatch? :
    (filePatch? (written f.rows)).map FilePatch.told =
      if f.path = [] then none else some f.told := by
  have hrows : Text.rows (written f.rows) = f.rows ++ [[]] :=
    rows_flatMap f.newline_notMem_rows
  have hpath := path_of_rows h
  have hhas : hasPath (some f.path) = true ↔ f.path ≠ [] := by simp [hasPath]
  simp only [filePatch?, hrows, fileHeader?, hpath]
  by_cases hempty : f.path = []
  · rw [if_neg (fun hp => hhas.mp hp hempty), if_pos hempty]
    rfl
  · rw [if_pos (hhas.mpr hempty), if_neg hempty]
    simp [FilePatch.told, told, hpath, told_hunks h]

end

end FileDiff

/-! ## Diffs -/

/-- Each file is a part of its own. -/
lemma cutRows_rows {fs : List FileDiff} (h : ∀ f ∈ fs, ∀ l ∈ f.lines, l.Plain) :
    cutRows (fs.flatMap FileDiff.rows ++ [[]]) =
      ([], fs.map fun f => (f.heading ++ ['\n'], written f.body)) := by
  induction fs with
  | nil => rfl
  | cons f fs ih =>
    have hrest : fs.flatMap FileDiff.rows ++ [[]] ≠ [] := by simp
    have hbody := FileDiff.headerIn?_body (h f (.head _))
    rw [flatMap_cons, FileDiff.rows, append_assoc, cons_append,
      cutRows_header (by simp) f.namesFile_heading, cutRows_append hrest hbody,
      ih fun g hg => h g (.tail _ hg), append_nil, map_cons]
    rfl

lemma newline_notMem_flatMap (fs : List FileDiff) :
    ∀ row ∈ fs.flatMap FileDiff.rows, '\n' ∉ row := by
  intro row hrow
  obtain ⟨f, _, hrow⟩ := mem_flatMap.mp hrow
  exact f.newline_notMem_rows row hrow

lemma rows_render (fs : List FileDiff) :
    Text.rows (render fs) = fs.flatMap FileDiff.rows ++ [[]] :=
  rows_flatMap (newline_notMem_flatMap fs)

lemma opensFile_render (f : FileDiff) (fs : List FileDiff) : OpensFile (render (f :: fs)) :=
  ⟨f.heading, by rw [rows_render]; rfl, f.namesFile_heading⟩

lemma newline_mem_render (f : FileDiff) (fs : List FileDiff) : '\n' ∈ render (f :: fs) := by
  simp [render, written, FileDiff.rows]

lemma told_parts {fs : List FileDiff} (h : ∀ f ∈ fs, ∀ l ∈ f.lines, l.Plain) :
    ((fs.map fun f => written f.rows).filterMap filePatch?).map FilePatch.told =
      (fs.filter fun f => f.path ≠ []).map FileDiff.told := by
  induction fs with
  | nil => rfl
  | cons f fs ih =>
    have hf := FileDiff.told_filePatch? (h f (.head _))
    have ih := ih fun g hg => h g (.tail _ hg)
    rw [map_cons]
    by_cases hempty : f.path = []
    · rw [if_pos hempty, Option.map_eq_none_iff] at hf
      rw [filterMap_cons_none hf, filter_cons_of_neg (by simpa using hempty), ih]
    · rw [if_neg hempty] at hf
      obtain ⟨p, hp, htold⟩ := Option.map_eq_some_iff.mp hf
      rw [filterMap_cons_some hp, filter_cons_of_pos (by simpa using hempty),
        map_cons, map_cons, ih, htold]

/-- The files that are read are those that were written and have a name. -/
lemma told_parse_render {fs : List FileDiff} (h : ∀ f ∈ fs, ∀ l ∈ f.lines, l.Plain) :
    (parse (render fs)).files.map FilePatch.told =
      (fs.filter fun f => f.path ≠ []).map FileDiff.told := by
  cases fs with
  | nil => rfl
  | cons f fs =>
    have hparts : fileParts (render (f :: fs)) = (f :: fs).map fun f => written f.rows := by
      rw [fileParts_eq_pieces (opensFile_render f fs) (newline_mem_render f fs), pieces,
        rows_render, cutRows_rows h, map_map]
      refine map_congr_left fun g _ => ?_
      simp [FileDiff.rows, written]
    rw [files_of_opens (opensFile_render f fs), hparts, told_parts h]

end Diff

end ReviewDesk
