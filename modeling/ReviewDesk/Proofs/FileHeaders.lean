import Mathlib.Data.List.Basic
import Mathlib.Data.List.TakeWhile
import ReviewDesk.Proofs.HunkLines

/-!
# What the rows of a file's heading say

Ten rows are read for a heading, however long it is. So the rows of hunks after a shorter one are
read too, and it decides alone only if none of them tells anything.

The row `diff --git a/old b/new` is read as it stands. From the rows `--- a/old` and `+++ b/new` all
leading slashes and letters of their side are taken off, so they agree with it only if neither path
begins with one.
-/

namespace ReviewDesk

open List Text

namespace Text

lemma length_trim_le (cs : Chars) : (trim cs).length ≤ cs.length := by
  have hstart := (dropWhile_suffix (l := cs) isBlank).length_le
  have hend := (dropWhile_suffix (l := (trimStart cs).reverse) isBlank).length_le
  rw [trim, trimEnd, length_reverse]
  rw [length_reverse] at hend
  exact hend.trans hstart

lemma solid_of_all {s : Chars} (h : s.all (!isBlank ·) = true) : ∀ c ∈ s, isBlank c = false := by
  simpa using h

end Text

namespace Diff

variable {f new old p path row : Row} {h : FileHeader} {rows : List Row} {side : Char} {n : Nat}

/-! ## Rows that tell something -/

/-- The row says something about a file: which two it is, that it is new, deleted or binary, how its
contents are called, or what one of its sides is. A row `diff --git` without two paths says nothing,
whatever else it holds. -/
def tells (row : Row) : Bool :=
  let begins (p : String) : Bool := startsWith p.toList row
  if begins "diff --git" then (gitPaths? row).isSome
  else begins "new file mode" || begins "deleted file mode" ||
    (occurs "Binary files".toList row && occurs "differ".toList row) ||
    (indexHashes? row).isSome || (begins "---" && (sidePath? 'a' row).isSome) ||
    (begins "+++" && (sidePath? 'b' row).isSome)

lemma tells_eq (hdiff : ¬startsWith "diff --git".toList row = true) :
    tells row = (startsWith "new file mode".toList row ||
      startsWith "deleted file mode".toList row ||
      (occurs "Binary files".toList row && occurs "differ".toList row) ||
      (indexHashes? row).isSome || (startsWith "---".toList row && (sidePath? 'a' row).isSome) ||
      (startsWith "+++".toList row && (sidePath? 'b' row).isSome)) :=
  if_neg hdiff

lemma startsWith_eq_false {q : Row} (hp : startsWith p row = true)
    (hpq : ∀ r, startsWith q (p ++ r) = false) : startsWith q row = false := by
  obtain ⟨r, rfl⟩ := isPrefixOf_iff_prefix.mp hp
  exact hpq r

lemma indexHashes?_eq_none (h : ¬startsWith "index".toList row = true) :
    indexHashes? row = none := by
  have hafter : after? "index " row = none := by
    refine if_neg fun hstarts => h (List.isPrefixOf_iff_prefix.mpr ?_)
    have hindex : "index".toList <+: "index ".toList := by decide
    exact hindex.trans (List.isPrefixOf_iff_prefix.mp hstarts)
  unfold indexHashes?
  rw [hafter]
  rfl

/-- All that reading a row can do to a header. -/
lemma FileHeader.read_elim {P : FileHeader → Prop} (silent : tells row = false → P h)
    (files : tells row = true → ∀ old new, gitPaths? row = some (old, new) →
      P { h with oldFile := some old, newFile := some new, path := some new })
    (created : tells row = true → P { h with change := .added, mode := lastWord row })
    (deleted : tells row = true → P { h with change := .removed, mode := lastWord row })
    (binary : tells row = true → P { h with isBinary := true })
    (hashed : tells row = true → ∀ hashes, P { h with hashes := some hashes })
    (oldSide : tells row = true → ∀ old, sidePath? 'a' row = some old →
      P { h with oldFile := some old })
    (newSide : tells row = true → ∀ new, sidePath? 'b' row = some new →
      P { h with newFile := some new, path := if hasPath h.path then h.path else some new }) :
    P (h.read row) := by
  unfold FileHeader.read
  dsimp only
  refine iteInduction (motive := P) (fun hdiff => ?_) fun hdiff => ?_
  · have htells : tells row = (gitPaths? row).isSome := if_pos hdiff
    cases hpaths : gitPaths? row with
    | none => exact silent (by rw [htells, hpaths]; rfl)
    | some paths => exact files (by rw [htells, hpaths]; rfl) _ _ hpaths
  have htells := tells_eq hdiff
  refine iteInduction (motive := P) (fun hnew => created ?_) fun hnew => ?_
  · simp only [htells, hnew, Bool.true_or]
  refine iteInduction (motive := P) (fun hdeleted => deleted ?_) fun hdeleted => ?_
  · simp only [htells, hdeleted, Bool.true_or, Bool.or_true]
  refine iteInduction (motive := P) (fun hbinary => binary ?_) fun hbinary => ?_
  · simp only [htells, hbinary, Bool.true_or, Bool.or_true]
  rw [Bool.not_eq_true] at hnew hdeleted hbinary
  rw [hnew, hdeleted, hbinary, Bool.false_or, Bool.false_or, Bool.false_or] at htells
  refine iteInduction (motive := P) (fun hindex => ?_) fun hindex => ?_
  · have hold := startsWith_eq_false (q := "---".toList) hindex fun _ => rfl
    have hnew := startsWith_eq_false (q := "+++".toList) hindex fun _ => rfl
    cases hhashes : indexHashes? row with
    | none => exact silent (by rw [htells, hhashes, hold, hnew]; rfl)
    | some hashes => exact hashed (by rw [htells, hhashes]; rfl) hashes
  rw [indexHashes?_eq_none hindex, Option.isSome_none, Bool.false_or] at htells
  refine iteInduction (motive := P) (fun hold => ?_) fun hold => ?_
  · have hnew := startsWith_eq_false (q := "+++".toList) hold fun _ => rfl
    cases hpath : sidePath? 'a' row with
    | none => exact silent (by rw [htells, hpath, hnew, hold]; rfl)
    | some old => exact oldSide (by rw [htells, hpath, hold]; rfl) old hpath
  rw [Bool.not_eq_true] at hold
  rw [hold, Bool.false_and, Bool.false_or] at htells
  refine iteInduction (motive := P) (fun hnew => ?_) fun hnew => ?_
  · cases hpath : sidePath? 'b' row with
    | none => exact silent (by rw [htells, hpath, hnew]; rfl)
    | some new => exact newSide (by rw [htells, hpath, hnew]; rfl) new hpath
  · rw [Bool.not_eq_true] at hnew
    exact silent (by rw [htells, hnew]; rfl)

/-! ## Rows after a heading -/

lemma foldl_read_of_silent (hrows : ∀ row ∈ rows, tells row = false)
    (h : FileHeader) : rows.foldl FileHeader.read h = h := by
  induction rows with
  | nil => rfl
  | cons row rows ih =>
    have hsilent := hrows row (.head _)
    have hread : h.read row = h := by
      refine FileHeader.read_elim (P := (· = h)) (fun _ => rfl) ?_ ?_ ?_ ?_ ?_ ?_ ?_ <;>
        exact fun htells => absurd htells (Bool.eq_false_iff.mp hsilent)
    rw [foldl_cons, hread, ih fun r hr => hrows r (.tail _ hr)]

lemma length_le_of_gitPaths? (h : gitPaths? row = some (old, new)) : old.length ≤ row.length := by
  simp only [gitPaths?, Option.bind_eq_bind, Option.bind_eq_some_iff] at h
  obtain ⟨r, hr, hcut⟩ := h
  have hrow := congrArg List.length (after?_eq_some hr)
  have hline := congrArg List.length (cutAt?_eq_some hcut)
  have hle := (List.takeWhile_prefix (p := (· != '\n')) (l := r)).length_le
  simp only [length_append] at hrow hline
  omega

lemma length_le_of_sidePath? (h : sidePath? side row = some path) : path.length ≤ row.length := by
  simp only [sidePath?] at h
  split at h
  · cases h
  · cases h
    have hstrip := (dropWhile_suffix (l := trim (row.drop 4))
      fun c => decide (c = side) || decide (c = '/')).length_le
    have htrim := length_trim_le (row.drop 4)
    rw [length_drop] at htrim
    omega

/-- Something is told that is not in a header which names the file `f` and nothing else. -/
def FileHeader.Beyond (h : FileHeader) (f : Row) : Prop :=
  h.change ≠ .modified ∨ h.isBinary = true ∨ h.hashes.isSome = true ∨ h.oldFile ≠ some f ∨
    h.newFile ≠ some f

lemma ne_of_shorter (h : p.length < f.length) : some p ≠ some f := by
  rintro ⟨⟩
  exact Nat.lt_irrefl _ h

/-- What a row shorter than the name `f` tells cannot be taken back by another one. -/
lemma beyond_read (hrow : row.length < f.length)
    (htold : tells row = true ∨ h.Beyond f) : (h.read row).Beyond f := by
  refine FileHeader.read_elim (P := (·.Beyond f)) (fun hsilent => ?_) ?_ ?_ ?_ ?_ ?_ ?_ ?_
  · exact htold.resolve_left (by simp [hsilent])
  · intro _ old new hpaths
    have hle := length_le_of_gitPaths? hpaths
    exact .inr (.inr (.inr (.inl (ne_of_shorter (Nat.lt_of_le_of_lt hle hrow)))))
  · exact fun _ => .inl (by simp)
  · exact fun _ => .inl (by simp)
  · exact fun _ => .inr (.inl rfl)
  · exact fun _ _ => .inr (.inr (.inl rfl))
  · intro _ old hpath
    have hle := length_le_of_sidePath? hpath
    exact .inr (.inr (.inr (.inl (ne_of_shorter (Nat.lt_of_le_of_lt hle hrow)))))
  · intro _ new hpath
    have hle := length_le_of_sidePath? hpath
    exact .inr (.inr (.inr (.inr (ne_of_shorter (Nat.lt_of_le_of_lt hle hrow)))))

lemma beyond_foldl (hrows : ∀ row ∈ rows, row.length < f.length)
    (htold : (∃ row ∈ rows, tells row = true) ∨ h.Beyond f) :
    (rows.foldl FileHeader.read h).Beyond f := by
  induction rows generalizing h with
  | nil => exact htold.resolve_left (by simp)
  | cons row rows ih =>
    have hlater : ∀ r ∈ rows, r.length < f.length := fun r hr => hrows r (.tail _ hr)
    rw [foldl_cons]
    refine ih hlater ?_
    rcases htold with ⟨r, hr, htells⟩ | hbeyond
    · rcases mem_cons.mp hr with rfl | hr
      · exact .inr (beyond_read (hrows r (.head _)) (.inl htells))
      · exact .inl ⟨r, hr, htells⟩
    · exact .inr (beyond_read (hrows row (.head _)) (.inr hbeyond))

/-- A row `diff --git` that names two files. -/
def gitRow (old new : Row) : Row := "diff --git a/".toList ++ (old ++ " b/".toList ++ new)

lemma read_gitRow (hold : ∀ c ∈ old, isBlank c = false)
    (hnew : ∀ c ∈ new, isBlank c = false) (h : FileHeader) : h.read (gitRow old new) =
      { h with oldFile := some old, newFile := some new, path := some new } := by
  have hstarts : startsWith "diff --git".toList (gitRow old new) = true := rfl
  have hpaths : gitPaths? (gitRow old new) = some (old, new) := gitPaths?_of_solid hold hnew
  unfold FileHeader.read
  simp only [hstarts, ↓reduceIte, hpaths]

def FileHeader.named? (h : FileHeader) : Option FileHeader := if hasPath h.path then some h else none

def headerOfTen (rows : List Row) : FileHeader := (rows.take 10).foldl FileHeader.read {}

lemma fileHeader?_append (heading body : List Row) : fileHeader? (heading ++ body) =
      ((body.take (10 - heading.length)).foldl FileHeader.read (headerOfTen heading)).named? := by
  have hrows : fileHeader? (heading ++ body) = (headerOfTen (heading ++ body)).named? := rfl
  rw [hrows, headerOfTen, take_append, foldl_append]
  rfl

def bareHeading (f : Row) (n : Nat) : List Row := gitRow f f :: List.replicate (n - 1) []

lemma length_bareHeading (f : Row) (hn : 0 < n) : (bareHeading f n).length = n := by
  rw [bareHeading, length_cons, length_replicate]
  omega

lemma headerOfTen_bareHeading (hf : ∀ c ∈ f, isBlank c = false) (n : Nat) :
    headerOfTen (bareHeading f n) = { path := some f, oldFile := some f, newFile := some f } := by
  have hsilent : ∀ row ∈ (List.replicate (n - 1) ([] : Row)).take 9, tells row = false := by
    intro row hrow
    rw [eq_of_mem_replicate (mem_of_mem_take hrow)]
    decide
  rw [headerOfTen, bareHeading, take_succ_cons, foldl_cons, foldl_read_of_silent hsilent,
    read_gitRow hf hf]

lemma eq_of_named? {g : FileHeader} (hg : g.named? = some h) : g = h := by
  unfold FileHeader.named? at hg
  split at hg
  · exact Option.some.inj hg
  · cases hg

/-- A heading that names a file whose name is longer than the rows after it does not decide alone if
one of them tells something. -/
lemma bareHeading_undecided {body : List Row} (hf : ∀ c ∈ f, isBlank c = false) (hn : 0 < n)
    (hlong : ∀ row ∈ body.take (10 - n), row.length < f.length)
    (htells : ∃ row ∈ body.take (10 - n), tells row = true) :
    fileHeader? (bareHeading f n ++ body) ≠ fileHeader? (bareHeading f n) := by
  have hnotEmpty : f ≠ [] := by
    obtain ⟨row, hrow, _⟩ := htells
    exact ne_nil_of_length_pos (Nat.zero_lt_of_lt (hlong row hrow))
  have hnamed : fileHeader? (bareHeading f n) =
      some { path := some f, oldFile := some f, newFile := some f } := by
    have hpath : hasPath (some f) = true := by simp [hasPath, hnotEmpty]
    rw [← headerOfTen_bareHeading hf n]
    exact if_pos (by rw [← headerOfTen, headerOfTen_bareHeading hf, hpath])
  rw [fileHeader?_append, hnamed, length_bareHeading f hn, headerOfTen_bareHeading hf]
  intro heq
  have hbeyond := beyond_foldl hlong
    (h := { path := some f, oldFile := some f, newFile := some f }) (.inl htells)
  rw [eq_of_named? heq] at hbeyond
  simp [FileHeader.Beyond] at hbeyond

/-- Headings of `n` rows decide alone, whatever follows them in `body`, exactly if none of the rows
that are still read after them tells anything. Without a heading, the body must not name a file. -/
theorem heading_decides_iff (n : Nat) (body : List Row) :
    (∀ heading : List Row, heading.length = n → (∀ row ∈ heading, beginsHunk row = false) →
        fileHeader? (heading ++ body) = fileHeader? heading) ↔
      (0 < n → ∀ row ∈ body.take (10 - n), tells row = false) ∧
        (n = 0 → fileHeader? body = none) := by
  constructor
  · intro hdecides
    refine ⟨fun hn row hrow => Bool.eq_false_iff.mpr fun htells => ?_, ?_⟩
    · -- the name is longer than all rows that are read
      have hlong : ∀ r ∈ body.take (10 - n),
          r.length < (List.replicate ((body.take (10 - n)).flatten.length + 1) 'f').length := by
        intro r hr
        rw [length_replicate]
        exact Nat.lt_succ_of_le (sublist_flatten_of_mem hr).length_le
      have hsolid : ∀ c ∈ List.replicate ((body.take (10 - n)).flatten.length + 1) 'f',
          Text.isBlank c = false := by
        intro c hc
        rw [eq_of_mem_replicate hc]
        decide
      refine bareHeading_undecided hsolid hn hlong ⟨row, hrow, htells⟩
        (hdecides _ (length_bareHeading _ hn) fun r hr => ?_)
      rcases mem_cons.mp hr with rfl | hr
      · rfl
      · rw [eq_of_mem_replicate hr]
        rfl
    · rintro rfl
      exact hdecides [] rfl (by simp)
  · rintro ⟨hsilent, hempty⟩ heading rfl _
    rcases Nat.eq_zero_or_pos heading.length with hzero | hpos
    · rw [eq_nil_of_length_eq_zero hzero] at hempty ⊢
      exact hempty rfl
    · rw [fileHeader?_append, foldl_read_of_silent (hsilent hpos)]
      rfl

/-- After a heading of two rows, an added line makes a file binary. -/
theorem comment_taken_for_binary :
    ((fileHeader? ["--- a/f".toList, "+++ b/f".toList]).map (·.isBinary) = some false ∧
        (fileHeader? (["--- a/f".toList, "+++ b/f".toList] ++
          ["@@ -1 +1,2 @@".toList, "+# Binary files differ".toList])).map (·.isBinary) =
            some true) ∧
      ¬∀ heading : List Row, heading.length = 2 → (∀ row ∈ heading, beginsHunk row = false) →
        fileHeader? (heading ++ ["@@ -1 +1,2 @@".toList, "+# Binary files differ".toList]) =
          fileHeader? heading := by
  refine ⟨by decide +kernel, fun hdecides => ?_⟩
  have hsilent := ((heading_decides_iff 2 _).mp hdecides).1 (by decide)
  have htells : tells "+# Binary files differ".toList = false := hsilent _ (by decide +kernel)
  exact absurd htells (by decide +kernel)

/-! ## Rows for the two sides -/

def oldRow (path : Row) : Row := "--- a/".toList ++ path

def newRow (path : Row) : Row := "+++ b/".toList ++ path

def stripped (side : Char) (path : Row) : Row := path.dropWhile fun c => c = side || c = '/'

lemma stripped_eq_self_iff : stripped side path = path ↔ ∀ c ∈ path.head?, c ≠ side ∧ c ≠ '/' := by
  rw [stripped, dropWhile_eq_self_iff]
  cases path <;> simp

lemma not_binary {mark : Row} (hmark : ' ' ∉ mark) (hletter : 'B' ∉ mark)
    (hpath : ∀ c ∈ path, isBlank c = false) :
    occurs "Binary files".toList (mark ++ ' ' :: path) = false := by
  have hblank : ' ' ∉ path := fun h => absurd (hpath _ h) (by decide)
  refine Bool.eq_false_iff.mpr fun hoccurs => ?_
  obtain ⟨a, b, hab⟩ := occurs_iff.mp hoccurs
  have hwords : a ++ "Binary files".toList ++ b =
      (a ++ "Binary".toList) ++ ' ' :: ("files".toList ++ b) := by
    simp
  rw [hwords] at hab
  have hmark : mark = a ++ "Binary".toList :=
    ((append_cons_inj_of_notMem hmark hblank).mp hab).1
  exact hletter (hmark ▸ mem_append_right a (by decide))

def sideRow (mark side : Char) (path : Row) : Row := [mark, mark, mark] ++ ' ' :: side :: '/' :: path

/-- A row for a side is none of the other rows of a heading, and all that stands after its mark is
the path, up to the letters that are taken off. -/
structure IsSide (side : Char) (path row : Row) : Prop where
  notGit : startsWith "diff --git".toList row = false
  notCreated : startsWith "new file mode".toList row = false
  notDeleted : startsWith "deleted file mode".toList row = false
  notBinary : occurs "Binary files".toList row = false
  notIndex : startsWith "index".toList row = false
  sidePath : sidePath? side row = some (stripped side path)

lemma isSide_sideRow {mark : Char} (hmark : mark = '-' ∨ mark = '+')
    (hside : side = 'a' ∨ side = 'b') (hpath : ∀ c ∈ path, isBlank c = false) :
    IsSide side path (sideRow mark side path) := by
  have hsolid : ∀ c ∈ side :: '/' :: path, isBlank c = false := by
    rw [forall_mem_cons, forall_mem_cons]
    exact ⟨by rcases hside with rfl | rfl <;> decide, by decide, hpath⟩
  have hdrop : (sideRow mark side path).drop 4 = side :: '/' :: path := rfl
  constructor
  · rcases hmark with rfl | rfl <;> rfl
  · rcases hmark with rfl | rfl <;> rfl
  · rcases hmark with rfl | rfl <;> rfl
  · refine not_binary ?_ ?_ hsolid <;> rcases hmark with rfl | rfl <;> decide
  · rcases hmark with rfl | rfl <;> rfl
  · unfold sidePath?
    rw [hdrop, trim_eq_self hsolid]
    simp [stripped]

lemma read_oldRow (hpath : ∀ c ∈ path, isBlank c = false) (h : FileHeader) :
    h.read (oldRow path) = { h with oldFile := some (stripped 'a' path) } := by
  have hside : IsSide 'a' path (oldRow path) := isSide_sideRow (.inl rfl) (.inl rfl) hpath
  have hmark : startsWith "---".toList (oldRow path) = true := rfl
  unfold FileHeader.read
  simp only [hside.notGit, hside.notCreated, hside.notDeleted, hside.notBinary, hside.notIndex,
    hmark, hside.sidePath, Bool.false_and, Bool.false_eq_true, ↓reduceIte]

lemma read_newRow (hpath : ∀ c ∈ path, isBlank c = false) (h : FileHeader) :
    h.read (newRow path) =
      { h with newFile := some (stripped 'b' path),
               path := if hasPath h.path then h.path else some (stripped 'b' path) } := by
  have hside : IsSide 'b' path (newRow path) := isSide_sideRow (.inr rfl) (.inr rfl) hpath
  have hold : startsWith "---".toList (newRow path) = false := rfl
  have hmark : startsWith "+++".toList (newRow path) = true := rfl
  unfold FileHeader.read
  simp only [hside.notGit, hside.notCreated, hside.notDeleted, hside.notBinary, hside.notIndex,
    hold, hmark, hside.sidePath, Bool.false_and, Bool.false_eq_true, ↓reduceIte]

/-! ## Naming two files -/

/-- The rows give a header with these two files, the new one being the file it is about. -/
def Names (rows : List Row) (old new : Row) : Prop :=
  ∃ h, fileHeader? rows = some h ∧ h.oldFile = some old ∧ h.newFile = some new ∧ h.path = some new

section

variable {p q : Row} (hp : ∀ c ∈ p, isBlank c = false) (hq : ∀ c ∈ q, isBlank c = false)

include hp hq

/-- With the first row the file is known, but the sides are overwritten. -/
lemma fileHeader?_git (hnamed : q ≠ []) : fileHeader? [gitRow p q, oldRow p, newRow q] = some
      { path := some q, oldFile := some (stripped 'a' p), newFile := some (stripped 'b' q) } := by
  have hpath : hasPath (some q) = true := by simp [hasPath, hnamed]
  have hrows : fileHeader? [gitRow p q, oldRow p, newRow q] =
      (((({} : FileHeader).read (gitRow p q)).read (oldRow p)).read (newRow q)).named? := rfl
  rw [hrows, read_gitRow hp hq, read_oldRow hp, read_newRow hq, if_pos hpath]
  exact if_pos hpath

/-- Without it the file is what is left of the new side. -/
lemma fileHeader?_sides : fileHeader? [oldRow p, newRow q] = FileHeader.named?
      { path := some (stripped 'b' q), oldFile := some (stripped 'a' p),
        newFile := some (stripped 'b' q) } := by
  have hrows : fileHeader? [oldRow p, newRow q] =
      ((({} : FileHeader).read (oldRow p)).read (newRow q)).named? := rfl
  rw [hrows, read_oldRow hp, read_newRow hq]
  rfl

/-- The three rows of a heading, and the last two alone, name the files `p` and `q` exactly if `p`
begins neither with `a` nor with a slash and `q` neither with `b` nor with a slash. -/
theorem names_iff_kept (hnamed : q ≠ []) : (Names [gitRow p q, oldRow p, newRow q] p q ↔
        (∀ c ∈ p.head?, c ≠ 'a' ∧ c ≠ '/') ∧ ∀ c ∈ q.head?, c ≠ 'b' ∧ c ≠ '/') ∧
      (Names [oldRow p, newRow q] p q ↔
        (∀ c ∈ p.head?, c ≠ 'a' ∧ c ≠ '/') ∧ ∀ c ∈ q.head?, c ≠ 'b' ∧ c ≠ '/') := by
  rw [← stripped_eq_self_iff, ← stripped_eq_self_iff]
  constructor
  · unfold Names
    rw [fileHeader?_git hp hq hnamed]
    simp
  · unfold Names
    rw [fileHeader?_sides hp hq]
    constructor
    · rintro ⟨h, hh, hold, hnew, _⟩
      rw [← eq_of_named? hh] at hold hnew
      exact ⟨Option.some.inj hold, Option.some.inj hnew⟩
    · rintro ⟨hold, hnew⟩
      have hpath : hasPath (some q) = true := by simp [hasPath, hnamed]
      rw [hold, hnew]
      exact ⟨_, if_pos hpath, rfl, rfl, rfl⟩

end

/-- A path that begins with `a` loses its first letter, and one that does not is kept. -/
theorem app_loses_letter :
    (fileHeader? [gitRow "app.py".toList "app.py".toList, oldRow "app.py".toList,
        newRow "app.py".toList]).map (·.oldFile) = some (some "pp.py".toList) ∧
      ¬Names [gitRow "app.py".toList "app.py".toList, oldRow "app.py".toList,
        newRow "app.py".toList] "app.py".toList "app.py".toList ∧
      Names [oldRow "src.py".toList, newRow "src.py".toList] "src.py".toList "src.py".toList := by
  have happ := Text.solid_of_all (s := "app.py".toList) (by decide)
  have hsrc := Text.solid_of_all (s := "src.py".toList) (by decide)
  refine ⟨by decide +kernel, fun hnames => ?_, ?_⟩
  · exact (((names_iff_kept happ happ (by decide)).1.mp hnames).1 'a' rfl).1 rfl
  · exact (names_iff_kept hsrc hsrc (by decide)).2.mpr (by simp)

end Diff

end ReviewDesk
