import Mathlib.Data.Fintype.Pigeonhole
import ReviewDesk.Git.Basic
import ReviewDesk.Proofs.Unified

/-!
# Folders of a workspace

Every address has a folder directly below the workspace. A folder keeps what was cloned into it
first, so repositories whose addresses share a folder are served from the clone of one of them.
-/

namespace ReviewDesk

open List

variable {names : List String} {t : Tree} {remote : Remote} {r : Request}

/-!
## What can be read from the folder of a repository

A file is read by a path below the folder of its repository. Nothing keeps that path inside, so a
file that can be read at all can be read from every repository.
-/

namespace Text

variable {c : Char} {w : Chars}

lemma splitFrom_append (hw : c ∉ w) (piece rest : Chars) :
    splitFrom [c] 0 piece (w ++ rest) = splitFrom [c] 0 (w.reverse ++ piece) rest := by
  induction w generalizing piece with
  | nil => rfl
  | cons a w ih =>
    obtain ⟨ha, hw⟩ := not_or.mp (mt mem_cons.mpr hw)
    rw [cons_append, splitFrom, if_neg (by simp [ha]), ih hw, reverse_cons,
      append_assoc, singleton_append]

lemma splitAtText_of_notMem (hw : c ∉ w) : splitAtText [c] w = [w] := by
  have h := splitFrom_append hw [] []
  simp only [append_nil] at h
  rw [splitAtText, h, splitFrom, reverse_reverse]

lemma splitAtText_append_cons (hw : c ∉ w) (rest : Chars) :
    splitAtText [c] (w ++ c :: rest) = w :: splitAtText [c] rest := by
  rw [splitAtText, splitFrom_append hw, append_nil, splitFrom, if_pos (by simp),
    reverse_reverse]
  rfl

end Text

/-! ## Reading a path back -/

namespace Path

/-- What can stand between two slashes of a path: a name, or two dots. -/
structure Step (n : String) : Prop where
  nonempty : n ≠ ""
  notDot : n ≠ "."
  noSlash : '/' ∉ n.toList

instance (n : String) : Decidable (Step n) :=
  decidable_of_iff (n ≠ "" ∧ n ≠ "." ∧ '/' ∉ n.toList)
    ⟨fun h => ⟨h.1, h.2.1, h.2.2⟩, fun h => ⟨h.nonempty, h.notDot, h.noSlash⟩⟩

structure Name (n : String) : Prop extends Step n where
  down : n ≠ ".."

instance (n : String) : Decidable (Name n) :=
  decidable_of_iff (Step n ∧ n ≠ "..") ⟨fun h => ⟨h.1, h.2⟩, fun h => ⟨h.toStep, h.down⟩⟩

lemma splitAtText_names (h : ∀ n ∈ names, Step n) (hne : names ≠ []) :
    Text.splitAtText ['/'] ("/".intercalate names).toList = names.map String.toList := by
  induction names with
  | nil => exact absurd rfl hne
  | cons n names ih =>
    have hn := (h n (.head _)).noSlash
    cases names with
    | nil =>
      rw [String.intercalate_singleton]
      exact Text.splitAtText_of_notMem hn
    | cons m names =>
      rw [String.intercalate_cons_of_ne_nil (cons_ne_nil m names), String.toList_append,
        String.toList_append, append_assoc]
      show Text.splitAtText ['/'] (n.toList ++ '/' :: ("/".intercalate (m :: names)).toList) = _
      rw [Text.splitAtText_append_cons hn,
        ih (fun k hk => h k (.tail _ hk)) (cons_ne_nil m names)]
      rfl

/-- The names of a path are what stands between the slashes of a text, but for empty names and
single dots. -/
lemma names_ofText (s : String) : (ofText s).names =
      ((Text.splitAtText ['/'] s.toList).map String.ofList).filter fun p => p != "" && p != "." :=
  rfl

lemma names_ofText_slash (s : String) : (ofText ("/" ++ s)).names = (ofText s).names := by
  have hsplit : Text.splitAtText ['/'] ("/" ++ s).toList = [] :: Text.splitAtText ['/'] s.toList := by
    rw [String.toList_append]
    exact Text.splitAtText_append_cons not_mem_nil s.toList
  rw [names_ofText, names_ofText, hsplit, map_cons, filter_cons_of_neg (by simp)]

lemma names_ofText_intercalate (h : ∀ n ∈ names, Step n) :
    (ofText ("/".intercalate names)).names = names := by
  cases names with
  | nil => rfl
  | cons n names =>
    rw [names_ofText, splitAtText_names h (cons_ne_nil n names), map_map]
    have hsame : String.ofList ∘ String.toList = id := funext fun _ => String.ofList_toList
    rw [hsame, map_id, filter_eq_self]
    intro k hk
    simp [(h k hk).nonempty, (h k hk).notDot]

lemma takeWhile_slash (h : ∀ n ∈ names, Step n) :
    ("/".intercalate names).toList.takeWhile (· = '/') = [] := by
  cases names with
  | nil => rfl
  | cons n names =>
    have hn := h n (.head _)
    obtain ⟨rest, hrest⟩ : ∃ rest, ("/".intercalate (n :: names)).toList = n.toList ++ rest := by
      cases names with
      | nil => exact ⟨[], by rw [String.intercalate_singleton, append_nil]⟩
      | cons m names =>
        rw [String.intercalate_cons_of_ne_nil (cons_ne_nil m names), String.append_assoc,
          String.toList_append]
        exact ⟨_, rfl⟩
    rw [hrest]
    cases hcs : n.toList with
    | nil => exact absurd (String.toList_eq_nil_iff.mp hcs) hn.nonempty
    | cons c cs =>
      have hc : c ≠ '/' := fun hc => hn.noSlash (by simp [hcs, hc])
      rw [cons_append, takeWhile_cons_of_neg (by simpa using hc)]

lemma ofText_eq (s : String) : ofText s = ⟨rootOf s, (ofText s).names⟩ := rfl

lemma ofText_relative (h : ∀ n ∈ names, Step n) : ofText (text ⟨"", names⟩) = ⟨"", names⟩ := by
  cases names with
  | nil => rfl
  | cons n names =>
    have htext : text ⟨"", n :: names⟩ = "/".intercalate (n :: names) := String.empty_append
    rw [htext, ofText_eq, names_ofText_intercalate h, rootOf, takeWhile_slash h]
    rfl

lemma ofText_of_step {n : String} (h : Step n) : ofText n = ⟨"", [n]⟩ := by
  have hread := ofText_relative (forall_mem_singleton.mpr h)
  have htext : text ⟨"", [n]⟩ = n := by
    show "" ++ "/".intercalate [n] = n
    rw [String.intercalate_singleton, String.empty_append]
  rwa [htext] at hread

lemma ofText_absolute (h : ∀ n ∈ names, Step n) : ofText (text ⟨"/", names⟩) = ⟨"/", names⟩ := by
  have htext : text ⟨"/", names⟩ = "/" ++ "/".intercalate names := rfl
  have hslash : ("/" ++ "/".intercalate names).toList.takeWhile (· = '/') = ['/'] := by
    rw [String.toList_append]
    show ('/' :: ("/".intercalate names).toList).takeWhile (· = '/') = ['/']
    rw [takeWhile_cons_of_pos (by simp), takeWhile_slash h]
  rw [htext, ofText_eq, names_ofText_slash, names_ofText_intercalate h, rootOf, hslash]
  rfl

end Path

/-! ## Following a path -/

namespace Path

lemma follow_up (here : List String) : follow here ".." = here.dropLast := if_pos rfl

lemma follow_down {n : String} (h : n ≠ "..") (here : List String) : follow here n = here ++ [n] :=
  if_neg h

lemma foldl_follow (h : ".." ∉ names) (here : List String) :
    names.foldl follow here = here ++ names := by
  induction names generalizing here with
  | nil => exact (append_nil here).symm
  | cons n names ih =>
    obtain ⟨hn, hnames⟩ := not_or.mp (mt mem_cons.mpr h)
    rw [foldl_cons, follow_down (Ne.symm hn), ih hnames, append_assoc,
      singleton_append]

lemma normal_join {root p : Path} (hroot : p.root = "") (h : ".." ∉ p.names) :
    (root.join p).normal = root.normal ++ p.names := by
  rw [join, if_pos hroot]
  show (root.names ++ p.names).foldl follow [] = _
  rw [foldl_append, foldl_follow h]
  rfl

end Path

/-! ## Walking through the files -/

namespace Tree

variable {here there : List String}
variable {bytes : List UInt8}

/-- Every file lies below folders that have names. -/
def Named (t : Tree) : Prop := ∀ e ∈ t.entries, ∀ n ∈ e.1, Path.Name n

instance (t : Tree) : Decidable t.Named :=
  inferInstanceAs (Decidable (∀ e ∈ t.entries, ∀ n ∈ e.1, Path.Name n))

lemma eq_foldl_of_walk (h : t.walk here names = some there) : there = names.foldl Path.follow here := by
  induction names generalizing here with
  | nil => exact (Option.some.inj h).symm
  | cons n names ih =>
    rw [walk] at h
    split at h
    · exact ih h
    · cases h

lemma walk_append (here names names' : List String) :
    t.walk here (names ++ names') = (t.walk here names).bind (t.walk · names') := by
  induction names generalizing here with
  | nil => rfl
  | cons n names ih =>
    rw [cons_append, walk, walk]
    split
    · exact ih _
    · rfl

lemma mem_of_file? (h : t.file? names = some bytes) : (names, .file bytes) ∈ t.entries := by
  unfold file? at h
  split at h
  · rename_i hlookup
    cases h
    obtain ⟨before, after, hentries, _⟩ := lookup_eq_some_iff.mp hlookup
    rw [hentries]
    exact mem_append_right _ (.head _)
  · cases h

lemma isFolder_of_mem {e : List String × Entry} (he : e ∈ t.entries) (hbelow : here <+: e.1)
    (hlength : here.length < e.1.length) : t.isFolder here = true := by
  refine Bool.or_eq_true_iff.mpr (.inr (any_eq_true.mpr ⟨e, he, ?_⟩))
  simp [List.isPrefixOf_iff_prefix.mpr hbelow, hlength]

lemma exists_of_isFolder (h : t.isFolder here = true) (hne : here ≠ []) :
    ∃ e ∈ t.entries, here <+: e.1 := by
  rcases Bool.or_eq_true_iff.mp h with h | h
  · exact absurd (isEmpty_iff.mp h) hne
  · obtain ⟨e, he, h⟩ := any_eq_true.mp h
    refine ⟨e, he, ?_⟩
    rcases Bool.or_eq_true_iff.mp h with h | h
    · exact isPrefixOf_iff_prefix.mp (Bool.and_eq_true_iff.mp h).1
    · have heq : e.1 = here := beq_iff_eq.mp (Bool.and_eq_true_iff.mp h).1
      exact heq ▸ prefix_rfl

lemma isFolder_dropLast (h : t.isFolder here = true) : t.isFolder here.dropLast = true := by
  by_cases hne : here = []
  · subst hne
    exact h
  · obtain ⟨e, he, hbelow⟩ := exists_of_isFolder h hne
    have habove : here.dropLast <+: here := dropLast_prefix here
    refine isFolder_of_mem he (habove.trans hbelow) ?_
    have hshort : here.dropLast.length < here.length := by
      have hpos := length_pos_iff.mpr hne
      rw [length_dropLast]
      omega
    exact Nat.lt_of_lt_of_le hshort hbelow.length_le

lemma walk_up {n : Nat} (h : t.isFolder here = true) (hn : here.length = n) :
    t.walk here (List.replicate n "..") = some [] := by
  induction n generalizing here with
  | zero => rw [length_eq_zero_iff.mp hn, replicate_zero, walk]
  | succ n ih =>
    rw [replicate_succ, walk, if_pos h, Path.follow_up]
    exact ih (isFolder_dropLast h) (by rw [length_dropLast, hn]; rfl)

lemma walk_below (h : t.file? (here ++ names) = some bytes)
    (hdown : ".." ∉ names) : t.walk here names = some (here ++ names) := by
  induction names generalizing here with
  | nil => rw [walk, append_nil]
  | cons n names ih =>
    obtain ⟨hn, hnames⟩ := not_or.mp (mt mem_cons.mpr hdown)
    have hfolder : t.isFolder here = true :=
      isFolder_of_mem (mem_of_file? h) (prefix_append here _) (by simp)
    have hrest : here ++ n :: names = here ++ [n] ++ names := append_cons here n names
    rw [hrest] at h ⊢
    rw [walk, if_pos hfolder, Path.follow_down (Ne.symm hn)]
    exact ih h hnames

def folder? (t : Tree) (p : Path) : Option (List String) :=
  (t.walk [] p.names).filter t.isFolder

/-- The names on the way to a file can stand between slashes, and none of them goes up. -/
lemma Named.steps (ht : t.Named) (h : t.file? names = some bytes) :
    (∀ n ∈ names, Path.Step n) ∧ ".." ∉ names := by
  have hnames := ht _ (mem_of_file? h)
  exact ⟨fun n hn => (hnames n hn).toStep, fun hup => (hnames _ hup).down rfl⟩

end Tree

/-! ## Reading -/

namespace Files

variable {root : Path}

/-- The file at the end of these names has a text that is read. -/
def Legible (t : Tree) (names : List String) : Prop :=
  ∃ bytes, t.file? names = some bytes ∧ bytes.length ≤ mostBytes ∧ textOf bytes ≠ []

/-- What is read by the text of a path comes from a file inside the folder. -/
def Confined (t : Tree) (root : Path) (path : String) : Prop :=
  read t root (.ofText path) ≠ [] →
    ∃ bytes, t.file? (root.join (.ofText path)).normal = some bytes ∧
      read t root (.ofText path) = textOf bytes ∧
      root.normal <+: (root.join (.ofText path)).normal

/-- No file outside the folder has a text that is read. -/
def Alone (t : Tree) (root : Path) : Prop := ∀ names, Legible t names → root.normal <+: names

lemma read_of_read? {p : Path} {bytes : List UInt8} (h : t.read? (root.join p) = some bytes)
    (hsmall : bytes.length ≤ mostBytes) : read t root p = textOf bytes := by
  rw [read, h]
  exact if_neg (Nat.not_lt.mpr hsmall)

lemma legible_of_read {p : Path} (h : read t root p ≠ []) :
    ∃ bytes, t.file? (root.join p).normal = some bytes ∧ bytes.length ≤ mostBytes ∧
      read t root p = textOf bytes := by
  cases hread : t.read? (root.join p) with
  | none => exact absurd (by rw [read, hread]) h
  | some bytes =>
    obtain ⟨there, hwalk, hfile⟩ := Option.bind_eq_some_iff.mp hread
    obtain rfl := Tree.eq_foldl_of_walk hwalk
    have hsmall : bytes.length ≤ mostBytes := by
      refine Nat.le_of_not_lt fun hlarge => h ?_
      rw [read, hread]
      exact if_pos hlarge
    exact ⟨bytes, hfile, hsmall, read_of_read? hread hsmall⟩

lemma confined_of_inside {path : String}
    (h : root.normal <+: (root.join (.ofText path)).normal) : Confined t root path := by
  intro hread
  obtain ⟨bytes, hfile, _, htext⟩ := legible_of_read hread
  exact ⟨bytes, hfile, htext, h⟩

lemma Alone.confined (h : Alone t root) (path : String) : Confined t root path := by
  intro hread
  obtain ⟨bytes, hfile, hsmall, htext⟩ := legible_of_read hread
  exact ⟨bytes, hfile, htext, h _ ⟨bytes, hfile, hsmall, htext ▸ hread⟩⟩

/-- A file that a path leads to is read by that path, so it lies inside if reading is confined. -/
lemma Confined.prefix_of_walk {path : String} (h : Confined t root path) (hlegible : Legible t names)
    (hwalk : t.walk [] (root.join (.ofText path)).names = some names) : root.normal <+: names := by
  obtain ⟨bytes, hfile, hsmall, htext⟩ := hlegible
  have hread : t.read? (root.join (.ofText path)) = some bytes := by
    rw [Tree.read?, hwalk]
    exact hfile
  have hnames : (root.join (.ofText path)).normal = names := (Tree.eq_foldl_of_walk hwalk).symm
  obtain ⟨_, _, _, hinside⟩ := h (by rw [read_of_read? hread hsmall]; exact htext)
  rwa [hnames] at hinside

lemma alone_of_confined (ht : t.Named) (h : ∀ path, Confined t root path) : Alone t root := by
  intro names hlegible
  obtain ⟨bytes, hfile, _⟩ := id hlegible
  obtain ⟨hsteps, hdown⟩ := ht.steps hfile
  refine (h (Path.text ⟨"/", names⟩)).prefix_of_walk hlegible ?_
  rw [Path.ofText_absolute hsteps]
  exact Tree.walk_below hfile hdown

lemma alone_of_confined_relative (ht : t.Named) {home : List String}
    (hhome : t.folder? root = some home)
    (h : ∀ path, (Path.ofText path).root = "" → Confined t root path) : Alone t root := by
  intro names hlegible
  obtain ⟨bytes, hfile, _⟩ := id hlegible
  obtain ⟨hsteps, hdown⟩ := ht.steps hfile
  obtain ⟨hwalk, hfolder⟩ := Option.filter_eq_some_iff.mp hhome
  have hall : ∀ n ∈ List.replicate home.length ".." ++ names, Path.Step n := by
    intro n hn
    rcases mem_append.mp hn with hn | hn
    · rw [eq_of_mem_replicate hn]
      exact ⟨by decide, by decide, by decide⟩
    · exact hsteps n hn
  have hread := Path.ofText_relative hall
  refine (h _ (congrArg Path.root hread)).prefix_of_walk hlegible ?_
  rw [hread]
  show t.walk [] (root.names ++ (List.replicate home.length ".." ++ names)) = some names
  rw [Tree.walk_append, hwalk, Option.bind_some, Tree.walk_append, Tree.walk_up hfolder rfl,
    Option.bind_some]
  exact Tree.walk_below hfile hdown

/-- Reading is confined to the folder of a repository for all paths exactly if there is nothing to
read outside of it, and forbidding paths from the top does not change this where the folder exists.
It is confined without further ado for the relative paths that never go up. -/
theorem confined_iff_alone (t : Tree) (ht : t.Named) (root : Path) :
    ((∀ path, Confined t root path) ↔ Alone t root) ∧ ((t.folder? root).isSome →
        ((∀ path, (Path.ofText path).root = "" → Confined t root path) ↔ Alone t root)) ∧
      ∀ path, (Path.ofText path).root = "" → ".." ∉ (Path.ofText path).names →
        Confined t root path := by
  refine ⟨⟨alone_of_confined ht, Alone.confined⟩, fun hsome => ?_, fun path hroot hup => ?_⟩
  · obtain ⟨home, hhome⟩ := Option.isSome_iff_exists.mp hsome
    exact ⟨alone_of_confined_relative ht hhome, fun h path _ => h.confined path⟩
  · refine confined_of_inside ?_
    rw [Path.normal_join hroot hup]
    exact List.prefix_append ..

def neighbours : Tree :=
  ⟨[(["repos", "r_1", "a.py"], .file [120, 61, 49]), (["keys"], .file [115, 51, 99])]⟩

def neighbourFolder : Path := ⟨"/", ["repos", "r_1"]⟩

/-- The other file is read by a path from the top and by one that goes up, so reading is not
confined, not even for relative paths. -/
theorem neighbour_is_read : read neighbours neighbourFolder (.ofText "/keys") = ['s', '3', 'c'] ∧
      read neighbours neighbourFolder (.ofText "../../keys") = ['s', '3', 'c'] ∧
      (¬∀ path, (Path.ofText path).root = "" → Confined neighbours neighbourFolder path) ∧
      Confined neighbours neighbourFolder "a.py" := by
  obtain ⟨_, hrelative, hplain⟩ := confined_iff_alone neighbours (by decide) neighbourFolder
  refine ⟨rfl, rfl, ?_, hplain "a.py" rfl (by decide)⟩
  rw [hrelative rfl]
  intro halone
  have hinside := halone ["keys"] ⟨[115, 51, 99], rfl, by decide, by decide⟩
  exact absurd hinside (by decide)

/-!
## Listing

The names that a listing leaves out are looked for in the whole path of a file. So where a folder
lies decides whether anything in it is listed.
-/

/-- A file below a folder is asked for: no name on the way to it is excluded, and its suffix is
chosen. A choice of no suffixes admits all. -/
def Wanted (suffixes excluded : Choice) (names : List String) : Prop :=
  (∀ n ∈ names, n ∉ excluded.texts) ∧ (suffixes.isEmpty = true ∨
    suffixes.has (Text.lowered (Path.suffixOf (names.getLast?.getD ""))) = true)

instance (suffixes excluded : Choice) (names : List String) :
    Decidable (Wanted suffixes excluded names) := inferInstanceAs (Decidable (_ ∧ _))

def wanted (t : Tree) (root : Path) (suffixes excluded : Choice) : List Path :=
  ((t.filesUnder root).filter (Wanted suffixes excluded ·)).map (Path.mk "")

/-- No part of the path of a folder is excluded. -/
def Clear (excluded : Choice) (root : Path) : Prop := ∀ part ∈ root.parts, part ∉ excluded.texts

instance (excluded : Choice) (root : Path) : Decidable (Clear excluded root) :=
  inferInstanceAs (Decidable (∀ _ ∈ _, _))

lemma parts_append (root : Path) (names : List String) :
    Path.parts ⟨root.root, root.names ++ names⟩ = root.parts ++ names := by
  unfold Path.parts
  split <;> rfl

lemma ne_nil_of_mem_filesBelow {here : List String} (h : names ∈ t.filesBelow here) :
    names ≠ [] := by
  obtain ⟨⟨n, e⟩, _, hentry⟩ := mem_filterMap.mp h
  cases e with
  | folder => cases hentry
  | file bytes =>
    obtain ⟨hbelow, hdrop⟩ := Option.ite_none_right_eq_some.mp hentry
    cases hdrop
    simp only [Bool.and_eq_true, decide_eq_true_eq] at hbelow
    simpa using hbelow.2

lemma ne_nil_of_mem_filesUnder {root : Path} (h : names ∈ t.filesUnder root) : names ≠ [] := by
  unfold Tree.filesUnder at h
  cases hroot : t.walk [] root.names with
  | none =>
    rw [hroot] at h
    cases h
  | some here =>
    rw [hroot] at h
    exact ne_nil_of_mem_filesBelow h

/-- A file is listed if it is asked for and the way to its folder is clear. -/
lemma listed_below_iff (root : Path) (suffixes excluded : Choice) (h : names ≠ []) :
    listed suffixes excluded ⟨root.root, root.names ++ names⟩ = true ↔
      Clear excluded root ∧ Wanted suffixes excluded names := by
  have hsuffix : Path.suffix ⟨root.root, root.names ++ names⟩ =
      Path.suffixOf (names.getLast?.getD "") := by
    rw [Path.suffix, Path.name, getLast?_append, getLast?_eq_some_getLast h]
    rfl
  have hparts : (!excluded.texts.any (Path.parts ⟨root.root, root.names ++ names⟩).contains) =
      true ↔ Clear excluded root ∧ ∀ n ∈ names, n ∉ excluded.texts := by
    rw [parts_append, Clear, ← forall_mem_append]
    simp only [Bool.not_eq_true', any_eq_false, contains_iff_mem]
    exact ⟨fun h n hn hx => h n hx hn, fun h n hx hn => h n hn hx⟩
  rw [listed, Bool.and_eq_true, hparts, hsuffix, Bool.or_eq_true, and_assoc, Wanted]

lemma list_eq_ite (t : Tree) (root : Path) (suffixes excluded : Choice) :
    list t root suffixes excluded =
      if Clear excluded root then wanted t root suffixes excluded else [] := by
  have hlist : list t root suffixes excluded = ((t.filesUnder root).filter fun names =>
      listed suffixes excluded ⟨root.root, root.names ++ names⟩).map (Path.mk "") := by
    rw [list, ← filterMap_eq_filter, map_filterMap]
    congr 1
    funext names
    rw [Option.guard, apply_ite (Option.map _)]
    rfl
  have hlisted := fun names (h : names ∈ t.filesUnder root) =>
    listed_below_iff root suffixes excluded (ne_nil_of_mem_filesUnder h)
  rw [hlist]
  split
  · rename_i hclear
    rw [wanted, filter_congr fun names h => ?_]
    rw [Bool.eq_iff_iff, hlisted names h, decide_eq_true_eq, and_iff_right hclear]
  · rename_i hclear
    rw [map_eq_nil_iff, filter_eq_nil_iff]
    exact fun names h hname => hclear ((hlisted names h).mp hname).1

/-- **A listing depends on where the folder lies.** The files of a folder that are asked for are
listed exactly if no part of the path of the folder itself is excluded, or if there are none. So two
folders with the same files are listed alike exactly if both or none of the two lie in an excluded
place, or if none of their files are asked for. -/
theorem list_eq_wanted_iff (t : Tree) (root : Path) (suffixes excluded : Choice) :
    (list t root suffixes excluded = wanted t root suffixes excluded ↔
      Clear excluded root ∨ wanted t root suffixes excluded = []) ∧
    ∀ t' root', t'.filesUnder root' = t.filesUnder root →
      (list t' root' suffixes excluded = list t root suffixes excluded ↔
        (Clear excluded root' ↔ Clear excluded root) ∨ wanted t root suffixes excluded = []) := by
  refine ⟨?_, fun t' root' hsame => ?_⟩
  · rw [list_eq_ite]
    by_cases h : Clear excluded root
    · simp [h]
    · rw [if_neg h, or_iff_right h, eq_comm]
  · have hwanted : wanted t' root' suffixes excluded = wanted t root suffixes excluded := by
      rw [wanted, wanted, hsame]
    rw [list_eq_ite, list_eq_ite, hwanted]
    by_cases h : Clear excluded root
    · by_cases h' : Clear excluded root'
      · simp [h, h']
      · simp only [h, h', ↓reduceIte, false_iff, not_true_eq_false, false_or]
        exact eq_comm
    · by_cases h' : Clear excluded root' <;> simp [h, h']

/-- A folder in another one with the name of an environment, which the usual listing leaves out. -/
theorem nothing_listed_in_environment :
    let tree (place : List String) : Tree := ⟨[(place ++ ["a.py"], .file [])]⟩
    let plain : Path := ⟨"/", ["srv", "tool"]⟩
    let within : Path := ⟨"/", ["srv", "venv", "tool"]⟩
    (tree within.names).filesUnder within = (tree plain.names).filesUnder plain ∧
      list (tree plain.names) plain usualSuffixes usualExclusions = [⟨"", ["a.py"]⟩] ∧
      list (tree within.names) within usualSuffixes usualExclusions ≠
        list (tree plain.names) plain usualSuffixes usualExclusions := by
  intro tree plain within
  obtain ⟨hlists, hplaces⟩ :=
    list_eq_wanted_iff (tree plain.names) plain usualSuffixes usualExclusions
  have hwanted : wanted (tree plain.names) plain usualSuffixes usualExclusions =
      [⟨"", ["a.py"]⟩] := by decide +kernel
  refine ⟨rfl, (hlists.mpr (.inl (by decide))).trans hwanted, fun heq => ?_⟩
  rcases (hplaces (tree within.names) within rfl).mp heq with hclear | hnone
  · exact absurd (hclear.mpr (by decide)) (by decide)
  · rw [hwanted] at hnone
    cases hnone

end Files

namespace Git

/-! ## Names of folders -/

section

variable (number : Value → Nat) (u v : String)

lemma isFolderChar_of_mem {c : Char} (h : c ∈ (repositoryName u).toList) : isFolderChar c = true := by
  simp only [repositoryName, String.toList_ofList, mem_map] at h
  obtain ⟨a, _, rfl⟩ := h
  split
  · assumption
  · decide

lemma toList_folderOf : (folderOf number (.text u)).toList =
      (repositoryName u).toList ++ '_' :: Decimal.natDigits (number (.text u) % 10000) := by
  have hfolder : folderOf number (.text u) =
      repositoryName u ++ "_" ++ Nat.repr (number (.text u) % 10000) := rfl
  rw [hfolder, String.toList_append, String.toList_append, Nat.toList_repr, append_assoc]
  rfl

lemma notMem_natDigits (n : Nat) {c : Char} (hc : c.isDigit = false) : c ∉ Decimal.natDigits n :=
  fun h => absurd (Diff.isDigit_of_mem_natDigits h) (by simp [hc])

lemma name_folderOf : Path.Name (folderOf number (.text u)) := by
  have hline : '_' ∈ (folderOf number (.text u)).toList := by
    rw [toList_folderOf]
    simp
  have hne {w : String} (hw : '_' ∉ w.toList) : folderOf number (.text u) ≠ w := fun h =>
    hw (h ▸ hline)
  refine ⟨⟨hne (by decide), hne (by decide), ?_⟩, hne (by decide)⟩
  rw [toList_folderOf, mem_append, mem_cons, not_or, not_or]
  refine ⟨fun h => ?_, by decide, notMem_natDigits _ (by decide)⟩
  cases isFolderChar_of_mem u h

lemma append_line_inj {a b x y : Chars} (hx : '_' ∉ x) (hy : '_' ∉ y)
    (h : a ++ '_' :: x = b ++ '_' :: y) : a = b ∧ x = y := by
  have hfirst {a' x y : Chars} (hx : '_' ∉ x) (h : '_' :: x = a' ++ '_' :: y) :
      a' = [] ∧ x = y := by
    cases a' with
    | nil => exact ⟨rfl, (List.cons.inj h).2⟩
    | cons c a' => exact absurd ((List.cons.inj h).2 ▸ by simp) hx
  rcases append_eq_append_iff.mp h with ⟨a', hb, hline⟩ | ⟨a', ha, hline⟩
  · obtain ⟨rfl, hxy⟩ := hfirst hx hline
    exact ⟨by rw [hb, append_nil], hxy⟩
  · obtain ⟨rfl, hyx⟩ := hfirst hy hline
    exact ⟨by rw [ha, append_nil], hyx.symm⟩

lemma folderOf_eq_iff : folderOf number (.text u) = folderOf number (.text v) ↔
      repositoryName u = repositoryName v ∧
        number (.text u) % 10000 = number (.text v) % 10000 := by
  rw [← String.toList_inj, toList_folderOf, toList_folderOf]
  constructor
  · intro h
    obtain ⟨hname, hdigits⟩ := append_line_inj (notMem_natDigits _ (by decide))
      (notMem_natDigits _ (by decide)) h
    refine ⟨String.toList_inj.mp hname, ?_⟩
    rw [← Diff.digitsNumber_natDigits (number (.text u) % 10000), hdigits,
      Diff.digitsNumber_natDigits]
  · rintro ⟨hname, hnumber⟩
    rw [hname, hnumber]

end

/-! ## One call -/

namespace Workspace

variable {w : Workspace} {folder address : String}

/-- The workspace after a folder was asked for: what is there stays, and what is missing is cloned. -/
def visit (w : Workspace) (folder address : String) : Workspace :=
  if w.has folder then w else (folder, address) :: w

lemma lookup_visit_self (w : Workspace) (folder address : String) :
    (w.visit folder address).lookup folder = some ((w.lookup folder).getD address) := by
  unfold visit has
  cases h : w.lookup folder with
  | some a => simp [h]
  | none => simp

lemma lookup_visit_of_some {f a : String} (h : w.lookup f = some a) (folder address : String) :
    (w.visit folder address).lookup f = some a := by
  unfold visit has
  split
  · exact h
  · rename_i hnew
    have hne : f ≠ folder := fun heq => hnew (by rw [← heq, h]; rfl)
    rw [lookup_cons, beq_false_of_ne hne]
    exact h

lemma lookup_visit_cases {f a : String} (h : (w.visit folder address).lookup f = some a) :
    w.lookup f = some a ∨ f = folder ∧ a = address := by
  unfold visit at h
  split at h
  · exact .inl h
  · by_cases hf : f = folder
    · subst hf
      rw [lookup_cons_self] at h
      exact .inr ⟨rfl, (Option.some.inj h).symm⟩
    · rw [lookup_cons, beq_false_of_ne hf] at h
      exact .inl h

end Workspace

/-- A call that asks for the repository of an address without starting anew, and meets no error. -/
structure Smooth (remote : Remote) (r : Request) : Prop where
  address : r.url = .text r.url.plain
  kept : r.fresh = false
  opens : remote.opens = true
  origin : remote.hasOrigin = true
  clones : remote.cloneFails = false
  complete : remote.complete = true
  pulls : remote.pullFails = false
  commit : r.commit.truthy = true → r.commit.plain ∉ remote.badCommits

section

variable {number : Value → Nat} {w : Workspace}

lemma Smooth.clone (h : Smooth remote r) : (clone remote r).2 = .ok () := by
  simp [Git.clone, h.clones, h.complete]

lemma Smooth.update (h : Smooth remote r) : (update remote r.branch).2 = .ok () := by
  simp [Git.update, h.opens, h.origin, h.pulls]

lemma Smooth.goToCommit (h : Smooth remote r) : (goToCommit remote r.commit).2 = .ok () := by
  unfold Git.goToCommit
  by_cases hcommit : r.commit.truthy = true
  · simp [hcommit, h.opens, h.commit hcommit]
  · simp [hcommit]

lemma andThen_ok {first next : Run} (hfirst : first.2 = .ok ()) (hnext : next.2 = .ok ()) :
    (first.andThen next).2 = .ok () := by
  obtain ⟨cs, o⟩ := first
  obtain rfl : o = .ok () := hfirst
  exact hnext

/-- A call without errors gives the folder of its address, where it finds a clone or makes one. -/
lemma Smooth.prepare (h : Smooth remote r) (number : Value → Nat) (w : Workspace) :
    (prepare number remote w r).folder = .ok (folderOf number r.url) ∧
      (prepare number remote w r).workspace = w.visit (folderOf number r.url) r.url.plain := by
  have hclone := andThen_ok h.clone h.goToCommit
  have hupdate := andThen_ok h.update h.goToCommit
  simp only [Git.prepare, Workspace.visit, h.kept, h.opens, Bool.not_true, Bool.and_false,
    Bool.or_self, Bool.false_eq_true, if_false]
  cases w.has (folderOf number r.url) with
  | true => simp [hupdate, Except.map]
  | false => simp [hclone, h.clone, Except.map]

end

/-! ## Runs of calls -/

/-- The calls of a run from a workspace, each with what it comes to. -/
def serve (number : Value → Nat) : Workspace → List (Remote × Request) → List (Request × Prepared)
  | _, [] => []
  | w, (remote, r) :: calls =>
    (r, prepare number remote w r) :: serve number (prepare number remote w r).workspace calls

/-- The folder that a call gives holds a clone of the address that was asked for. -/
def Own (r : Request) (x : Prepared) : Prop :=
  ∃ folder, x.folder = .ok folder ∧ x.workspace.lookup folder = some r.url.plain

/-- The folder that a call gives lies directly below the top of the workspace. -/
def Child (x : Prepared) : Prop :=
  ∃ folder, x.folder = .ok folder ∧ folder ≠ ".." ∧
    ∀ top : Path, top.join (.ofText folder) = ⟨top.root, top.names ++ [folder]⟩

section

variable {number : Value → Nat} {w : Workspace} {calls : List (Remote × Request)}
lemma Smooth.child (h : Smooth remote r) (number : Value → Nat)
    (w : Workspace) : Child (Git.prepare number remote w r) := by
  obtain ⟨hfolder, _⟩ := h.prepare number w
  rw [h.address] at hfolder
  have hname := name_folderOf number r.url.plain
  refine ⟨_, hfolder, hname.down, fun top => ?_⟩
  rw [Path.ofText_of_step hname.toStep]
  rfl

lemma Smooth.own_iff (h : Smooth remote r) (number : Value → Nat) (w : Workspace) :
    Own r (Git.prepare number remote w r) ↔
      ∀ a, w.lookup (folderOf number r.url) = some a → a = r.url.plain := by
  obtain ⟨hfolder, hworkspace⟩ := h.prepare number w
  rw [Own, hfolder, hworkspace]
  simp only [Except.ok.injEq, exists_eq_left', Workspace.lookup_visit_self, Option.some.injEq]
  cases w.lookup (folderOf number r.url) <;> simp

/-- What the workspace holds is what the calls ask for. -/
def Agrees (number : Value → Nat) (w : Workspace) (calls : List (Remote × Request)) : Prop :=
  ∀ f a, w.lookup f = some a → ∀ c ∈ calls, folderOf number c.2.url = f → c.2.url.plain = a

/-- Calls that share a folder ask for the same address. -/
def Apart (number : Value → Nat) (calls : List (Remote × Request)) : Prop :=
  ∀ a ∈ calls, ∀ b ∈ calls, folderOf number a.2.url = folderOf number b.2.url →
    a.2.url.plain = b.2.url.plain

/-- One call: it gets its own clone, and leaves a workspace for which the same is asked of the
calls after it. -/
lemma agrees_cons_iff :
    Agrees number w ((remote, r) :: calls) ∧ Apart number ((remote, r) :: calls) ↔
      (∀ a, w.lookup (folderOf number r.url) = some a → a = r.url.plain) ∧
        Agrees number (w.visit (folderOf number r.url) r.url.plain) calls ∧ Apart number calls := by
  constructor
  · rintro ⟨hagrees, hapart⟩
    refine ⟨fun a ha => ?_, fun f a ha c hc hf => ?_, fun a ha b hb => ?_⟩
    · exact (hagrees _ a ha _ (.head _) rfl).symm
    · rcases Workspace.lookup_visit_cases ha with ha | ⟨rfl, rfl⟩
      · exact hagrees f a ha c (.tail _ hc) hf
      · exact hapart c (.tail _ hc) _ (.head _) hf
    · exact hapart a (.tail _ ha) b (.tail _ hb)
  · rintro ⟨hown, hagrees, hapart⟩
    have hheld : (w.visit (folderOf number r.url) r.url.plain).lookup (folderOf number r.url) =
        some r.url.plain := by
      rw [Workspace.lookup_visit_self]
      cases ha : w.lookup (folderOf number r.url) with
      | none => rfl
      | some a => exact congrArg some (hown a ha)
    refine ⟨fun f a ha c hc hf => ?_, fun a ha b hb hf => ?_⟩
    · rcases mem_cons.mp hc with rfl | hc
      · exact (hown a (hf ▸ ha)).symm
      · exact hagrees f a (Workspace.lookup_visit_of_some ha _ _) c hc hf
    · rcases mem_cons.mp ha with rfl | ha <;> rcases mem_cons.mp hb with rfl | hb
      · rfl
      · exact (hagrees _ _ hheld b hb hf.symm).symm
      · exact hagrees _ _ hheld a ha hf
      · exact hapart a ha b hb hf

/-- A run from any workspace: all calls get their own clones if the calls agree with what is there
already and with each other. -/
lemma own_serve_iff (h : ∀ c ∈ calls, Smooth c.1 c.2) :
    (∀ x ∈ serve number w calls, Own x.1 x.2) ↔ Agrees number w calls ∧ Apart number calls := by
  induction calls generalizing w with
  | nil => simp [serve, Agrees, Apart]
  | cons c calls ih =>
    obtain ⟨remote, r⟩ := c
    have hc : Smooth remote r := h _ (.head _)
    have hrest := ih (fun c hc => h c (.tail _ hc))
      (w := w.visit (folderOf number r.url) r.url.plain)
    rw [serve, forall_mem_cons, hc.own_iff, (hc.prepare number w).2, hrest, agrees_cons_iff]

lemma child_serve (h : ∀ c ∈ calls, Smooth c.1 c.2) : ∀ x ∈ serve number w calls, Child x.2 := by
  induction calls generalizing w with
  | nil => exact fun x hx => by cases hx
  | cons c calls ih =>
    refine forall_mem_cons.mpr ⟨?_, ih fun c hc => h c (.tail _ hc)⟩
    exact (h c (.head _)).child number w

end

/-! ## Addresses that share a folder -/

def address (n : Nat) : String := .ofList (List.replicate n '/' ++ ['/', 'r'])

lemma address_injective : Function.Injective address := by
  intro m n h
  have hlength := congrArg List.length (String.ofList_injective h)
  simpa using hlength

lemma repositoryName_address (n : Nat) : repositoryName (address n) = "r" := by
  have hlist : (address n).toList = List.replicate n '/' ++ ['/', 'r'] := String.toList_ofList
  have hends : Text.ends (address n) ".git" = false := by
    rw [Text.ends, hlist, Text.endsWith, reverse_append]
    rfl
  rw [repositoryName, hends, hlist]
  simp only [Bool.false_eq_true, if_false, reverse_append]
  rfl

/-- Whatever the numbers of addresses are, two addresses share a folder: there are more addresses of
one name than numbers. -/
lemma exists_same_folder (number : Value → Nat) :
    ∃ u v : String, u ≠ v ∧ repositoryName u = repositoryName v ∧
      number (.text u) % 10000 = number (.text v) % 10000 := by
  obtain ⟨m, n, hne, hsame⟩ := Finite.exists_ne_map_eq_of_infinite fun n : Nat =>
    (⟨number (.text (address n)) % 10000, Nat.mod_lt _ (by decide)⟩ : Fin 10000)
  refine ⟨address m, address n, fun h => hne (address_injective h), ?_, Fin.mk.inj hsame⟩
  rw [repositoryName_address, repositoryName_address]

def plainCall (u : String) : Remote × Request := ({}, { url := .text u })

lemma smooth_plainCalls (us : List String) : ∀ c ∈ us.map plainCall, Smooth c.1 c.2 := by
  intro c hc
  obtain ⟨u, _, rfl⟩ := mem_map.mp hc
  exact ⟨rfl, rfl, rfl, rfl, rfl, rfl, rfl, fun _ => not_mem_nil⟩

/-- Whatever the numbers of addresses are, every call of a run without errors gives a folder directly
below the workspace. All of these folders hold clones of the addresses that the calls asked for,
exactly if no two calls for different addresses have the same name and the same number up to a
multiple of ten thousand; and there are always two addresses that do. -/
theorem own_clones_iff_apart (number : Value → Nat) : (∀ calls, (∀ c ∈ calls, Smooth c.1 c.2) →
      (∀ x ∈ serve number [] calls, Child x.2) ∧ ((∀ x ∈ serve number [] calls, Own x.1 x.2) ↔
          ∀ a ∈ calls, ∀ b ∈ calls, repositoryName a.2.url.plain = repositoryName b.2.url.plain ∧
                number a.2.url % 10000 = number b.2.url % 10000 → a.2.url.plain = b.2.url.plain)) ∧
      ∃ u v, ¬∀ x ∈ serve number [] ([u, v].map plainCall), Own x.1 x.2 := by
  constructor
  · intro calls h
    refine ⟨child_serve h, ?_⟩
    have hagrees : Agrees number [] calls := fun f a ha => by cases ha
    rw [own_serve_iff h, and_iff_right hagrees]
    refine forall₂_congr fun a ha => forall₂_congr fun b hb => ?_
    have hshared := folderOf_eq_iff number a.2.url.plain b.2.url.plain
    rw [← (h a ha).address, ← (h b hb).address] at hshared
    rw [hshared]
  · obtain ⟨u, v, hne, hsame⟩ := exists_same_folder number
    refine ⟨u, v, fun hown => hne ?_⟩
    obtain ⟨_, hapart⟩ := (own_serve_iff (smooth_plainCalls [u, v])).mp hown
    exact hapart (plainCall u) (by simp) (plainCall v) (by simp)
      ((folderOf_eq_iff number u v).mpr hsame)

def twins : List String := ["https://h.x/o/my.repo.git", "https://h.x/p/my_repo"]

/-- If the numbers of the two are the same, one of them is served from a clone of the other. If they
differ, each gets its own. -/
theorem twins_share_folder : (¬∀ x ∈ serve (fun _ => 0) [] (twins.map plainCall), Own x.1 x.2) ∧
      ∀ x ∈ serve (fun u => u.plain.length) [] (twins.map plainCall), Own x.1 x.2 := by
  have hown (number : Value → Nat) := ((own_clones_iff_apart number).1 _ (smooth_plainCalls twins)).2
  constructor
  · rw [hown]
    intro h
    have hsame := h (plainCall "https://h.x/o/my.repo.git") (by simp [twins])
      (plainCall "https://h.x/p/my_repo") (by simp [twins]) (by decide)
    exact absurd hsame (by decide)
  · rw [hown]
    decide

end Git

end ReviewDesk
