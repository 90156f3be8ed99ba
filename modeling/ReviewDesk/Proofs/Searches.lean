import Mathlib.Data.List.Pairwise
import Mathlib.Data.List.TakeWhile
import ReviewDesk.Proofs.Preamble
import ReviewDesk.Proofs.Tables
import ReviewDesk.Repositories.Basic

/-!
# Lists from the store

Which rows a list from the store holds, and in which order. The issues of a review stand in the
order of the words for their severities, and the pages of the users hold each user that is asked for
once. A search among repositories takes its text as a pattern.
-/

namespace ReviewDesk

open List Outcome Work Store

variable {s : Store} {size : Nat} {w : String}

/-! ## Order -/

lemma Store.pairwise_ascending {α : Type} {order : α → α → Ordering} [Std.TransCmp order]
    (rows : List α) : (ascending order rows).Pairwise fun a b => (order a b).isLE := by
  have hle (a b : α) : (order a b != .gt) = (order a b).isLE := by cases order a b <;> rfl
  simp only [ascending, hle]
  refine pairwise_mergeSort (fun _ _ _ => Std.TransCmp.isLE_trans) (fun a b => ?_) rows
  have hswap : order b a = (order a b).swap := Std.OrientedCmp.eq_swap
  rw [hswap]
  cases order a b <;> rfl

namespace Issues

/-- Which issues of a review are asked for. -/
structure Wish where
  severity : Option String := none
  category : Option String := none
  resolved : Option Bool := none

def Wish.filter (w : Wish) : Filter :=
  ⟨.ofText? w.severity, .ofText? w.category, ofFlag? w.resolved⟩

/-- An issue is as wished. A severity that is none is not looked at, nor an empty category. -/
def Wish.met (w : Wish) (i : Issue) : Bool :=
  (w.severity.bind Severity.ofName?).all (· == i.severity) &&
    w.category.all (fun c => c.isEmpty || i.category == c) && w.resolved.all (i.isResolved == some ·)

lemma picks_met (w : Wish) : w.filter.picks = .ok w.met := by
  obtain ⟨severity, category, resolved⟩ := w
  have hseverity : (Value.ofText? severity).text? = severity := by cases severity <;> rfl
  have hresolved : flagColumn (ofFlag? resolved) = .ok resolved := by
    rcases resolved with _ | _ | _ <;> rfl
  unfold Wish.filter Filter.picks Wish.met
  simp only [hseverity, hresolved, bind_ok]
  rcases category with _ | c
  · cases resolved <;> rfl
  · have htruthy : (Value.ofText? (some c)).truthy = !c.isEmpty := rfl
    simp only [htruthy, Option.all_some]
    cases c.isEmpty <;> cases resolved <;> rfl

/-- The place of a severity if the most severe come first. -/
def place : Severity → Nat
  | .critical => 0
  | .high => 1
  | .medium => 2
  | .low => 3

/-- An issue comes before another by severity, then by path, then by line. -/
def Before (a b : Issue) : Prop :=
  place a.severity < place b.severity ∨ a.severity = b.severity ∧
    (a.filePath < b.filePath ∨ a.filePath = b.filePath ∧ a.lineStart ≤ b.lineStart)

/-- Neither critical nor high. -/
def Mild (v : Severity) : Prop := v = .medium ∨ v = .low

def word : Severity → String
  | .critical => "CRITICAL"
  | .high => "HIGH"
  | .medium => "MEDIUM"
  | .low => "LOW"

lemma label_eq : Severity.label = word := by
  funext v
  cases v <;> decide +kernel

/-- Of the order of the words, only that of medium and low is the order of the severities. -/
lemma place_lt_iff {a b : Severity} (h : word b < word a) :
    place a < place b ↔ Mild a ∧ Mild b := by
  revert h
  simp only [Mild]
  cases a <;> cases b <;> decide

-- stated for any words: with `inList` itself Lean would unfold the tables behind the labels
lemma transCmp_words {α : Type} (word path : α → String) (line : α → Int) :
    Std.TransCmp fun a b => ((compareTexts (word a) (word b)).swap.then
      (compareTexts (path a) (path b))).then (compare (line a) (line b)) := by
  have hwords (a b : α) : (compareTexts (word a) (word b)).swap = compare (word b) (word a) :=
    (Std.OrientedOrd.eq_swap (α := String)).symm
  simp only [hwords]
  exact inferInstanceAs (Std.TransCmp (compareLex (compareLex (fun a b => compareOn word b a)
    (compareOn path)) (compareOn line)))

instance : Std.TransCmp inList :=
  transCmp_words (fun i : Issue => i.severity.label) (fun i => i.filePath) fun i => i.lineStart

lemma isLE_inList {a b : Issue} : (inList a b).isLE ↔
    word b.severity < word a.severity ∨ a.severity = b.severity ∧
      (a.filePath < b.filePath ∨ a.filePath = b.filePath ∧ a.lineStart ≤ b.lineStart) := by
  have hword {v v' : Severity} : word v = word v' ↔ v = v' := by cases v <;> cases v' <;> decide
  have heq {s t : String} : compareTexts s t = .eq ↔ s = t := Std.compare_eq_iff_eq (α := String)
  have hlt {s t : String} : compareTexts s t = .lt ↔ s < t := compareOfLessAndEq_eq_lt
  have hgt {s t : String} : compareTexts s t = .gt ↔ t < s := by
    have hswap : compareTexts t s = (compareTexts s t).swap := Std.OrientedOrd.eq_swap (α := String)
    rw [← hlt, hswap, Ordering.swap_eq_lt]
  simp only [inList, Ordering.then_assoc, Ordering.isLE_then_iff_or, Ordering.swap_eq_lt,
    Ordering.swap_eq_eq, heq, hlt, hgt, label_eq, hword, Std.isLE_compare]

lemma pairwise_before_iff {rows : List Issue}
    (hsorted : rows.Pairwise fun a b => (inList a b).isLE) : rows.Pairwise Before ↔
      ∀ a ∈ rows, ∀ b ∈ rows, a.severity ≠ b.severity → Mild a.severity := by
  constructor
  · intro hbefore a ha b hb hne
    have hpairs : rows.Pairwise fun a b =>
        a.severity ≠ b.severity → Mild a.severity ∧ Mild b.severity := by
      refine (hsorted.and hbefore).imp fun {a b} h hne => ?_
      have hword := (isLE_inList.mp h.1).resolve_right fun h => hne h.1
      exact (place_lt_iff hword).mp (h.2.resolve_right fun h => hne h.1)
    have : Std.Symm fun a b : Issue =>
        a.severity ≠ b.severity → Mild a.severity ∧ Mild b.severity :=
      ⟨fun _ _ h hne => (h hne.symm).symm⟩
    exact (hpairs.forall ha hb (fun h => hne (h ▸ rfl)) hne).1
  · intro hmild
    refine hsorted.imp_of_mem fun {a b} ha hb h => ?_
    obtain hword | hrest := isLE_inList.mp h
    · have hne : a.severity ≠ b.severity := fun h => String.lt_irrefl _ (h ▸ hword)
      exact .inl ((place_lt_iff hword).mpr ⟨hmild a ha b hb hne, hmild b hb a ha hne.symm⟩)
    · exact .inr hrest

/-- The issues of a review that are asked for are listed with the most severe first exactly if all of
them have one severity or none is critical or high. -/
theorem most_severe_first_iff (t : Moment) (s : Store) {n : Int} (hn : fits n) (w : Wish) :
    ∃ rows, Gives (list (.int n) w.filter) t s (.ok rows) s ∧
      rows.Perm (s.issues.filter fun i => i.reviewId == n && w.met i) ∧
      (rows.Pairwise Before ↔
        ∀ a ∈ rows, ∀ b ∈ rows, a.severity ≠ b.severity → Mild a.severity) := by
  have hgives := gives_orElse_query (listed (.int n) w.filter) [] t s
  rw [listed, parameter_int hn, bind_ok, picks_met, bind_ok] at hgives
  simp only [intIs_int] at hgives
  exact ⟨_, hgives, mergeSort_perm _ _, pairwise_before_iff (pairwise_ascending _)⟩

def mixedStore : Store :=
  let issue (id : Int) (severity : Severity) : Issue :=
    { id, severity, title := "t", description := "d", category := "c", filePath := "a.py"
      lineStart := 1, createdAt := ⟨0⟩, updatedAt := none, reviewId := 1 }
  { issues := [issue 1 .critical, issue 2 .low] }

theorem low_before_critical : ∃ rows,
    Gives (list (.int 1) {}) ⟨0⟩ mixedStore (.ok rows) mixedStore ∧ ¬rows.Pairwise Before := by
  obtain ⟨rows, hgives, hperm, hiff⟩ := most_severe_first_iff ⟨0⟩ mixedStore (n := 1) rfl {}
  refine ⟨rows, hgives, fun h => ?_⟩
  have hmem (i : Issue) : i ∈ mixedStore.issues → i ∈ rows := hperm.mem_iff.mpr
  obtain h | h := hiff.mp h _ (hmem _ (mem_cons_self ..)) _
    (hmem _ (mem_cons_of_mem _ (mem_cons_self ..))) (by decide) <;> cases h

end Issues

/-! ## Pages -/

namespace Store

variable {α : Type} {rows : List α}

def chunk (size : Nat) (rows : List α) (k : Nat) : List α := (rows.drop (k * size)).take size

lemma flatMap_chunk (size : Nat) (rows : List α) (n : Nat) :
    (range n).flatMap (chunk size rows) = rows.take (n * size) := by
  induction n with
  | zero => simp
  | succ n ih =>
    rw [range_succ, flatMap_append, ih, flatMap_singleton, chunk, Nat.succ_mul, take_add]

/-- There is a first page without rows, and the pages before it hold all rows. -/
lemma exists_chunks (hsize : 0 < size) (rows : List α) : ∃ n, (∀ k < n, chunk size rows k ≠ []) ∧
    chunk size rows n = [] ∧ (range n).flatMap (chunk size rows) = rows := by
  let n := (rows.length + size - 1) / size
  have hle : n * size ≤ rows.length + size - 1 := Nat.div_mul_le_self _ _
  have hlt : rows.length + size - 1 < (n + 1) * size :=
    Nat.mul_comm _ _ ▸ Nat.lt_mul_div_succ _ hsize
  have hall : rows.length ≤ n * size := by
    rw [Nat.succ_mul] at hlt
    omega
  refine ⟨n, fun k hk hnil => ?_, ?_, ?_⟩
  · have hk : (k + 1) * size ≤ n * size := Nat.mul_le_mul_right size hk
    rw [Nat.succ_mul] at hk
    rw [chunk, take_eq_nil_iff, drop_eq_nil_iff] at hnil
    omega
  · rw [chunk, drop_eq_nil_of_le hall, take_nil]
  · rw [flatMap_chunk, take_of_length_le hall]

lemma rowCount_int (n : Int) : rowCount (.int n) =
    if fits n then .ok (some n) else .error (.tooLarge "integer too large for a column") := by
  unfold rowCount
  dsimp only
  by_cases hn : fits n
  · rw [parameter_int hn, if_pos hn]
    rfl
  · rw [parameter, if_neg hn, if_neg hn]
    rfl

/-- A page whose beginning is too large a number is empty anyway. -/
lemma getD_take_chunk (hrows : fits rows.length) (hsize : fits size) (k : Nat) :
    Outcome.getD (do return (← Page.of (.int (k * size)) (.int size)).take rows) [] =
      chunk size rows k := by
  rw [Page.of, rowCount_int, rowCount_int, if_pos hsize]
  by_cases hskip : fits (k * size)
  · rw [if_pos hskip]
    show Page.take ⟨(k * size : Int).toNat, if (size : Int) < 0 then none else some size⟩ rows = _
    rw [if_neg (by omega), ← Int.natCast_mul, Int.toNat_natCast]
    rfl
  · have hlong : rows.length ≤ k * size := by
      simp only [fits, Bool.and_eq_true, decide_eq_true_eq, ← Int.natCast_mul] at hskip hrows
      omega
    rw [if_neg hskip, chunk, drop_eq_nil_of_le hlong, take_nil]
    rfl

lemma getD_take_oversized (hsize : ¬fits size) (skip : Value) :
    Outcome.getD (do return (← Page.of skip (.int size)).take rows) [] = [] := by
  rw [Page.of, rowCount_int, if_neg hsize]
  cases rowCount skip <;> rfl

end Store

namespace Accounts

/-- Which users are asked for. -/
structure Wish where
  search : Option String := none
  active : Option Bool := none
  verified : Option Bool := none

def Wish.filter (w : Wish) : Filter := ⟨.ofText? w.search, ofFlag? w.active, ofFlag? w.verified⟩

/-- A user is as wished; an empty text is not searched for. -/
def Wish.met (w : Wish) (u : User) : Bool :=
  w.search.all (fun t => t.isEmpty || contains (some u.email) (Text.lowered t) ||
      contains (some u.username) (Text.lowered t) || contains u.fullName (Text.lowered t)) &&
    w.active.all (· == u.isActive) && w.verified.all (· == u.isVerified)

lemma picks_met (w : Wish) : w.filter.picks = .ok w.met := by
  obtain ⟨search, active, verified⟩ := w
  have hflag (wanted : Option Bool) :
      wantedFlag (ofFlag? wanted) = .ok fun b => wanted.all (· == b) := by
    rcases wanted with _ | _ | _ <;> rfl
  unfold Wish.filter Filter.picks Wish.met
  simp only [hflag, bind_ok]
  rcases search with _ | t
  · rfl
  · have htext : (Value.ofText? (some t)).textOf "lower" = .ok t := rfl
    have htruthy : (Value.ofText? (some t)).truthy = !t.isEmpty := rfl
    simp only [htext, htruthy, bind_ok, Option.all_some]
    generalize Text.lowered t = low
    cases t.isEmpty <;> rfl

/-- One page of the users, the newest first. -/
def pageOf (w : Wish) (size k : Nat) : Work (List User) :=
  list w.filter (.int (k * size)) (.int size) (.text "created_at") true

lemma gives_pageOf (w : Wish) (size : Nat) (s : Store) (t : Moment) :
    ∃ rows : List User, rows.Perm (s.users.filter w.met) ∧ ∀ k : Nat,
      Gives (pageOf w size k) t s (.ok (Outcome.getD (do
        return (← Page.of (.int (k * size)) (.int size)).take rows) [])) s := by
  obtain ⟨order, horder⟩ : ∃ order, orderBy? "created_at" = some order := ⟨_, rfl⟩
  refine ⟨descending order (s.users.filter w.met), mergeSort_perm _ _, fun k => ?_⟩
  have hordered : ordered (.text "created_at") true (s.users.filter w.met) =
      .ok (descending order (s.users.filter w.met)) := by
    rw [ordered, horder]
    rfl
  have hgives := gives_orElse_query (fun s => do
    let us ← ordered (.text "created_at") true (s.users.filter w.met)
    return (← Page.of (.int (k * size)) (.int size)).take us) [] t s
  rw [hordered, bind_ok] at hgives
  rw [pageOf, list, picks_met]
  exact hgives

/-- The pages up to the first empty one, put together, are the users that are as wished, each once,
and as many as are counted, if the size of a page fits a column. If not, all pages are empty. -/
theorem pages_complete (t : Moment) (hids : (s.users.map (·.id)).Nodup)
    (hlen : fits s.users.length) (hpos : 0 < size) (w : Wish) :
    (fits size → ∃ (n : Nat) (pages : Nat → List User),
      (∀ k, Gives (pageOf w size k) t s (.ok (pages k)) s ∧ (pages k).length ≤ size) ∧
      (∀ k < n, pages k ≠ []) ∧ pages n = [] ∧
      (((range n).flatMap pages).map (·.id)).Nodup ∧
      Gives (count w.filter) t s (.ok ((range n).flatMap pages).length) s ∧
      ∀ u, u ∈ (range n).flatMap pages ↔ u ∈ s.users ∧ w.met u = true) ∧
    (¬fits size → ∀ k, Gives (pageOf w size k) t s (.ok []) s) := by
  obtain ⟨rows, hperm, hpages⟩ := gives_pageOf w size s t
  refine ⟨fun hsize => ?_, fun hsize k => getD_take_oversized hsize _ ▸ hpages k⟩
  have hrows : fits rows.length := by
    have hle := hperm.length_eq ▸ length_filter_le w.met s.users
    simp only [fits, Bool.and_eq_true, decide_eq_true_eq] at hlen ⊢
    omega
  obtain ⟨n, hfull, hlast, hall⟩ := exists_chunks hpos rows
  refine ⟨n, chunk size rows, fun k => ⟨getD_take_chunk hrows hsize k ▸ hpages k,
    length_take_le _ _⟩, hfull, hlast, ?_⟩
  rw [hall]
  refine ⟨?_, ?_, fun u => ?_⟩
  · exact (hperm.map _).nodup_iff.mpr (hids.sublist (filter_sublist.map _))
  · rw [count, picks_met, hperm.length_eq, ← countP_eq_length_filter]
    exact gives_orElse_query (fun s => .ok (s.users.countP w.met)) 0 t s
  · rw [hperm.mem_iff, mem_filter]

def fiveUsers : Store :=
  let user (id : Int) (username email : String) (isActive : Bool) : User :=
    { id, username, email, isActive, password := "p", createdAt := ⟨id⟩, updatedAt := none }
  { users := [user 1 "ann" "ann@x.io" true, user 2 "bob" "bob@x.io" true,
      user 3 "cy" "cy@abc.io" true, user 4 "dan" "dan@x.io" false, user 5 "Eva" "eva@x.io" true] }

def activeWithA : Wish := { search := some "A", active := some true }

/-- Three of five users are as wished. They fill two pages, and none if a page is too large. -/
theorem pages_complete_of_five :
    (∃ n, ∃ pages : Nat → List User, 2 ≤ n ∧
      (∀ k, Gives (pageOf activeWithA 2 k) ⟨0⟩ fiveUsers (.ok (pages k)) fiveUsers) ∧
      pages n = [] ∧ Gives (count activeWithA.filter) ⟨0⟩ fiveUsers
        (.ok ((range n).flatMap pages).length) fiveUsers ∧
      ∀ u ∈ fiveUsers.users, u ∈ (range n).flatMap pages ↔ u.id ∈ [1, 3, 5]) ∧
    ∀ k, Gives (pageOf activeWithA 9223372036854775808 k) ⟨0⟩ fiveUsers (.ok []) fiveUsers := by
  have hids : (fiveUsers.users.map (·.id)).Nodup := by decide
  have hmet : ∀ u ∈ fiveUsers.users, activeWithA.met u = true ↔ u.id ∈ [1, 3, 5] := by
    decide +kernel
  refine ⟨?_, (pages_complete ⟨0⟩ hids rfl (by decide) activeWithA).2 (by decide)⟩
  obtain ⟨n, pages, hpages, -, hlast, -, hcount, hmem⟩ :=
    (pages_complete ⟨0⟩ hids rfl Nat.two_pos activeWithA).1 rfl
  have hthree : 3 ≤ ((range n).flatMap pages).length := by
    have hall : (fiveUsers.users.filter activeWithA.met) ⊆ (range n).flatMap pages :=
      fun u hu => (hmem u).mpr (mem_filter.mp hu)
    have hlength : (fiveUsers.users.filter activeWithA.met).length = 3 := by decide +kernel
    exact hlength ▸ (subperm_of_subset (hids.of_map.filter _) hall).length_le
  have htwo : 2 ≤ n := by
    rcases n with _ | _ | n
    · cases hthree
    · have hfirst := (hpages 0).2
      have hone : (range 1).flatMap pages = pages 0 := flatMap_singleton ..
      rw [hone] at hthree
      omega
    · omega
  refine ⟨n, pages, htwo, fun k => (hpages k).1, hlast, hcount, fun u hu => ?_⟩
  rw [hmem, hmet u hu, and_iff_right hu]

/-- A page that is larger than any number of the store is empty although there are users. -/
theorem oversized_page_empty :
    Gives (pageOf {} 9223372036854775808 0) ⟨0⟩ fiveUsers (.ok []) fiveUsers ∧
      Gives (count {}) ⟨0⟩ fiveUsers (.ok 5) fiveUsers :=
  ⟨gives_orElse_query _ _ _ _, gives_orElse_query _ _ _ _⟩

end Accounts

/-! ## Search -/

namespace Store

variable {ps cs ws : Chars}

/-- A percent sign fits before whatever end of a text the rest of the pattern fits. -/
lemma fitsPattern_percent :
    fitsPattern ('%' :: ps) cs = true ↔ ∃ b, b <:+ cs ∧ fitsPattern ps b = true := by
  induction cs with
  | nil => simp [fitsPattern]
  | cons c cs ih =>
    rw [fitsPattern, Bool.or_eq_true, ih]
    constructor
    · rintro (h | ⟨b, hb, h⟩)
      · exact ⟨_, suffix_refl _, h⟩
      · exact ⟨b, hb.trans (suffix_cons c cs), h⟩
    · rintro ⟨b, hb, h⟩
      obtain rfl | hb := suffix_cons_iff.mp hb
      · exact .inl h
      · exact .inr ⟨b, hb, h⟩

/-- A sign that does not belong to patterns. -/
def Ordinary (c : Char) : Prop := c ≠ '%' ∧ c ≠ '_'

lemma fitsPattern_ordinary (hw : ∀ c ∈ ws, Ordinary c) :
    fitsPattern (ws ++ ['%']) cs = true ↔ ws.map foldChar <+: cs.map foldChar := by
  induction ws generalizing cs with
  | nil => simpa using fitsPattern_percent.mpr ⟨[], nil_suffix, by simp [fitsPattern]⟩
  | cons p ws ih =>
    obtain ⟨hp, hw⟩ := forall_mem_cons.mp hw
    cases cs with
    | nil => simp [fitsPattern, hp.1]
    | cons c cs => simp [fitsPattern, hp.1, hp.2, ih hw, cons_prefix_cons]

/-- A text with a letter for each sign that belongs to patterns. -/
def filled (ws : Chars) : Chars := ws.map fun c => if c = '%' ∨ c = '_' then 'x' else c

lemma fitsPattern_filled (ws : Chars) : fitsPattern (ws ++ ['%']) (filled ws) = true := by
  induction ws with
  | nil => simp [fitsPattern, filled]
  | cons p ws ih =>
    rw [cons_append, filled, map_cons, ← filled]
    by_cases hp : p = '%'
    · subst hp
      exact fitsPattern_percent.mpr ⟨_, suffix_cons _ _, ih⟩
    · by_cases hp' : p = '_' <;> simp [fitsPattern, hp, hp', ih]

/-- A text that a search reads to its end. -/
def Legible (s : String) : Prop := '\x00' ∉ s.toList

lemma legible_eq (h : '\x00' ∉ cs) : legible cs = cs :=
  takeWhile_eq_self_iff.mpr fun _ hc => bne_iff_ne.mpr fun hnul => h (hnul ▸ hc)

lemma legible_filled (hw : Legible w) : Legible (.ofList (filled w.toList)) := by
  intro hmem
  rw [String.toList_ofList] at hmem
  obtain ⟨c, hc, heq⟩ := mem_map.mp hmem
  split at heq
  · cases heq
  · exact hw (heq ▸ hc)

lemma contains_some (hsize : w.utf8ByteSize ≤ 49998) (hw : Legible w) {s : String}
    (hs : Legible s) : contains (some s) w = true ↔
      ∃ b, b <:+ s.toList ∧ fitsPattern (w.toList ++ ['%']) b = true := by
  have hpattern : legible ('%' :: w.toList ++ ['%']) = '%' :: (w.toList ++ ['%']) :=
    legible_eq (by simpa [Legible] using hw)
  rw [contains, hpattern, legible_eq hs, decide_eq_true hsize, Bool.true_and, fitsPattern_percent]

/-- A cell contains a text as it stands, the case of ASCII letters apart. -/
def mentions (w : String) (cell : Option String) : Bool :=
  cell.any fun s => Text.occurs (w.toList.map foldChar) (s.toList.map foldChar)

lemma contains_eq_mentions (hsize : w.utf8ByteSize ≤ 49998) (hw : ∀ c ∈ w.toList, Ordinary c)
    (hread : Legible w) {cell : Option String} (hcell : ∀ s, cell = some s → Legible s) :
    contains cell w = mentions w cell := by
  cases cell with
  | none => rfl
  | some s =>
    rw [Bool.eq_iff_iff, contains_some hsize hread (hcell s rfl), mentions, Option.any_some,
      Text.occurs_iff]
    simp only [fitsPattern_ordinary hw]
    constructor
    · rintro ⟨b, ⟨a, hs⟩, e, he⟩
      exact ⟨a.map foldChar, e, by rw [← hs, map_append, ← he, append_assoc]⟩
    · rintro ⟨a, e, h⟩
      rw [append_assoc] at h
      obtain ⟨a', b, hs, -, hb⟩ := map_eq_append_iff.mp h
      exact ⟨b, ⟨a', hs.symm⟩, hb ▸ prefix_append _ _⟩

/-- Only a text of ordinary signs stands in what it is filled to. -/
lemma ordinary_of_mentions (h : mentions w (some (.ofList (filled w.toList))) = true) :
    ∀ c ∈ w.toList, Ordinary c := by
  intro c hc
  rw [mentions, Option.any_some, String.toList_ofList] at h
  obtain ⟨a, b, hab⟩ := Text.occurs_iff.mp h
  have hsame := IsInfix.eq_of_length ⟨a, b, hab.symm⟩ (by simp [filled])
  rw [filled, map_map] at hsame
  have hchar := map_inj_left.mp hsame c hc
  constructor <;> rintro rfl <;> exact absurd hchar (by decide)

end Store

namespace Repositories

def cells (r : Repository) : List (Option String) := [some r.name, some r.fullName, r.description]

/-- The answer to a search, by what it finds in a cell. -/
def answer (finds : Option String → Bool) (u : Int) (page : Page) (s : Store) : List Repository :=
  page.take (descending byRecency
    (s.repositories.filter fun r => (cells r).any finds && r.ownedBy (.int u)))

/-- A search finds what contains the text as it stands: within any page, the repositories of a user
of which some cell does. -/
def SearchesLiterally (w : String) : Prop :=
  ∀ t s, (∀ r ∈ s.repositories, ∀ c, some c ∈ cells r → Legible c) → ∀ u : Int, fits u →
    ∀ skip limit page, Page.of skip limit = .ok page →
      Gives (list (.int u) { search := .text w } skip limit) t s
        (.ok (answer (mentions w) u page s)) s

lemma gives_search (hw : w ≠ "") {u : Int} (hu : fits u) {skip limit : Value} {page : Page}
    (hpage : Page.of skip limit = .ok page) (t : Moment) (s : Store) :
    Gives (list (.int u) { search := .text w } skip limit) t s
      (.ok (answer (contains · w) u page s)) s := by
  have hpicks : Filter.picks { search := .text w } = .ok fun r =>
      (!(!w.isEmpty) || contains (some r.name) w || contains (some r.fullName) w ||
        contains r.description w) && true && true := rfl
  have hempty : w.isEmpty = false := by simpa using hw
  have hcells (r : Repository) : (cells r).any (contains · w) =
      (contains (some r.name) w || contains (some r.fullName) w || contains r.description w) := by
    simp [cells, Bool.or_assoc]
  have hgives := gives_orElse_query (listed (.int u) { search := .text w } skip limit) [] t s
  simp only [hempty, Bool.not_false, Bool.not_true, Bool.false_or, Bool.and_true, ← hcells] at hpicks
  rw [listed, repositoriesOf, parameter_int hu, hpicks, hpage] at hgives
  rw [answer, ← filter_filter]
  exact hgives

def alone (name : String) : Repository :=
  { id := 1, name, fullName := name, url := "", cloneUrl := "", provider := "", externalId := ""
    createdAt := ⟨0⟩, updatedAt := none, ownerId := .int 1 }

lemma answer_alone {finds : Option String → Bool} (hnone : finds none = false) (name : String) :
    answer finds 1 ⟨0, some 1⟩ { repositories := [alone name] } =
      if finds (some name) then [alone name] else [] := by
  have hany : (cells (alone name)).any finds = finds (some name) := by simp [cells, alone, hnone]
  have howned : (alone name).ownedBy (.int 1) = true := rfl
  cases hf : finds (some name) <;> simp [answer, Page.take, descending, hany, howned, hf]

/-- If the search is a literal one, then also in the only cell there is. -/
lemma SearchesLiterally.contains_eq (h : SearchesLiterally w) (hw : w ≠ "") {name : String}
    (hname : Legible name) : contains (some name) w = mentions w (some name) := by
  let s : Store := { repositories := [alone name] }
  have hlegible : ∀ r ∈ s.repositories, ∀ c, some c ∈ cells r → Legible c := by
    simpa [s, alone, cells] using hname
  have hpage : Page.of (.int 0) (.int 1) = .ok ⟨0, some 1⟩ := rfl
  obtain ⟨d, hrun, -⟩ := gives_search hw (u := 1) rfl hpage ⟨0⟩ s
    { store := s, lasting := s, now := ⟨0⟩ } ⟨fun _ => rfl, rfl, rfl, rfl, rfl⟩
  obtain ⟨d', hrun', -⟩ := h ⟨0⟩ s hlegible 1 rfl _ _ _ hpage
    { store := s, lasting := s, now := ⟨0⟩ } ⟨fun _ => rfl, rfl, rfl, rfl, rfl⟩
  have hsame := Except.ok.inj (congrArg Prod.fst (hrun.symm.trans hrun'))
  rw [answer_alone rfl, answer_alone rfl] at hsame
  cases hc : contains (some name) w <;> cases hm : mentions w (some name) <;> simp_all

/-- A text is searched for as it stands exactly if no sign of it belongs to patterns and it is not
too long for one. -/
theorem searchesLiterally_iff (hw : w ≠ "") (hread : Legible w) :
    SearchesLiterally w ↔ (∀ c ∈ w.toList, Ordinary c) ∧ w.utf8ByteSize ≤ 49998 := by
  constructor
  · intro h
    have hsize : w.utf8ByteSize ≤ 49998 := by
      refine Decidable.byContradiction fun hlong => ?_
      have hself : mentions w (some w) = true := Text.occurs_iff.mpr ⟨[], [], (append_nil _).symm⟩
      rw [← h.contains_eq hw hread, Store.contains, decide_eq_false hlong] at hself
      cases hself
    -- the text with other signs for those of patterns is found, so it must contain the text
    have hfound := (contains_some hsize hread (legible_filled hread)).mpr
      ⟨_, suffix_refl _, String.toList_ofList ▸ fitsPattern_filled _⟩
    rw [h.contains_eq hw (legible_filled hread)] at hfound
    exact ⟨ordinary_of_mentions hfound, hsize⟩
  · rintro ⟨hordinary, hsize⟩ t s hs u hu skip limit page hpage
    have hanswer : answer (mentions w) u page s = answer (contains · w) u page s := by
      unfold answer
      congr 2
      refine filter_congr fun r hr => congrArg (· && _) ?_
      rw [Bool.eq_iff_iff, any_eq_true, any_eq_true]
      refine exists_congr fun c => and_congr_right fun hc => ?_
      rw [contains_eq_mentions hsize hordinary hread fun x hx => hs r hr x (hx ▸ hc)]
    rw [hanswer]
    exact gives_search hw hu hpage t s

/-- An underscore is not searched for as it stands, and a letter is. -/
theorem searchesLiterally_letters : ¬SearchesLiterally "a_b" ∧ SearchesLiterally "ab" := by
  have hread (s : String) (h : '\x00' ∉ s.toList) : Legible s := h
  refine ⟨fun h => ?_, ?_⟩
  · have hordinary := (searchesLiterally_iff (by decide) (hread _ (by decide))).mp h
    exact absurd rfl (hordinary.1 '_' (by decide)).2
  · refine (searchesLiterally_iff (by decide) (hread _ (by decide))).mpr ⟨?_, by decide⟩
    exact forall_mem_cons.mpr ⟨⟨by decide, by decide⟩, forall_mem_singleton.mpr ⟨by decide, by decide⟩⟩

end Repositories

end ReviewDesk
