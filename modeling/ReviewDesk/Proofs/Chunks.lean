import ReviewDesk.Proofs.Findings
import ReviewDesk.Proofs.Preamble

/-!
# Chunks of a file

The chunks that a classifier is given hold the rows of a file in order, and all but the last hold the
same number of them. So the number of a chunk tells the line it starts at.
-/

namespace ReviewDesk.Analysis

open List Text

section

variable {α : Type} {n fuel i : Nat} {xs g : List α}

lemma flatten_groupsOf (hn : 0 < n) (hfuel : xs.length ≤ fuel) :
    (groupsOf n fuel xs).flatten = xs := by
  fun_induction groupsOf n fuel xs with
  | case1 xs => exact (length_eq_zero_iff.mp (Nat.le_zero.mp hfuel)).symm
  | case2 => rfl
  | case3 fuel xs hne ih =>
    have hpos := length_pos_of_ne_nil hne
    rw [flatten_cons, ih (by rw [length_drop]; omega), take_append_drop]

lemma of_getElem?_groupsOf (hg : (groupsOf n fuel xs)[i]? = some g) :
    i * n < xs.length ∧ g = (xs.drop (i * n)).take n := by
  fun_induction groupsOf n fuel xs generalizing i with
  | case1 | case2 => cases hg
  | case3 fuel xs hne ih =>
    cases i with
    | zero =>
      cases hg
      simpa using length_pos_of_ne_nil hne
    | succ i =>
      obtain ⟨hi, rfl⟩ := ih hg
      rw [length_drop] at hi
      rw [drop_drop, Nat.succ_mul, Nat.add_comm n]
      exact ⟨by omega, rfl⟩

end

section

variable {rs : List Chars}

lemma intercalate_append_feed (hrs : rs ≠ []) :
    ['\n'].intercalate rs ++ ['\n'] = rs.flatMap (· ++ ['\n']) := by
  induction rs with
  | nil => exact absurd rfl hrs
  | cons r rs ih =>
    cases rs with
    | nil => simp
    | cons s rs =>
      rw [flatMap_cons, ← ih (cons_ne_nil s rs), intercalate_cons_cons, append_assoc, append_assoc]

lemma rows_intercalate (hrs : rs ≠ []) (hfeed : ∀ r ∈ rs, '\n' ∉ r) :
    rows (['\n'].intercalate rs) = rs := by
  induction rs with
  | nil => exact absurd rfl hrs
  | cons r rs ih =>
    obtain ⟨hr, hfeed⟩ := forall_mem_cons.mp hfeed
    cases rs with
    | nil => rw [intercalate_singleton, rows_of_notMem hr]
    | cons s rs =>
      rw [intercalate_cons_cons, append_assoc, singleton_append, rows_append, rows_of_notMem hr,
        ih (cons_ne_nil s rs) hfeed, singleton_append]

lemma feed_notMem_of_mem_rows {text r : Chars} (hr : r ∈ rows text) : '\n' ∉ r := by
  induction text generalizing r with
  | nil => simp_all [rows]
  | cons c text ih =>
    obtain ⟨s, rs, hs⟩ := exists_cons_of_ne_nil (rows_ne_nil text)
    rw [rows, hs] at hr
    rw [hs] at ih
    grind

end

section

variable {text : Chars} {n i : Nat}

/-- The rows of a text in groups of `n`. -/
def rowGroups (text : Chars) (n : Nat) : List (List Chars) :=
  groupsOf n (rows text).length (rows text)

lemma chunks_eq (hn : 0 < n) : chunks text n = .ok ((rowGroups text n).map ['\n'].intercalate) := by
  rw [chunks, if_neg (by omega), if_neg (by omega)]
  rfl

lemma flatten_rowGroups (hn : 0 < n) : (rowGroups text n).flatten = rows text :=
  flatten_groupsOf hn (Nat.le_refl _)

lemma rowGroups_ne_nil (hn : 0 < n) : rowGroups text n ≠ [] := by
  intro hnil
  have hall : (rowGroups text n).flatten = rows text := flatten_rowGroups hn
  rw [hnil] at hall
  exact rows_ne_nil text hall.symm

lemma rows_group (hn : 0 < n) {g : List Chars} (hg : (rowGroups text n)[i]? = some g) :
    g ≠ [] ∧ rows (['\n'].intercalate g) = g := by
  obtain ⟨hi, rfl⟩ := of_getElem?_groupsOf hg
  have hne : ((rows text).drop (i * n)).take n ≠ [] := by
    rw [Ne, take_eq_nil_iff, drop_eq_nil_iff]
    omega
  refine ⟨hne, rows_intercalate hne fun r hr => ?_⟩
  exact feed_notMem_of_mem_rows (mem_of_mem_drop (mem_of_mem_take hr))

lemma intercalate_chunks (hn : 0 < n) :
    ['\n'].intercalate ((rowGroups text n).map ['\n'].intercalate) = text := by
  refine append_cancel_right (?_ : _ ++ ['\n'] = text ++ ['\n'])
  calc ['\n'].intercalate ((rowGroups text n).map ['\n'].intercalate) ++ ['\n']
      = (rowGroups text n).flatMap fun g => ['\n'].intercalate g ++ ['\n'] := by
        rw [intercalate_append_feed (by simpa using rowGroups_ne_nil hn), flatMap_map]
    _ = (rowGroups text n).flatMap (·.flatMap (· ++ ['\n'])) := by
        refine flatMap_congr fun g hg => ?_
        obtain ⟨i, hi⟩ := mem_iff_getElem?.mp hg
        exact intercalate_append_feed (rows_group hn hi).1
    _ = (rows text).flatMap (· ++ ['\n']) := by
        rw [← flatten_rowGroups hn, flatten_eq_flatMap, flatMap_assoc]
        rfl
    _ = text ++ ['\n'] := flatMap_rows text

end

/-! ## Lines that the classifier's issues start at -/

lemma start_of_qualityIssue? {path : Value} {i : Nat} {a : Verdict} {issue : Issue}
    (h : qualityIssue? path i a = some issue) :
    issue.find? "line_start" = some (.ofNat (i * 20 + 1)) := by
  obtain ⟨_, _, _, rfl⟩ := qualityIssue?_cases h
  rfl

lemma exists_starts (path : Value) (answers : List Verdict) (text : Chars) :
    ∃ starts : List Nat,
      (qualityIssues path answers text).map (·.find? "line_start") =
        starts.map (some <| Value.ofNat ·) ∧
      starts.Pairwise (· < ·) ∧ ∀ k ∈ starts, 1 ≤ k ∧ k ≤ (rows text).length := by
  let start (x : Verdict × Nat) : Option Nat :=
    (qualityIssue? path x.2 x.1).map fun _ => x.2 * 20 + 1
  refine ⟨(answers.take (rowGroups text 20).length).zipIdx.filterMap start, ?_, ?_, ?_⟩
  · have hcount : ((chunks text 20).getD []).length = (rowGroups text 20).length := by
      rw [show chunks text 20 = _ from chunks_eq (n := 20) (by decide)]
      exact length_map _
    rw [qualityIssues, hcount, map_filterMap, map_filterMap]
    refine filterMap_congr fun x _ => ?_
    rw [Option.map_map]
    exact Option.map_congr fun issue h => start_of_qualityIssue? h
  · rw [pairwise_filterMap]
    have hpairs := pairwise_lt_range' (s := 0) (n := (answers.take (rowGroups text 20).length).length)
    rw [← zipIdx_map_snd, pairwise_map] at hpairs
    refine hpairs.imp fun hlt k hk k' hk' => ?_
    obtain ⟨_, _, rfl⟩ := Option.map_eq_some_iff.mp hk
    obtain ⟨_, _, rfl⟩ := Option.map_eq_some_iff.mp hk'
    omega
  · intro k hk
    obtain ⟨⟨a, i⟩, hx, hk⟩ := mem_filterMap.mp hk
    obtain ⟨_, _, rfl⟩ := Option.map_eq_some_iff.mp hk
    have hi := (mem_zipIdx hx).2.1
    rw [length_take] at hi
    have hgroup := getElem?_eq_getElem (l := rowGroups text 20) (i := i) (by omega)
    have hlt := (of_getElem?_groupsOf hgroup).1
    dsimp only
    omega

/-- The chunks of a text make it up again, each starts at the row that its number tells and all but
the last have as many rows as were asked for. So the issues of the classifier start at rows of the
text, one behind the other. -/
theorem chunks_in_place (text : Chars) {n : Nat} (hn : 1 ≤ n) :
    (∃ cs, chunks text n = .ok cs ∧ cs ≠ [] ∧ ['\n'].intercalate cs = text ∧
      ∀ i c, cs[i]? = some c → rows c <+: (rows text).drop (i * n) ∧ 1 ≤ (rows c).length ∧
        (rows c).length ≤ n ∧ (i + 1 < cs.length → (rows c).length = n)) ∧
    ∀ (tools : Tools) (path : Value), ∃ starts : List Nat,
      (qualityStage tools path text).map (·.find? "line_start") =
        starts.map (some <| Value.ofNat ·) ∧
      starts.Pairwise (· < ·) ∧ ∀ k ∈ starts, 1 ≤ k ∧ k ≤ (rows text).length := by
  refine ⟨⟨_, chunks_eq hn, by simpa using rowGroups_ne_nil hn, intercalate_chunks hn, ?_⟩, ?_⟩
  · intro i c hc
    rw [getElem?_map] at hc
    obtain ⟨g, hg, rfl⟩ := Option.map_eq_some_iff.mp hc
    obtain ⟨hne, hrows⟩ := rows_group hn hg
    obtain ⟨hi, heq⟩ := of_getElem?_groupsOf hg
    rw [hrows]
    refine ⟨heq ▸ take_prefix .., length_pos_of_ne_nil hne, ?_, fun hlast => ?_⟩
    · rw [heq, length_take]
      omega
    · rw [length_map] at hlast
      have hnext := (of_getElem?_groupsOf (getElem?_eq_getElem hlast)).1
      rw [Nat.succ_mul] at hnext
      rw [heq, length_take, length_drop]
      omega
  · intro tools path
    cases hclassifier : tools.classifier with
    | none => exact ⟨[], by simp [qualityStage, hclassifier], .nil, by simp⟩
    | some answers => simpa [qualityStage, hclassifier] using exists_starts path answers text

/-- The empty row behind a last line feed is a chunk of its own if the rows before it fill theirs. -/
theorem chunks_of_ended_rows : 1 ≤ 2 ∧ ∃ cs, chunks "a\nb\n".toList 2 = .ok cs ∧
    cs = ["a\nb".toList, []] ∧ ['\n'].intercalate cs = "a\nb\n".toList := by
  obtain ⟨⟨cs, hcs, -, hjoined, -⟩, -⟩ := chunks_in_place "a\nb\n".toList (n := 2) (by decide)
  refine ⟨by decide, cs, hcs, ?_, hjoined⟩
  cases hcs
  rfl

end ReviewDesk.Analysis
