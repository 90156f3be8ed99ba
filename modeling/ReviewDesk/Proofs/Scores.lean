import Mathlib.Algebra.Order.Field.Basic
import Mathlib.Algebra.Order.Field.Rat
import Mathlib.Tactic.NormNum
import Mathlib.Tactic.Positivity
import ReviewDesk.Proofs.Findings

/-!
# Stages and scores of an analysis

The reply of a chat client gives one issue for each element of its list, up to the first that is not
in form, and deep nodes of control flow are reported in preorder. Over rational numbers all issues
with a severity and a category have scores from 0 to 10, whatever their order.
-/

namespace ReviewDesk

namespace Analysis

open List Nat

/-! ## Replies of the chat client -/

/-- An element in form: an object whose severity is neither a list nor an object. -/
def isTelling (element : Value) : Bool :=
  element.fields?.isSome &&
    (element.get? "severity").all fun v => v.list?.isNone && v.fields?.isNone

/-- The fields of an issue that are taken from an element, with the names that they have there and
the values that stand for missing ones. -/
def toldFields : List (String × String × Value) :=
  [("title", "title", .text "AI Detected Issue"), ("description", "description", .text ""),
   ("category", "category", .text "general"), ("line_start", "line_number", .int 1),
   ("code_snippet", "code_snippet", .text ""), ("suggested_fix", "suggested_fix", .text ""),
   ("ai_explanation", "explanation", .text "")]

/-- The severity that an element names; medium if it names none of the four. -/
def severityIn (element : Value) : Severity :=
  (((element.get? "severity").bind Value.text?).bind Severity.ofName?).getD .medium

/-- The issue has the fields of the element. -/
structure Tells (path element : Value) (i : Issue) : Prop where
  told : ∀ f ∈ toldFields, i.find? f.1 = some ((element.get? f.2.1).getD f.2.2)
  severity : i.find? "severity" = some (.text (severityIn element).name)
  graded : i.graded = true
  path : i.find? "file_path" = some path
  rule : i.find? "rule_id" = some (.text "ai_analysis")

lemma replyIssue?_cases (path element : Value) :
    (isTelling element = true ∧ ∃ i, replyIssue? path element = some i ∧ Tells path element i) ∨
      (isTelling element = false ∧ replyIssue? path element = none) := by
  cases element with
  | object fs =>
    have htelling : isTelling (.object fs) = (Fields.get? fs "severity").all
      (fun v => v.list?.isNone && v.fields?.isNone) := rfl
    have hseverity : severityIn (.object fs) = (((Fields.get? fs "severity").bind
      Value.text?).bind Severity.ofName?).getD .medium := rfl
    rw [htelling]
    unfold replyIssue?
    dsimp only
    rcases hs : Fields.get? fs "severity" with _ | (_ | _ | _ | _ | _ | _ | _)
    case some.list | some.object => exact .inr ⟨rfl, rfl⟩
    all_goals
      rw [hs] at hseverity
      refine .inl ⟨rfl, _, rfl, ⟨?_, by rw [hseverity]; rfl, rfl, rfl, rfl⟩⟩
      simp only [toldFields, forall_mem_cons]
      exact ⟨rfl, rfl, rfl, rfl, rfl, rfl, rfl, by simp⟩
  | _ => exact .inr ⟨rfl, rfl⟩

lemma replyIssuesOf_tell (path : Value) (vs : List Value) :
    List.Forall₂ (Tells path) (vs.takeWhile isTelling) (replyIssuesOf path vs) := by
  induction vs with
  | nil => exact .nil
  | cons v vs ih =>
    rw [replyIssuesOf]
    rcases replyIssue?_cases path v with ⟨hv, i, hi, htells⟩ | ⟨hv, hi⟩
    · rw [takeWhile_cons_of_pos hv, hi]
      exact .cons htells ih
    · rw [takeWhile_cons_of_neg (by simp [hv]), hi]
      exact .nil

lemma bracketed?_append {before inner after : Chars} (hbefore : '[' ∉ before)
    (hafter : ']' ∉ after) : bracketed? (before ++ ('[' :: inner ++ [']']) ++ after) =
      some ('[' :: inner ++ [']']) := by
  have hopen : (before ++ ('[' :: inner ++ [']']) ++ after).dropWhile (· != '[') =
      '[' :: inner ++ [']'] ++ after := by
    rw [append_assoc, dropWhile_append_of_pos]
    · rfl
    · intro c hc
      exact bne_iff_ne.mpr fun h => hbefore (h ▸ hc)
  have hclose : ('[' :: inner ++ [']'] ++ after).reverse.dropWhile (· != ']') =
      ('[' :: inner ++ [']']).reverse := by
    rw [reverse_append, dropWhile_append_of_pos]
    · simp
    · intro c hc
      exact bne_iff_ne.mpr fun h => hafter (h ▸ mem_reverse.mp hc)
  simp only [bracketed?, hopen, hclose, reverse_reverse]
  rfl

/-- A list in a reply, between a text without an opening bracket and one without a closing bracket,
gives one issue for each element up to the first that is not in form. -/
theorem replyIssues_tell (path : Value) {vs : List Value} {before inner after : List Char}
    (hread : Json.read ('[' :: inner ++ [']']) = .ok (.list vs)) (hbefore : '[' ∉ before)
    (hafter : ']' ∉ after) : List.Forall₂ (Tells path) (vs.takeWhile isTelling)
      (replyIssues path (before ++ ('[' :: inner ++ [']']) ++ after)) := by
  rw [replyIssues, bracketed?_append hbefore hafter]
  simp only [hread]
  exact replyIssuesOf_tell path vs

def bracketedReply : Chars :=
  "\x7b\"title\":\"a[0]\"\x7d,\x7b\"severity\":[]\x7d,\x7b\x7d".toList

/-- Brackets inside a text do no harm. -/
theorem first_of_three_told : ∃ vs, Json.read ('[' :: bracketedReply ++ [']']) = .ok (.list vs) ∧
    vs.map isTelling = [true, false, true] ∧ List.Forall₂ (Tells .null) (vs.takeWhile isTelling)
      (replyIssues .null ("Is ".toList ++ ('[' :: bracketedReply ++ [']']) ++ " [1".toList)) := by
  have hread : ((Json.read ('[' :: bracketedReply ++ [']'])).toOption.bind Value.list?).map
      (·.map isTelling) = some [true, false, true] := by decide +kernel
  obtain ⟨vs, hvs, htelling⟩ := Option.map_eq_some_iff.mp hread
  have hok : Json.read ('[' :: bracketedReply ++ [']']) = .ok (.list vs) := by
    cases hv : Json.read ('[' :: bracketedReply ++ [']']) with
    | error e =>
      rw [hv] at hvs
      cases hvs
    | ok v =>
      rw [hv] at hvs
      cases v <;> cases hvs
      rfl
  exact ⟨vs, hok, htelling, replyIssues_tell .null hok (by decide) (by decide)⟩

/-! ## Nested control flow

A node of a syntax tree has an address: which child to go to at each step from the root. Preorder is
the order of the addresses.
-/

namespace SyntaxNode

def start : SyntaxNode → Int
  | .mk _ start _ _ => start

def stop : SyntaxNode → Int
  | .mk _ _ stop _ => stop

def isFlow : SyntaxNode → Bool
  | .mk type _ _ _ => flowTypes.contains type

def at? : SyntaxNode → List Nat → Option SyntaxNode
  | n, [] => some n
  | .mk _ _ _ children, i :: p => children[i]?.bind (at? · p)

/-- How many nodes of control flow lie above an address: at the addresses that it goes on from. -/
def flowAbove (n : SyntaxNode) (p : List Nat) : Nat :=
  (List.range p.length).countP fun k => (n.at? (p.take k)).any isFlow

lemma flowAbove_cons {type : String} {start stop : Int} {children : List SyntaxNode} {i : Nat}
    {c : SyntaxNode} (hc : children[i]? = some c) (p : List Nat) :
    (mk type start stop children).flowAbove (i :: p) =
      (if flowTypes.contains type then 1 else 0) + c.flowAbove p := by
  have hbelow (k : Nat) : (mk type start stop children).at? ((i :: p).take (k + 1)) =
      c.at? (p.take k) := by
    rw [take_succ_cons, at?, hc, Option.bind_some]
  rw [flowAbove, length_cons, range_succ_eq_map, countP_cons, countP_map,
    add_comm]
  simp only [Function.comp_def, hbelow]
  rfl

/-- The node at an address is reported, with `depth` nodes of control flow above the root. -/
def Reports (path : Value) (depth : Nat) (n : SyntaxNode) (p : List Nat) (i : Issue) : Prop :=
  ∃ m, n.at? p = some m ∧ m.isFlow = true ∧ 11 ≤ depth + n.flowAbove p ∧
    i = deepIssue path (depth + n.flowAbove p) m.start m.stop

variable {path : Value} {depth : Nat} {type : String} {first last : Int}
  {children : List SyntaxNode} {i : Issue}

lemma reports_nil : (mk type first last children).Reports path depth [] i ↔
    flowTypes.contains type = true ∧ 10 < depth ∧ i = deepIssue path depth first last := by
  constructor
  · rintro ⟨_, ⟨⟩, h⟩
    exact h
  · exact fun h => ⟨_, rfl, h⟩

lemma reports_cons {k : Nat} {p : List Nat} :
    (mk type first last children).Reports path depth (k :: p) i ↔ ∃ c, children[k]? = some c ∧
      c.Reports path (if flowTypes.contains type then depth + 1 else depth) p i := by
  have hdepth {c : SyntaxNode} (hc : children[k]? = some c) :
      depth + (mk type first last children).flowAbove (k :: p) =
        (if flowTypes.contains type then depth + 1 else depth) + c.flowAbove p := by
    rw [flowAbove_cons hc]
    split <;> omega
  constructor
  · rintro ⟨m, hm, hflow⟩
    obtain ⟨c, hc, hm⟩ := Option.bind_eq_some_iff.mp hm
    rw [hdepth hc] at hflow
    exact ⟨c, hc, m, hm, hflow⟩
  · rintro ⟨c, hc, m, hm, hflow⟩
    rw [← hdepth hc] at hflow
    exact ⟨m, Option.bind_eq_some_iff.mpr ⟨c, hc, hm⟩, hflow⟩

end SyntaxNode

open SyntaxNode

/-- The issues are those that `R` relates to addresses, in the order of these. -/
def ListsInOrder (R : List Nat → Issue → Prop) (issues : List Issue) : Prop :=
  ∃ found : List (List Nat × Issue), found.map Prod.snd = issues ∧
    found.Pairwise (fun a b => a.1 < b.1) ∧ ∀ p i, (p, i) ∈ found ↔ R p i

mutual

lemma nestingIssues_listed (path : Value) (depth : Nat) (n : SyntaxNode) :
    ListsInOrder (n.Reports path depth) (nestingIssues path depth n) := by
  obtain ⟨type, start, stop, children⟩ := n
  obtain ⟨found, hissues, hsorted, hmem⟩ := nestingIssuesOf_listed path
    (if flowTypes.contains type then depth + 1 else depth) 0 children
  refine ⟨(if flowTypes.contains type && 10 < depth then
    [([], deepIssue path depth start stop)] else []) ++ found, ?_, ?_, ?_⟩
  · rw [map_append, hissues, nestingIssues]
    split <;> rfl
  · refine pairwise_append.mpr ⟨by split <;> simp, hsorted, fun a ha b hb => ?_⟩
    obtain ⟨j, c, q, hq, -⟩ := (hmem b.1 b.2).mp hb
    -- the root comes before all that is below it
    have hroot : a.1 = [] := by
      split at ha
      · rw [mem_singleton.mp ha]
      · cases ha
    rw [hroot, hq]
    exact nil_lt_cons ..
  · intro p i
    rw [mem_append, hmem, mem_ite_nil_right, Bool.and_eq_true, decide_eq_true_eq,
      mem_singleton]
    cases p with
    | nil =>
      rw [reports_nil]
      simp [and_assoc]
    | cons k p =>
      rw [reports_cons]
      constructor
      · rintro (⟨_, heq⟩ | ⟨j, c, q, heq, hc⟩)
        · cases heq
        · rw [zero_add] at heq
          cases heq
          exact ⟨c, hc⟩
      · rintro ⟨c, hc⟩
        exact .inr ⟨k, c, p, by rw [zero_add], hc⟩

lemma nestingIssuesOf_listed (path : Value) (depth k : Nat) (ns : List SyntaxNode) :
    ListsInOrder (fun p i => ∃ j c q, p = (k + j) :: q ∧ ns[j]? = some c ∧
      c.Reports path depth q i) (nestingIssuesOf path depth ns) := by
  cases ns with
  | nil => exact ⟨[], rfl, .nil, by simp⟩
  | cons n ns =>
    obtain ⟨found, hissues, hsorted, hmem⟩ := nestingIssues_listed path depth n
    obtain ⟨later, hissues', hsorted', hmem'⟩ := nestingIssuesOf_listed path depth (k + 1) ns
    refine ⟨found.map (fun a => (k :: a.1, a.2)) ++ later, ?_, ?_, ?_⟩
    · rw [map_append, map_map, hissues', nestingIssuesOf, ← hissues]
      rfl
    · refine pairwise_append.mpr ⟨pairwise_map.mpr (hsorted.imp ?_), hsorted', ?_⟩
      · intro a b hab
        exact cons_lt_cons_iff.mpr (.inr ⟨rfl, hab⟩)
      · -- what is below the first child comes before what is below the others
        intro a ha b hb
        obtain ⟨a, -, rfl⟩ := mem_map.mp ha
        obtain ⟨j, c, q, hq, -⟩ := (hmem' b.1 b.2).mp hb
        rw [hq]
        exact cons_lt_cons_iff.mpr (.inl (by omega))
    · intro p i
      rw [mem_append, hmem', mem_map]
      constructor
      · rintro (⟨a, ha, heq⟩ | ⟨j, c, q, rfl, hc, hq⟩)
        · cases heq
          exact ⟨0, n, a.1, rfl, rfl, (hmem a.1 a.2).mp ha⟩
        · exact ⟨j + 1, c, q, by rw [add_assoc, add_comm 1], hc, hq⟩
      · rintro ⟨j, c, q, rfl, hc, hq⟩
        cases j with
        | zero =>
          cases hc
          exact .inl ⟨(q, i), (hmem q i).mpr hq, rfl⟩
        | succ j => exact .inr ⟨j, c, q, by rw [add_assoc, add_comm 1], hc, hq⟩

end

/-- The nodes of control flow with eleven others or more above them are reported in preorder, each
once, with the number of those others and with the lines of the node. -/
theorem nestingIssues_of_deep (path : Value) (n : SyntaxNode) :
    ∃ found : List (List Nat × Issue), found.map Prod.snd = nestingIssues path 0 n ∧
      found.Pairwise (fun a b => a.1 < b.1) ∧ (∀ p, (∃ i, (p, i) ∈ found) ↔
        ∃ m, n.at? p = some m ∧ m.isFlow = true ∧ 11 ≤ n.flowAbove p) ∧
      ∀ p i, (p, i) ∈ found → ∃ m, n.at? p = some m ∧ i.find? "description" =
          some (.text s!"Complex control flow detected (depth: {n.flowAbove p})") ∧
        i.find? "line_start" = some (.int (m.start + 1)) ∧
        i.find? "line_end" = some (.int (m.stop + 1)) := by
  obtain ⟨found, hissues, hsorted, hmem⟩ := nestingIssues_listed path 0 n
  simp only [Reports, Nat.zero_add] at hmem
  refine ⟨found, hissues, hsorted, fun p => ?_, fun p i hi => ?_⟩
  · simp only [hmem]
    exact ⟨fun ⟨_, m, hm, hflow, hdeep, _⟩ => ⟨m, hm, hflow, hdeep⟩,
      fun ⟨m, hm, hflow, hdeep⟩ => ⟨_, m, hm, hflow, hdeep, rfl⟩⟩
  · obtain ⟨m, hm, -, -, rfl⟩ := (hmem p i).mp hi
    exact ⟨m, hm, rfl, rfl, rfl⟩

end Analysis

namespace Decimal

/-! ## Rounding keeps the order -/

lemma roundDiv_le_roundDiv {m n : Nat} (d : Nat) (h : m ≤ n) : roundDiv m d ≤ roundDiv n d := by
  have hdiv : m / d ≤ n / d := Nat.div_le_div_right h
  have hm := Nat.div_add_mod m d
  have hn := Nat.div_add_mod n d
  unfold roundDiv
  rcases hdiv.lt_or_eq with hlt | heq
  · grind
  · rw [heq] at hm ⊢
    grind

lemma roundDiv_mul (n d : Nat) {k : Nat} (hk : 0 < k) :
    roundDiv (n * k) (d * k) = roundDiv n d := by
  have hr : 2 * (n % d * k) = 2 * (n % d) * k := (Nat.mul_assoc ..).symm
  simp only [roundDiv, Nat.mul_div_mul_right n d hk, Nat.mul_mod_mul_right, hr,
    Nat.mul_lt_mul_right hk]

end Decimal

namespace Analysis

variable {issues : List Issue}

/-- A number of at least zero with two places. -/
def hundredths (x : ℚ) : ℚ := (Decimal.roundDiv (x.num.toNat * 100) x.den : ℚ) / 100

lemma hundredths_le_hundredths {x y : ℚ} (hx : 0 ≤ x) (h : x ≤ y) :
    hundredths x ≤ hundredths y := by
  have hnum : x.num.toNat * y.den ≤ y.num.toNat * x.den := by
    have hle := (Rat.le_iff x y).mp h
    rw [← Int.toNat_of_nonneg (Rat.num_nonneg.mpr hx),
      ← Int.toNat_of_nonneg (Rat.num_nonneg.mpr (hx.trans h))] at hle
    exact_mod_cast hle
  have hround : Decimal.roundDiv (x.num.toNat * 100) x.den ≤
      Decimal.roundDiv (y.num.toNat * 100) y.den := by
    rw [← Decimal.roundDiv_mul _ x.den y.den_pos, ← Decimal.roundDiv_mul _ y.den x.den_pos,
      Nat.mul_comm y.den, Nat.mul_right_comm, Nat.mul_right_comm y.num.toNat]
    exact Decimal.roundDiv_le_roundDiv _ (Nat.mul_le_mul_right 100 hnum)
  unfold hundredths
  gcongr

/-! ## The scores -/

/-- Exact numbers; a division by zero is a fault. -/
def exactArithmetic : Arithmetic (Outcome ℚ) where
  ofNat n := .ok n
  sub a b := do return (← a) - (← b)
  div a b := do
    let d ← b
    if d = 0 then .error (.invalid "division by zero") else return (← a) / d
  clamp a := a.map (max 0)
  atLeastOne a := a.map (max 1)
  rounded a := a.map hundredths

/-- The counts and the scores as they are reported, computed with exact numbers. -/
def exactMetrics (issues : List Issue) (files : ℤ) : Outcome (Counts × Scores ℚ) := do
  let c ← Counts.of issues
  let s := c.scores exactArithmetic (.ok files)
  return (c, { code := ← exactArithmetic.rounded s.code
               security := ← exactArithmetic.rounded s.security
               maintainability := ← exactArithmetic.rounded s.maintainability
               performance := ← exactArithmetic.rounded s.performance })

def exactScore (halves : Nat) (files : ℤ) : ℚ :=
  hundredths (max 0 (10 - (halves : ℚ) / 2 / max 1 (files : ℚ)))

lemma rounded_score (halves : Nat) (files : ℤ) :
    exactArithmetic.rounded (score exactArithmetic halves (.ok (files : ℚ))) =
      .ok (exactScore halves files) := by
  have hfiles : max 1 (files : ℚ) ≠ 0 := (lt_of_lt_of_le one_pos (le_max_left ..)).ne'
  have hhalf : exactArithmetic.div (.ok (halves : ℚ)) (.ok 2) = .ok ((halves : ℚ) / 2) := rfl
  have hspread : exactArithmetic.div (.ok ((halves : ℚ) / 2)) (.ok (max 1 (files : ℚ))) =
      .ok ((halves : ℚ) / 2 / max 1 (files : ℚ)) := if_neg hfiles
  show exactArithmetic.rounded (exactArithmetic.clamp (exactArithmetic.sub _
    (exactArithmetic.div (exactArithmetic.div (.ok (halves : ℚ)) (.ok 2))
      (.ok (max 1 (files : ℚ)))))) = _
  rw [hhalf, hspread]
  rfl

lemma exactScore_nonneg (halves : Nat) (files : ℤ) : 0 ≤ exactScore halves files := by
  unfold exactScore hundredths
  positivity

lemma exactScore_le_ten (halves : Nat) (files : ℤ) : exactScore halves files ≤ 10 := by
  have hten : hundredths 10 = 10 := by decide +kernel
  rw [← hten]
  refine hundredths_le_hundredths (le_max_left ..) (max_le (by norm_num) (sub_le_self _ ?_))
  positivity

lemma exactScore_le_exactScore {m n : Nat} {f g : ℤ} (hmn : m ≤ n) (hfg : f ≤ g) :
    exactScore n f ≤ exactScore m g := by
  refine hundredths_le_hundredths (le_max_left ..) ?_
  gcongr

/-! ## The counts -/

/-- An issue with a severity and a category, of whatever kind. -/
def Issue.Rated (i : Issue) : Prop :=
  (i.find? "severity").isSome = true ∧ (i.find? "category").isSome = true

/-- How many issues have the value `v` in the field `key`. -/
def holding (issues : List Issue) (key : String) (v : Value) : Nat :=
  issues.countP fun i => (i.find? key).any (·.same v)

lemma countIssues_has {key : String} (v : Value) (h : ∀ i ∈ issues, (i.find? key).isSome = true) :
    countIssues (·.has key v) issues = .ok (holding issues key v) := by
  have hhits : issues.mapM (·.has key v) =
      .ok (issues.map fun i => (i.find? key).any (·.same v)) := by
    refine Outcome.mapM_of_ok fun i hi => ?_
    obtain ⟨x, hx⟩ := Option.isSome_iff_exists.mp (h i hi)
    have hget : i.get key = .ok x := by
      rw [Issue.get, Issue.report, Value.item, show Fields.get? i.fields key = some x from hx]
    rw [Issue.has, hget, hx]
    rfl
  rw [countIssues, hhits, Outcome.bind_ok, List.countP_map]
  rfl

def countsOf (issues : List Issue) : Counts :=
  { total := issues.length
    critical := holding issues "severity" (.text Severity.critical.name)
    high := holding issues "severity" (.text Severity.high.name)
    medium := holding issues "severity" (.text Severity.medium.name)
    low := holding issues "severity" (.text Severity.low.name)
    security := holding issues "category" (.text "security")
    performance := holding issues "category" (.text "performance")
    maintainability := holding issues "category" (.text "maintainability") }

lemma of_eq_countsOf (h : ∀ i ∈ issues, i.Rated) : Counts.of issues = .ok (countsOf issues) := by
  have hseverity (s : Severity) := countIssues_has (.text s.name) fun i hi => (h i hi).1
  have hcategory (c : String) := countIssues_has (.text c) fun i hi => (h i hi).2
  simp only [Counts.of, countSeverity, countCategory, hseverity, hcategory, Outcome.bind_ok]
  rfl

lemma countsOf_perm {others : List Issue} (h : others.Perm issues) :
    countsOf others = countsOf issues := by
  simp only [countsOf, holding, h.countP_eq, h.length_eq]

lemma severities_add_up
    (h : ∀ i ∈ issues, ∃ s : Severity, i.find? "severity" = some (.text s.name)) :
    (countsOf issues).critical + (countsOf issues).high + (countsOf issues).medium +
      (countsOf issues).low = (countsOf issues).total := by
  induction issues with
  | nil => rfl
  | cons i issues ih =>
    obtain ⟨⟨s, hs⟩, hrest⟩ := List.forall_mem_cons.mp h
    have hone : (if Value.same (.text s.name) (.text Severity.critical.name) then 1 else 0) +
        (if Value.same (.text s.name) (.text Severity.high.name) then 1 else 0) +
        (if Value.same (.text s.name) (.text Severity.medium.name) then 1 else 0) +
        (if Value.same (.text s.name) (.text Severity.low.name) then 1 else 0) = 1 := by
      cases s <;> rfl
    have hih := ih hrest
    simp only [countsOf, holding, List.countP_cons, hs, Option.any_some, List.length_cons] at hih ⊢
    omega

instance : LE (Scores ℚ) where
  le a b := a.code ≤ b.code ∧ a.security ≤ b.security ∧
    a.maintainability ≤ b.maintainability ∧ a.performance ≤ b.performance

def Counts.exactScores (c : Counts) (files : ℤ) : Scores ℚ :=
  { code := exactScore c.codePenalty files
    security := exactScore c.securityPenalty files
    maintainability := exactScore c.maintainabilityPenalty files
    performance := exactScore c.performancePenalty files }

lemma exactMetrics_eq (h : ∀ i ∈ issues, i.Rated) (files : ℤ) :
    exactMetrics issues files = .ok (countsOf issues, (countsOf issues).exactScores files) := by
  simp only [exactMetrics, of_eq_countsOf h, Outcome.bind_ok, Counts.scores, rounded_score]
  rfl

/-- Issues with a severity and a category have four scores from 0 to 10, computed without a division
by zero. The order of the issues does not count, an issue more raises no score, a higher number of
files lowers none, and the counts by severity add up if there are no other severities. -/
theorem exactMetrics_fair (issues : List Issue) (files : ℤ) (hrated : ∀ i ∈ issues, i.Rated) :
    ∃ c s, exactMetrics issues files = .ok (c, s) ∧
      (⟨0, 0, 0, 0⟩ : Scores ℚ) ≤ s ∧ s ≤ ⟨10, 10, 10, 10⟩ ∧
      (∀ others, others.Perm issues → exactMetrics others files = .ok (c, s)) ∧
      (∀ i : Issue, i.Rated → ∃ c' s', exactMetrics (i :: issues) files = .ok (c', s') ∧ s' ≤ s) ∧
      (∀ more, files ≤ more → ∃ s', exactMetrics issues more = .ok (c, s') ∧ s ≤ s') ∧
      c.total = issues.length ∧
      ((∀ i ∈ issues, ∃ g : Severity, i.find? "severity" = some (.text g.name)) →
        c.critical + c.high + c.medium + c.low = c.total) := by
  refine ⟨_, _, exactMetrics_eq hrated files, ?_, ?_, fun others hperm => ?_, fun i hi => ?_,
    fun more hmore => ?_, rfl, severities_add_up⟩
  · exact ⟨exactScore_nonneg .., exactScore_nonneg .., exactScore_nonneg .., exactScore_nonneg ..⟩
  · exact ⟨exactScore_le_ten .., exactScore_le_ten .., exactScore_le_ten .., exactScore_le_ten ..⟩
  · rw [← countsOf_perm hperm]
    exact exactMetrics_eq (fun i hi => hrated i (hperm.mem_iff.mp hi)) files
  · refine ⟨_, _, exactMetrics_eq (List.forall_mem_cons.mpr ⟨hi, hrated⟩) files, ?_⟩
    have hmore (key : String) (v : Value) : holding issues key v ≤ holding (i :: issues) key v :=
      (List.sublist_cons_self i issues).countP_le
    refine ⟨exactScore_le_exactScore ?_ le_rfl, exactScore_le_exactScore ?_ le_rfl,
      exactScore_le_exactScore ?_ le_rfl, exactScore_le_exactScore ?_ le_rfl⟩
    all_goals
      simp only [Counts.codePenalty, Counts.securityPenalty, Counts.maintainabilityPenalty,
        Counts.performancePenalty, countsOf]
      gcongr <;> exact hmore ..
  · refine ⟨_, exactMetrics_eq hrated more, ?_⟩
    exact ⟨exactScore_le_exactScore le_rfl hmore, exactScore_le_exactScore le_rfl hmore,
      exactScore_le_exactScore le_rfl hmore, exactScore_le_exactScore le_rfl hmore⟩

def issueOf (s : Severity) (category : String) : Issue :=
  { fields := [("severity", .text s.name), ("category", .text category)] }

def mixedIssues : List Issue :=
  [issueOf .critical "security", issueOf .low "performance", issueOf .medium "maintainability"]

/-- Three issues in two files, in one order and the other, and then with a fourth one. -/
theorem metrics_of_mixed_issues : (∀ i ∈ mixedIssues, i.Rated) ∧ ∃ c s c' s',
      exactMetrics mixedIssues 2 = .ok (c, s) ∧ exactMetrics mixedIssues.reverse 2 = .ok (c, s) ∧
        c = ⟨3, 1, 0, 1, 1, 1, 1, 1⟩ ∧ s.code = 31 / 4 ∧ s.security = 9 ∧
        exactMetrics (issueOf .high "security" :: mixedIssues) 2 = .ok (c', s') ∧ s' ≤ s ∧
        c'.total = 4 ∧ s'.code = 27 / 4 ∧ s'.security = 8 := by
  have hrated : ∀ i ∈ mixedIssues, i.Rated := by
    simp only [mixedIssues, List.forall_mem_cons]
    exact ⟨⟨rfl, rfl⟩, ⟨rfl, rfl⟩, ⟨rfl, rfl⟩, List.forall_mem_nil _⟩
  obtain ⟨c, s, hmetrics, -, -, hperm, hmore, -⟩ := exactMetrics_fair mixedIssues 2 hrated
  obtain ⟨c', s', hmetrics', hle⟩ := hmore (issueOf .high "security") ⟨rfl, rfl⟩
  have hvalue : (exactMetrics mixedIssues 2).toOption.map
      (fun m => (m.1, m.2.code, m.2.security)) =
        some (⟨3, 1, 0, 1, 1, 1, 1, 1⟩, 31 / 4, 9) := by decide +kernel
  have hvalue' : (exactMetrics (issueOf .high "security" :: mixedIssues) 2).toOption.map
      (fun m => (m.1.total, m.2.code, m.2.security)) = some (4, 27 / 4, 8) := by decide +kernel
  rw [hmetrics] at hvalue
  rw [hmetrics'] at hvalue'
  simp only [Except.toOption, Option.map_some, Option.some.injEq, Prod.mk.injEq] at hvalue hvalue'
  exact ⟨hrated, c, s, c', s', hmetrics, hperm _ (List.reverse_perm _), hvalue.1, hvalue.2.1,
    hvalue.2.2, hmetrics', hle, hvalue'⟩

end Analysis
end ReviewDesk
