import ReviewDesk.Proofs.Tables

/-!
# How values compare

Numbers are compared by their exact values, and so every number but NaN has a place on one line,
between the two infinities. Texts have the order of their characters, and lists that of the first
items that differ.
-/

open Float.Model UnpackedFloat Option

namespace ReviewDesk

open List

namespace Decimal

variable {x y : Float} {s : UnpackedFloat.Sign}

/-! ## The parts of a double -/

lemma toBits_parts (x : Float) :
    (@unpackMantissa .binary64 x.toBits.toBitVec).toNat =
        x.toBits.toNat % Nat.pow 2 52 ∧
      (@unpackExponent .binary64 x.toBits.toBitVec).toNat =
        x.toBits.toNat / Nat.pow 2 52 % Nat.pow 2 11 ∧
      (@unpackSign .binary64 x.toBits.toBitVec).toNat =
        x.toBits.toNat / Nat.pow 2 63 := by
  have hlt := x.toBits.toNat_lt
  refine ⟨?_, ?_, ?_⟩
  · simp [unpackMantissa]
  · simp [unpackExponent, Nat.shiftRight_eq_div_pow]
  · delta unpackSign
    simp [Nat.shiftRight_eq_div_pow]
    omega

lemma unpack_cases (b : BitVec 64) : (∃ s, UnpackedFloat.unpack .binary64 b = .infinity s) ∨
      UnpackedFloat.unpack .binary64 b = .notANumber ∨
      (@unpackExponent .binary64 b = 0#11 ∧
        @unpackMantissa .binary64 b = 0#52 ∧
        ∃ s, UnpackedFloat.unpack .binary64 b = .zero s) ∨
      (@unpackExponent .binary64 b = 0#11 ∧ ∃ hpos, UnpackedFloat.unpack .binary64 b =
          .finite (.ofBitVec (@unpackSign .binary64 b))
            (@unpackMantissa .binary64 b).toNat (-1074) hpos) ∨
      (@unpackExponent .binary64 b ≠ 0#11 ∧ ∃ hpos, UnpackedFloat.unpack .binary64 b =
          .finite (.ofBitVec (@unpackSign .binary64 b))
            (1#1 ++ @unpackMantissa .binary64 b).toNat
            ((@unpackExponent .binary64 b).toNat - 1075) hpos) := by
  delta UnpackedFloat.unpack
  dsimp only
  by_cases hmax : @unpackExponent .binary64 b = -1#11
  · rw [if_pos hmax]
    by_cases hm : @unpackMantissa .binary64 b = 0#52
    · exact .inl ⟨_, if_pos hm⟩
    · exact .inr (.inl (if_neg hm))
  · rw [if_neg hmax]
    by_cases he : @unpackExponent .binary64 b = 0#11
    · rw [if_pos he]
      by_cases hm : @unpackMantissa .binary64 b = 0#52
      · exact .inr (.inr (.inl ⟨he, hm, _, dif_pos hm⟩))
      · refine .inr (.inr (.inr (.inl ⟨he, ?_⟩)))
        rw [dif_neg hm, he]
        exact ⟨_, rfl⟩
    · exact .inr (.inr (.inr (.inr ⟨he, _, if_neg he⟩)))

lemma toNat_eq_one_iff_negative (b : BitVec 1) :
    b.toNat = 1 ↔ UnpackedFloat.Sign.ofBitVec b = .negative := by
  rcases BitVec.eq_zero_or_eq_one b with rfl | rfl <;> simp [UnpackedFloat.Sign.ofBitVec]

/-- The leading bit of a mantissa, which a double does not store. -/
lemma toNat_leading (b : BitVec 52) : (1#1 ++ b).toNat = b.toNat + Nat.pow 2 52 := by
  rw [BitVec.toNat_append, ← Nat.shiftLeft_add_eq_or_of_lt b.isLt]
  simp [Nat.add_comm]

lemma ofFloat_zero (h : x.toModel.unpack = .zero s) :
    (Binary.ofFloat x).significand = 0 ∧ (Binary.ofFloat x).exponent = -1074 := by
  obtain ⟨hm, he, hsign⟩ := toBits_parts x
  have hunpack : unpack .binary64 x.toBits.toBitVec = .zero s := h
  simp only [Binary.ofFloat, ← hm, ← he, ← hsign]
  rcases unpack_cases x.toBits.toBitVec with
    ⟨_, hcase⟩ | hcase | ⟨hexponent, hmantissa, _⟩ | ⟨_, _, hcase⟩ | ⟨_, _, hcase⟩
  any_goals cases hcase.symm.trans hunpack
  simp [hexponent, hmantissa]

lemma ofFloat_finite {m : Nat} {e : Int} {hpos : 0 < m}
    (h : x.toModel.unpack = .finite s m e hpos) :
    (Binary.ofFloat x).significand = m ∧ (Binary.ofFloat x).exponent = e ∧
      ((Binary.ofFloat x).negative = true ↔ s = .negative) := by
  obtain ⟨hm, he, hsign⟩ := toBits_parts x
  have hunpack : unpack .binary64 x.toBits.toBitVec = .finite s m e hpos := h
  simp only [Binary.ofFloat, ← hm, ← he, ← hsign]
  rcases unpack_cases x.toBits.toBitVec with
    ⟨_, hcase⟩ | hcase | ⟨_, _, _, hcase⟩ | ⟨hexponent, _, hcase⟩ | ⟨hexponent, _, hcase⟩
  all_goals cases hcase.symm.trans hunpack
  · simp [hexponent, toNat_eq_one_iff_negative]
  · have hne : (@unpackExponent .binary64 x.toBits.toBitVec).toNat ≠ 0 := by
      simpa [BitVec.toNat_eq] using hexponent
    rw [if_neg (by simpa using hne)]
    exact ⟨(toNat_leading _).symm, rfl, by simp [toNat_eq_one_iff_negative]⟩

variable {k m : Nat} {e f : Int}

/-! ## The line of numbers -/

/-- A place among the numbers: an infinity, or between them, counted in the smallest positive
double. -/
inductive Place where
  | bottom
  | inner (n : Int)
  | top

namespace Place

def order : Place → Place → Ordering
  | bottom, bottom => .eq
  | bottom, _ => .lt
  | _, bottom => .gt
  | inner a, inner b => compare a b
  | inner _, top => .lt
  | top, inner _ => .gt
  | top, top => .eq

instance : LT Place := ⟨fun p q => p.order q = .lt⟩

lemma order_swap (p q : Place) : q.order p = (p.order q).swap := by
  cases p with
  | inner a =>
    cases q with
    | inner b => exact (Int.compare_swap a b).symm
    | _ => rfl
  | _ => cases q <;> rfl

lemma order_eq_iff {p q : Place} : p.order q = .eq ↔ p = q := by
  cases p <;> cases q <;> simp [order]

lemma lt_irrefl (p : Place) : ¬p < p := by
  intro h
  have heq : p.order p = .eq := order_eq_iff.mpr rfl
  cases heq.symm.trans h

lemma lt_trans {p q r : Place} (hpq : p < q) (hqr : q < r) : p < r := by
  cases p with
  | bottom =>
    cases r with
    | bottom => cases q <;> cases hqr
    | _ => rfl
  | inner a =>
    cases q with
    | bottom => cases hpq
    | inner b =>
      cases r with
      | bottom => cases hqr
      | inner c =>
        exact Int.compare_eq_lt.mpr
          (Int.lt_trans (Int.compare_eq_lt.mp hpq) (Int.compare_eq_lt.mp hqr))
      | top => rfl
    | top => cases r <;> cases hqr
  | top => cases q <;> cases hpq

end Place

def size (m : Nat) (e : Int) : Nat := m * Nat.pow 2 (e + 1074).toNat

lemma two_pow_pos (n : Nat) : 0 < Nat.pow 2 n := Nat.two_pow_pos n

lemma size_pos (h : 0 < m) (e : Int) : 0 < size m e := Nat.mul_pos h (two_pow_pos _)

lemma eq_of_mul_size {a b : Int} (h : a * size 1 0 = b * size 1 0) : a = b := by
  have hpos : (0 : Int) < size 1 0 := Int.natCast_pos.mpr (size_pos Nat.one_pos 0)
  exact Int.eq_of_mul_eq_mul_right (Int.ne_of_gt hpos) h

def place? : UnpackedFloat → Option Place
  | .notANumber => none
  | .infinity .negative => some .bottom
  | .infinity .positive => some .top
  | .zero _ => some (.inner 0)
  | .finite s m e _ => some (.inner (s.apply (size m e)))

def order? (p q : Option Place) : Option Ordering := do return (← p).order (← q)

lemma order?_inner (a b : Int) :
    order? (some (.inner a)) (some (.inner b)) = some (compare a b) := rfl

lemma order?_swap (p q : Option Place) : order? q p = (order? p q).map Ordering.swap := by
  cases p with
  | none => cases q <;> rfl
  | some p =>
    cases q with
    | none => rfl
    | some q => exact congrArg some (p.order_swap q)

/-! ## Doubles -/

/-- The mantissa and the exponent that a double has: the exponent is as small as it can be. -/
structure Canonical (m : Nat) (e : Int) : Prop where
  small : m < Nat.pow 2 53
  low : -1074 ≤ e
  normal : Nat.pow 2 52 ≤ m ∨ e = -1074

lemma compare_cast (a b : Nat) : compare (a : Int) (b : Int) = compare a b := by
  rcases Nat.lt_trichotomy a b with h | h | h
  · rw [Nat.compare_eq_lt.mpr h, Int.compare_eq_lt.mpr (by omega)]
  · rw [Nat.compare_eq_eq.mpr h, Int.compare_eq_eq.mpr (by omega)]
  · rw [Nat.compare_eq_gt.mpr h, Int.compare_eq_gt.mpr (by omega)]

lemma compare_mul (hk : 0 < k) (a b : Int) : compare (a * k) (b * k) = compare a b := by
  have hpos : (0 : Int) < k := Int.natCast_pos.mpr hk
  rcases Int.lt_trichotomy a b with h | rfl | h
  · rw [Int.compare_eq_lt.mpr h, Int.compare_eq_lt.mpr (Int.mul_lt_mul_of_pos_right h hpos)]
  · rw [Int.compare_eq_eq.mpr rfl, Int.compare_eq_eq.mpr rfl]
  · rw [Int.compare_eq_gt.mpr h, Int.compare_eq_gt.mpr (Int.mul_lt_mul_of_pos_right h hpos)]

lemma size_lt (h : Canonical m e) (h' : Canonical k f) (hef : e < f) : size m e < size k f := by
  have hlow := h.low
  have hk : Nat.pow 2 52 ≤ k := h'.normal.resolve_right (by omega)
  calc size m e < Nat.pow 2 53 * Nat.pow 2 (e + 1074).toNat :=
        Nat.mul_lt_mul_of_pos_right h.small (two_pow_pos _)
    _ = Nat.pow 2 52 * Nat.pow 2 ((e + 1074).toNat + 1) := by
        simp only [Nat.pow_eq, Nat.pow_succ]
        omega
    _ ≤ size k f := Nat.mul_le_mul hk (Nat.pow_le_pow_right (by decide) (by omega))

lemma compare_size (h : Canonical m e) (h' : Canonical k f) :
    (compare e f).then (compare m k) = compare (size m e) (size k f) := by
  rcases Int.lt_trichotomy e f with hlt | rfl | hgt
  · rw [Int.compare_eq_lt.mpr hlt, Nat.compare_eq_lt.mpr (size_lt h h' hlt)]
    rfl
  · rw [Int.compare_eq_eq.mpr rfl, Ordering.eq_then, ← compare_cast (size m e), size, size,
      Int.natCast_mul, Int.natCast_mul, compare_mul (two_pow_pos _), compare_cast]
  · rw [Int.compare_eq_gt.mpr hgt, Nat.compare_eq_gt.mpr (size_lt h' h hgt)]
    rfl

lemma canonical_unpack {hpos : 0 < m}
    (h : x.toModel.unpack = .finite s m e hpos) : Canonical m e := by
  have hunpack : unpack .binary64 x.toBits.toBitVec = .finite s m e hpos := h
  have hmantissa := (@unpackMantissa .binary64 x.toBits.toBitVec).isLt
  rcases unpack_cases x.toBits.toBitVec with
    ⟨_, hcase⟩ | hcase | ⟨_, _, _, hcase⟩ | ⟨_, _, hcase⟩ | ⟨hexponent, _, hcase⟩
  all_goals cases hcase.symm.trans hunpack
  · exact ⟨Nat.lt_trans hmantissa (by decide), Int.le_refl _, .inr rfl⟩
  · have hne : (@unpackExponent .binary64 x.toBits.toBitVec).toNat ≠ 0 := by
      simpa [BitVec.toNat_eq] using hexponent
    have hlt : (@unpackMantissa .binary64 x.toBits.toBitVec).toNat < Nat.pow 2 52 :=
      hmantissa
    have htwice : Nat.pow 2 53 = Nat.pow 2 52 + Nat.pow 2 52 := by decide
    refine ⟨?_, by omega, .inl ?_⟩
    · rw [toNat_leading]
      omega
    · rw [toNat_leading]
      omega

lemma compare_neg_cast (a b : Nat) : compare (-(a : Int)) (-(b : Int)) = (compare a b).swap := by
  rw [← compare_cast]
  rcases Int.lt_trichotomy a b with h | h | h
  · rw [Int.compare_eq_lt.mpr h, Int.compare_eq_gt.mpr (by omega)]
    rfl
  · rw [Int.compare_eq_eq.mpr h, Int.compare_eq_eq.mpr (by omega)]
    rfl
  · rw [Int.compare_eq_gt.mpr h, Int.compare_eq_lt.mpr (by omega)]
    rfl

lemma compare_unpack (x y : Float) : x.toModel.unpack.compare y.toModel.unpack =
      order? (place? x.toModel.unpack) (place? y.toModel.unpack) := by
  have hx : ∀ s m e hpos, x.toModel.unpack = .finite s m e hpos → Canonical m e :=
    fun _ _ _ _ => canonical_unpack
  have hy : ∀ s m e hpos, y.toModel.unpack = .finite s m e hpos → Canonical m e :=
    fun _ _ _ _ => canonical_unpack
  generalize x.toModel.unpack = a at hx ⊢
  generalize y.toModel.unpack = b at hy ⊢
  cases a with
  | notANumber => rfl
  | infinity s =>
    cases b with
    | notANumber => cases s <;> rfl
    | infinity t => cases s <;> cases t <;> rfl
    | zero t | finite t => cases s <;> rfl
  | zero s =>
    cases b with
    | notANumber => rfl
    | infinity t => cases t <;> rfl
    | zero t => rfl
    | finite t k f hk =>
      have hpos := size_pos hk f
      show _ = some (compare (0 : Int) (t.apply (size k f)))
      cases t
      · exact congrArg some (Int.compare_eq_gt.mpr (Int.neg_neg_of_pos (by omega))).symm
      · exact congrArg some (Int.compare_eq_lt.mpr (Int.natCast_pos.mpr hpos)).symm
  | finite s m e hm =>
    have hmpos := size_pos hm e
    cases b with
    | notANumber => rfl
    | infinity t => cases t <;> rfl
    | zero t =>
      show _ = some (compare (s.apply (size m e)) (0 : Int))
      cases s
      · exact congrArg some (Int.compare_eq_lt.mpr (Int.neg_neg_of_pos (by omega))).symm
      · exact congrArg some (Int.compare_eq_gt.mpr (Int.natCast_pos.mpr hmpos)).symm
    | finite t k f hk =>
      have hkpos := size_pos hk f
      have hsize := compare_size (hx _ _ _ _ rfl) (hy _ _ _ _ rfl)
      show _ = some (compare (s.apply (size m e)) (t.apply (size k f)))
      cases s <;> cases t <;> refine congrArg some ?_ <;> simp only [UnpackedFloat.Sign.apply]
      · rw [hsize, compare_neg_cast]
      · exact (Int.compare_eq_lt.mpr (by omega)).symm
      · exact (Int.compare_eq_gt.mpr (by omega)).symm
      · rw [hsize, compare_cast]

lemma lt_iff : x < y ↔ x.toModel.unpack.compare y.toModel.unpack = some .lt := by
  show decide (_ = true) = true ↔ _
  rw [decide_eq_true_iff]
  exact beq_iff_eq

lemma beq_iff : (x == y) = true ↔ x.toModel.unpack.compare y.toModel.unpack = some .eq := by
  have hbeq : (x == y) = (x.toModel.unpack.compare y.toModel.unpack == some .eq) := rfl
  rw [hbeq, beq_iff_eq]

lemma not_beq_zero {n : Int} (h : place? x.toModel.unpack = some (.inner n)) (hn : n ≠ 0) :
    (x == 0) = false := by
  have hzero : (0 : Float).toModel.unpack = .zero .positive := by rfl
  refine Bool.eq_false_iff.mpr fun hbeq => hn ?_
  rw [beq_iff, compare_unpack, h, hzero] at hbeq
  exact Int.compare_eq_eq.mp (some.inj hbeq)

lemma quotient_size (b : Binary) (h : -1074 ≤ b.exponent) :
    ∃ k, 0 < k ∧ b.quotient.2 * k = size 1 0 ∧
      b.quotient.1 * k = size b.significand b.exponent := by
  unfold Binary.quotient
  by_cases he : 0 ≤ b.exponent
  · rw [if_pos he]
    refine ⟨size 1 0, size_pos Nat.one_pos 0, Nat.one_mul _, ?_⟩
    have hsum : (b.exponent + 1074).toNat = b.exponent.toNat + (0 + 1074 : Int).toNat := by omega
    rw [size, size, hsum, Nat.one_mul, Nat.mul_assoc, Nat.pow_eq, Nat.pow_eq, Nat.pow_eq,
      Nat.pow_add]
  · rw [if_neg he]
    refine ⟨Nat.pow 2 (b.exponent + 1074).toNat, two_pow_pos _, ?_, rfl⟩
    have hsum : (0 + 1074 : Int).toNat = (-b.exponent).toNat + (b.exponent + 1074).toNat := by omega
    rw [size, hsum, Nat.one_mul, Nat.pow_eq, Nat.pow_eq, Nat.pow_eq, Nat.pow_add]

lemma compareInt_size (h : -1074 ≤ (Binary.ofFloat x).exponent) (a : Int) :
    compareInt a x = compare (a * size 1 0) (if (Binary.ofFloat x).negative then
      -(size (Binary.ofFloat x).significand (Binary.ofFloat x).exponent : Int)
      else size (Binary.ofFloat x).significand (Binary.ofFloat x).exponent) := by
  obtain ⟨k, hk, hone, hsize⟩ := quotient_size _ h
  simp only [compareInt, ← hone, ← hsize]
  rw [← compare_mul hk]
  split <;> simp only [Int.natCast_mul, Int.mul_assoc, Int.neg_mul]

lemma compareInt_eq {n : Int} (h : place? x.toModel.unpack = some (.inner n))
    (a : Int) : compareInt a x = compare (a * size 1 0) n := by
  cases hx : x.toModel.unpack with
  | notANumber =>
    rw [hx] at h
    cases h
  | infinity s =>
    rw [hx] at h
    cases s <;> cases h
  | zero s =>
    obtain ⟨hsignificand, hexponent⟩ := ofFloat_zero hx
    rw [hx] at h
    have hn : 0 = n := Place.inner.inj (some.inj h)
    have hsize : size 0 (Binary.ofFloat x).exponent = 0 := Nat.zero_mul _
    rw [compareInt_size (Int.le_of_eq hexponent.symm), hsignificand, hsize, ← hn, Int.natCast_zero,
      Int.neg_zero, ite_self]
  | finite s m e hm =>
    obtain ⟨hsignificand, hexponent, hnegative⟩ := ofFloat_finite hx
    have hlow := (canonical_unpack hx).low
    rw [hx] at h
    have hn : s.apply (size m e) = n := Place.inner.inj (some.inj h)
    rw [compareInt_size (by omega), hsignificand, hexponent, ← hn]
    cases s with
    | negative => rw [if_pos (hnegative.mpr rfl), UnpackedFloat.Sign.apply]
    | positive =>
      have hpositive : ¬(Binary.ofFloat x).negative = true := fun h => nomatch hnegative.mp h
      rw [if_neg hpositive, UnpackedFloat.Sign.apply]

end Decimal

namespace Value.Number

open Decimal

def place? : Number → Option Place
  | whole n => some (.inner (n * size 1 0))
  | real x => Decimal.place? x.toModel.unpack

lemma compare?_real (x y : Float) :
    compare? (.real x) (.real y) = x.toModel.unpack.compare y.toModel.unpack := by
  have hswap : y.toModel.unpack.compare x.toModel.unpack =
      (x.toModel.unpack.compare y.toModel.unpack).map Ordering.swap := by
    rw [compare_unpack, compare_unpack, order?_swap]
  simp only [compare?, lt_iff, beq_iff, hswap]
  cases x.toModel.unpack.compare y.toModel.unpack with
  | none => rfl
  | some o => cases o <;> rfl

lemma compare?_whole_real (a : Int) (y : Float) :
    compare? (.whole a) (.real y) = order? (place? (.whole a)) (place? (.real y)) := by
  have hnan : y.isNaN = y.toModel.unpack.isNaN := rfl
  have hinf : y.isInf = y.toModel.unpack.isInf := rfl
  have hzero : (0 : Float).toModel.unpack = .zero .positive := by rfl
  simp only [compare?, place?, hnan, hinf]
  cases hy : y.toModel.unpack with
  | notANumber => rfl
  | infinity s =>
    simp only [lt_iff, hy, hzero]
    cases s <;> rfl
  | zero s =>
    have hplace : Decimal.place? y.toModel.unpack = some (.inner 0) := by rw [hy]; rfl
    rw [compareInt_eq hplace]
    exact (order?_inner _ _).symm
  | finite s m e hm =>
    have hplace : Decimal.place? y.toModel.unpack = some (.inner (s.apply (size m e))) := by
      rw [hy]; rfl
    rw [compareInt_eq hplace]
    exact (order?_inner _ _).symm

lemma compare?_eq (m n : Number) : m.compare? n = order? m.place? n.place? := by
  cases m with
  | whole a =>
    cases n with
    | whole b => rw [place?, place?, order?_inner, compare_mul (size_pos Nat.one_pos 0), compare?]
    | real y => exact compare?_whole_real a y
  | real x =>
    cases n with
    | whole b =>
      have hswap : compare? (.real x) (.whole b) =
          (compare? (.whole b) (.real x)).map Ordering.swap := by
        simp only [compare?]
        split
        · rfl
        · split
          · split <;> rfl
          · rfl
      rw [hswap, compare?_whole_real, ← order?_swap]
    | real y => rw [compare?_real, compare_unpack]; rfl

lemma compare?_eq_lt {m n : Number} :
    m.compare? n = some .lt ↔ ∃ p q, m.place? = some p ∧ n.place? = some q ∧ p < q := by
  rw [compare?_eq]
  cases m.place? <;> cases n.place? <;> simp [order?]
  rfl

lemma compare?_eq_eq {m n : Number} :
    m.compare? n = some .eq ↔ ∃ p, m.place? = some p ∧ n.place? = some p := by
  rw [compare?_eq]
  cases m.place? <;> cases n.place? <;> simp [order?, Place.order_eq_iff]
  exact eq_comm

end Value.Number

namespace Value

open Decimal

variable {p : Place} {α : Type} {s strict t : Bool} {x y : Value} {xs ys : List Value}
  {fs gs : Fields}

/-! ## Equal and lesser values -/

def place? (v : Value) : Option Place := v.number?.bind Number.place?

lemma place?_eq_some {v : Value} :
    v.place? = some p ↔ ∃ m, v.number? = some m ∧ m.place? = some p :=
  bind_eq_some_iff

/-- Less if `strict`, else equal. -/
def Step [LT α] (strict : Bool) (p q : α) : Prop := if strict then p < q else p = q

lemma Step.trans [LT α] (htrans : ∀ {p q r : α}, p < q → q < r → p < r)
    {p q r : α} (hpq : Step s p q) (hqr : Step t q r) : Step (s || t) p r := by
  cases s with
  | false =>
    obtain rfl : p = q := hpq
    exact hqr
  | true =>
    cases t with
    | false =>
      obtain rfl : q = r := hqr
      exact hpq
    | true => exact htrans hpq hqr

/-- `xs` is less than `ys` if `strict`, else it has the same items. -/
def ListStep (strict : Bool) (xs ys : List Value) : Prop :=
  if strict then lessList xs ys = .ok true else sameList xs ys = true

/-- The ways in which a value is less than another if `strict`, and else equal to it as an item. -/
inductive Rises : Bool → Value → Value → Prop
  | null : Rises false .null .null
  | text {strict : Bool} {s t : String} (h : Step strict s t) : Rises strict (.text s) (.text t)
  | list {strict : Bool} {xs ys : List Value} (h : ListStep strict xs ys) :
      Rises strict (.list xs) (.list ys)
  | object {fs gs : Fields} (hlength : fs.length = gs.length) (h : sameFields fs gs = true) :
      Rises false (.object fs) (.object gs)
  | number {strict : Bool} {a b : Value} {p q : Place} (ha : a.place? = some p)
      (hb : b.place? = some q) (h : Step strict p q) : Rises strict a b
  | notANumber {a b : Value} (ha : a.isNaN = true) (hb : b.isNaN = true) : Rises false a b

section

variable {a b : Value} {m n : Number} (ha : a.number? = some m) (hb : b.number? = some n)

include ha hb

lemma same_of_numbers : same a b = (m.compare? n == some .eq) := by
  cases a <;> simp only [number?, reduceCtorEq] at ha <;>
    cases b <;> simp only [number?, reduceCtorEq] at hb <;> simp_all [same, number?]

lemma less_of_numbers : less a b = .ok (m.compare? n == some .lt) := by
  cases a <;> simp only [number?, reduceCtorEq] at ha <;>
    cases b <;> simp only [number?, reduceCtorEq] at hb <;> simp_all [less, number?]

end

variable {a b c : Value}

lemma rises_of_same (h : same a b = true) : Rises false a b := by
  cases hm : a.number? with
  | some m =>
    cases hn : b.number? with
    | some n =>
      rw [same_of_numbers hm hn, beq_iff_eq, Number.compare?_eq_eq] at h
      obtain ⟨p, hp, hq⟩ := h
      exact .number (place?_eq_some.mpr ⟨m, hm, hp⟩) (place?_eq_some.mpr ⟨n, hn, hq⟩) rfl
    | none => cases a <;> cases b <;> simp_all [same, number?]
  | none =>
    cases a <;> simp only [number?, reduceCtorEq] at hm <;> cases b <;>
      simp only [same, number?, Bool.false_eq_true, beq_iff_eq, Bool.and_eq_true] at h
    · exact .null
    · exact .text h
    · exact .list h
    · exact .object h.1 h.2

lemma alike_iff : alike a b = true ↔ Rises false a b := by
  rw [alike, Bool.or_eq_true, Bool.and_eq_true]
  constructor
  · rintro (h | ⟨ha, hb⟩)
    · exact rises_of_same h
    · exact .notANumber ha hb
  · intro h
    cases h with
    | null => exact .inl rfl
    | text h => exact .inl (beq_iff_eq.mpr h)
    | list h => exact .inl h
    | object hlength h => exact .inl (by simp [same, hlength, h])
    | notANumber ha hb => exact .inr ⟨ha, hb⟩
    | number ha hb h =>
      obtain ⟨m, hm, hp⟩ := place?_eq_some.mp ha
      obtain ⟨n, hn, hq⟩ := place?_eq_some.mp hb
      left
      rw [same_of_numbers hm hn, beq_iff_eq, Number.compare?_eq_eq]
      exact ⟨_, hp, (show _ = _ from h) ▸ hq⟩

lemma less_iff : less a b = .ok true ↔ Rises true a b := by
  constructor
  · intro h
    cases hm : a.number? with
    | some m =>
      cases hn : b.number? with
      | some n =>
        rw [less_of_numbers hm hn, Except.ok.injEq, beq_iff_eq, Number.compare?_eq_lt] at h
        obtain ⟨p, q, hp, hq, hlt⟩ := h
        exact .number (place?_eq_some.mpr ⟨m, hm, hp⟩) (place?_eq_some.mpr ⟨n, hn, hq⟩) hlt
      | none => cases a <;> cases b <;> simp_all [less, number?]
    | none =>
      cases a <;> simp only [number?, reduceCtorEq] at hm <;> cases b <;>
        simp only [less, number?, reduceCtorEq, Except.ok.injEq, decide_eq_true_eq] at h
      · exact .text h
      · exact .list h
  · intro h
    cases h with
    | text h => exact congrArg Except.ok (decide_eq_true h)
    | list h => exact h
    | number ha hb h =>
      obtain ⟨m, hm, hp⟩ := place?_eq_some.mp ha
      obtain ⟨n, hn, hq⟩ := place?_eq_some.mp hb
      rw [less_of_numbers hm hn, Except.ok.injEq, beq_iff_eq, Number.compare?_eq_lt]
      exact ⟨_, _, hp, hq, h⟩

lemma place?_real_eq_none {x : Float} : (real x).place? = none ↔ (real x).isNaN = true := by
  show Decimal.place? x.toModel.unpack = none ↔ x.toModel.unpack.isNaN = true
  generalize x.toModel.unpack = u
  constructor
  · intro h
    cases u with
    | notANumber => rfl
    | infinity s => cases s <;> cases h
    | _ => cases h
  · intro h
    cases u with
    | notANumber => rfl
    | _ => cases h

lemma isNaN_of_place? (h : a.place? = some p) : a.isNaN = false := by
  cases a with
  | real x =>
    rw [Bool.eq_false_iff, ne_eq, ← place?_real_eq_none, h]
    exact some_ne_none p
  | _ => rfl

lemma Rises.of_place? (h : Rises strict a b)
    (ha : a.place? = some p) : ∃ q, b.place? = some q ∧ Step strict p q := by
  cases h with
  | number ha' hb h =>
    rw [ha', some.injEq] at ha
    exact ⟨_, hb, ha ▸ h⟩
  | notANumber hnan _ => simp [isNaN_of_place? ha] at hnan
  | _ => cases ha

lemma same_iff_of_left (ha : a.place? = some p) : same a b = true ↔ b.place? = some p := by
  constructor
  · intro h
    obtain ⟨q, hq, hpq⟩ := (rises_of_same h).of_place? ha
    rw [hq, show p = q from hpq]
  · intro hb
    have halike : alike a b = true := alike_iff.mpr (.number ha hb rfl)
    rwa [alike, isNaN_of_place? ha, Bool.false_and, Bool.or_false] at halike

lemma same_iff_of_right (hb : b.place? = some p) : same a b = true ↔ a.place? = some p := by
  constructor
  · intro h
    cases rises_of_same h with
    | number ha hb' h =>
      rw [ha, ← hb, hb', show _ = _ from h]
    | notANumber _ hnan => simp [isNaN_of_place? hb] at hnan
    | _ => cases hb
  · intro ha
    exact (same_iff_of_left ha).mpr hb

section

variable {m n : Int}

lemma same_int_iff : same (.int n) a = true ↔ a.place? = some (.inner (n * size 1 0)) :=
  same_iff_of_left rfl

lemma same_int_unique (hm : same (.int m) a = true) (hn : same (.int n) a = true) : m = n := by
  have hplaces := (same_int_iff.mp hm).symm.trans (same_int_iff.mp hn)
  exact eq_of_mul_size (Place.inner.inj (some.inj hplaces))

lemma same_int_symm (h : same (.int n) a = true) : same a (.int n) = true :=
  (same_iff_of_right rfl).mpr (same_int_iff.mp h)

lemma same_int_of_symm (h : same a (.int n) = true) : same (.int n) a = true :=
  same_int_iff.mpr ((same_iff_of_right rfl).mp h)

lemma same_int_of_same (h : same a b = true) (hn : same (.int n) b = true) :
    same a (.int n) = true :=
  (same_iff_of_right rfl).mpr ((same_iff_of_right (same_int_iff.mp hn)).mp h)

end

/-- NaN is equal to NaN as an item, and to nothing else. -/
lemma Rises.of_isNaN (h : Rises strict a b) (ha : a.isNaN = true) :
    strict = false ∧ b.isNaN = true := by
  cases h with
  | number hplace _ _ => simp [isNaN_of_place? hplace] at ha
  | notANumber _ hb => exact ⟨rfl, hb⟩
  | _ => cases ha

/-! ## Items and fields -/

lemma sameList_cons : sameList (x :: xs) (y :: ys) = (x.alike y && sameList xs ys) := rfl

lemma sameFields_iff : sameFields fs gs = true ↔
      ∀ f ∈ fs, ∃ w, Fields.get? gs f.1 = some w ∧ Rises false f.2 w := by
  induction fs with
  | nil => simp [sameFields]
  | cons f fs ih =>
    obtain ⟨k, v⟩ := f
    rw [sameFields, Bool.and_eq_true, ih, forall_mem_cons]
    cases hk : Fields.get? gs k with
    | none => simp
    | some w => simp [← alike_iff, alike]

lemma sameList_of_lessList (h : lessList xs ys = .ok true) : sameList xs ys = false := by
  induction xs generalizing ys with
  | nil =>
    cases ys with
    | nil => cases h
    | cons y ys => rfl
  | cons x xs ih =>
    cases ys with
    | nil => rfl
    | cons y ys =>
      rw [sameList_cons]
      rw [lessList] at h
      split at h
      · rw [ih h, Bool.and_false]
      · rename_i hxy
        rw [Bool.eq_false_iff.mpr hxy, Bool.false_and]

lemma Rises.not_alike (h : Rises true a b) : a.alike b = false := by
  rw [Bool.eq_false_iff, ne_eq, alike_iff]
  intro hequal
  cases h with
  | text hlt =>
    cases hequal with
    | text heq => exact String.lt_irrefl _ (heq ▸ hlt)
    | number ha _ _ => cases ha
    | notANumber ha _ => cases ha
  | list hless =>
    cases hequal with
    | list hsame => simp [ListStep, sameList_of_lessList hless] at hsame
    | number ha _ _ => cases ha
    | notANumber ha _ => cases ha
  | number ha hb hlt =>
    obtain ⟨q, hq, heq⟩ := hequal.of_place? ha
    rw [hb, some.injEq] at hq
    obtain rfl := hq.trans (Eq.symm heq)
    exact Place.lt_irrefl _ hlt

lemma listStep_nil : ListStep strict [] ys ↔ ys.isEmpty = !strict := by
  cases strict <;> cases ys <;> simp [ListStep, lessList, sameList]

lemma not_listStep_nil : ¬ListStep strict (x :: xs) [] := by
  cases strict <;> simp [ListStep, lessList, sameList]

/-- The first items are equal and the others decide, or the first items decide. -/
lemma listStep_cons : ListStep strict (x :: xs) (y :: ys) ↔
      Rises false x y ∧ ListStep strict xs ys ∨ strict = true ∧ Rises true x y := by
  cases strict with
  | false => simp [ListStep, sameList_cons, alike_iff]
  | true =>
    simp only [ListStep, lessList, ↓reduceIte, true_and, ← alike_iff]
    constructor
    · intro h
      split at h
      · exact .inl ⟨‹_›, h⟩
      · exact .inr (less_iff.mp h)
    · rintro (⟨hxy, h⟩ | hxy)
      · rwa [if_pos hxy]
      · rw [hxy.not_alike]
        exact less_iff.mpr hxy

/-! ## Transitivity -/

/-- What holds of a value if it holds of its items or the values of its fields holds of every
value. -/
lemma induction_on {P : Value → Prop} (v : Value)
    (atom : ∀ v, v.list? = none → v.fields? = none → P v)
    (list : ∀ xs, (∀ x ∈ xs, P x) → P (.list xs))
    (object : ∀ fs : Fields, (∀ f ∈ fs, P f.2) → P (.object fs)) : P v := by
  refine @Value.rec P (fun xs => ∀ x ∈ xs, P x) (fun fs => ∀ f ∈ fs, P f.2) (fun f => P f.2)
    ?_ ?_ ?_ ?_ ?_ list object ?_ ?_ ?_ ?_ ?_ v
  · exact atom _ rfl rfl
  · exact fun _ => atom _ rfl rfl
  · exact fun _ => atom _ rfl rfl
  · exact fun _ => atom _ rfl rfl
  · exact fun _ => atom _ rfl rfl
  · exact forall_mem_nil _
  · exact fun x xs hx hxs => forall_mem_cons.mpr ⟨hx, hxs⟩
  · exact forall_mem_nil _
  · exact fun f fs hf hfs => forall_mem_cons.mpr ⟨hf, hfs⟩
  · exact fun _ _ hv => hv

/-- From `a` over any value to any other, rises add up. -/
def Transits (a : Value) : Prop :=
  ∀ b c s t, Rises s a b → Rises t b c → Rises (s || t) a c

lemma transits_list (ih : ∀ x ∈ xs, Transits x) {zs : List Value} (hxy : ListStep s xs ys)
    (hyz : ListStep t ys zs) :
    ListStep (s || t) xs zs := by
  induction xs generalizing ys zs with
  | nil =>
    rw [listStep_nil] at hxy ⊢
    cases ys with
    | nil =>
      have hs : s = false := by simpa using hxy.symm
      rw [listStep_nil] at hyz
      rw [hyz, hs, Bool.false_or]
    | cons y ys =>
      have hs : s = true := by simpa using hxy.symm
      cases zs with
      | nil => exact absurd hyz not_listStep_nil
      | cons z zs => rw [hs]; rfl
  | cons x xs hxs =>
    rw [forall_mem_cons] at ih
    cases ys with
    | nil => exact absurd hxy not_listStep_nil
    | cons y ys =>
      cases zs with
      | nil => exact absurd hyz not_listStep_nil
      | cons z zs =>
        rw [listStep_cons] at hxy hyz ⊢
        rcases hxy with ⟨hxy, hrest⟩ | ⟨rfl, hxy⟩
        · rcases hyz with ⟨hyz, hrest'⟩ | ⟨rfl, hyz⟩
          · exact .inl ⟨ih.1 y z _ _ hxy hyz, hxs ih.2 hrest hrest'⟩
          · exact .inr ⟨Bool.or_true s, ih.1 y z _ _ hxy hyz⟩
        · rcases hyz with ⟨hyz, _⟩ | ⟨rfl, hyz⟩
          · exact .inr ⟨rfl, ih.1 y z _ _ hxy hyz⟩
          · exact .inr ⟨rfl, ih.1 y z _ _ hxy hyz⟩

lemma transits_fields {hs : Fields} (ih : ∀ f ∈ fs, Transits f.2)
    (hfg : sameFields fs gs = true) (hgh : sameFields gs hs = true) : sameFields fs hs = true := by
  rw [sameFields_iff] at hfg hgh ⊢
  intro f hf
  obtain ⟨w, hw, hfw⟩ := hfg f hf
  obtain ⟨g, hg, rfl⟩ := map_eq_some_iff.mp hw
  have hkey : g.1 = f.1 := by simpa using find?_some hg
  obtain ⟨z, hz, hgz⟩ := hgh g (mem_of_find?_eq_some hg)
  exact ⟨z, hkey ▸ hz, ih f hf g.2 z _ _ hfw hgz⟩

lemma transits (a : Value) : Transits a := by
  induction a using induction_on with
  | atom a hlist hfields =>
    intro b c s t hab hbc
    cases hab with
    | null => exact hbc
    | text hst =>
      cases hbc with
      | text htu => exact .text (Step.trans String.lt_trans hst htu)
      | number hb _ _ => cases hb
      | notANumber hb _ => cases hb
    | list _ => cases hlist
    | object _ _ => cases hfields
    | number ha hb hpq =>
      obtain ⟨r, hc, hqr⟩ := hbc.of_place? hb
      exact .number ha hc (Step.trans Place.lt_trans hpq hqr)
    | notANumber ha hb =>
      obtain ⟨rfl, hc⟩ := hbc.of_isNaN hb
      exact .notANumber ha hc
  | list xs ih =>
    intro b c s t hab hbc
    cases hab with
    | list hxy =>
      cases hbc with
      | list hyz => exact .list (transits_list ih hxy hyz)
      | number hb _ _ => cases hb
      | notANumber hb _ => cases hb
    | number ha _ _ => cases ha
    | notANumber ha _ => cases ha
  | object fs ih =>
    intro b c s t hab hbc
    cases hab with
    | object hlength hfg =>
      cases hbc with
      | object hlength' hgh => exact .object (hlength.trans hlength') (transits_fields ih hfg hgh)
      | number hb _ _ => cases hb
      | notANumber hb _ => cases hb
    | number ha _ _ => cases ha
    | notANumber ha _ => cases ha

lemma Rises.trans (hab : Rises s a b) (hbc : Rises t b c) : Rises (s || t) a c :=
  transits a b c s t hab hbc

/-! ## Values that can be compared -/

/-- The values are equal, or one of them is less. -/
def Comparable (a b : Value) : Prop :=
  (a.same b = true ∧ b.same a = true) ∨ (a.less b = .ok true ∧ b.less a = .ok false) ∨
    (a.less b = .ok false ∧ b.less a = .ok true)

instance (x : Outcome Bool) (t : Bool) : Decidable (x = .ok t) :=
  match x with
  | .ok u => decidable_of_iff (u = t) (by simp)
  | .error _ => isFalse (by simp)

instance : DecidableRel Comparable := fun _ _ => inferInstanceAs (Decidable (_ ∨ _ ∨ _))

lemma Comparable.symm (h : Comparable a b) : Comparable b a := by
  rcases h with ⟨hab, hba⟩ | ⟨hab, hba⟩ | ⟨hab, hba⟩
  · exact .inl ⟨hba, hab⟩
  · exact .inr (.inr ⟨hba, hab⟩)
  · exact .inr (.inl ⟨hba, hab⟩)

/-- A value that has no parts. -/
structure IsAtom (v : Value) : Prop where
  noItems : v.list? = none
  noFields : v.fields? = none

instance : DecidablePred IsAtom := fun v =>
  decidable_of_iff (v.list?.isNone = true ∧ v.fields?.isNone = true)
    ⟨fun h => ⟨isNone_iff_eq_none.mp h.1, isNone_iff_eq_none.mp h.2⟩,
      fun h => ⟨isNone_iff_eq_none.mpr h.noItems, isNone_iff_eq_none.mpr h.noFields⟩⟩

lemma IsAtom.alike_self (h : a.IsAtom) : a.alike a = true := by
  rw [alike_iff]
  cases a with
  | null => exact .null
  | bool b => exact .number rfl rfl rfl
  | int n => exact .number rfl rfl rfl
  | real x =>
    cases hplace : (real x).place? with
    | none =>
      have hnan := place?_real_eq_none.mp hplace
      exact .notANumber hnan hnan
    | some p => exact .number hplace hplace rfl
  | text s => exact .text rfl
  | list xs => cases h.noItems
  | object fs => cases h.noFields

lemma IsAtom.alike_symm (ha : a.IsAtom) (h : a.alike b = true) : b.alike a = true := by
  rw [alike_iff] at h ⊢
  cases h with
  | null => exact .null
  | text h => exact .text (Eq.symm h)
  | list _ => cases ha.noItems
  | object _ _ => cases ha.noFields
  | number ha hb h => exact .number hb ha (Eq.symm h)
  | notANumber ha hb => exact .notANumber hb ha

end Value

end ReviewDesk
