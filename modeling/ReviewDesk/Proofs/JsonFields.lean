import Mathlib.Data.List.TakeDrop
import ReviewDesk.Proofs.Unified
import ReviewDesk.Value.Json

/-!
# Objects as JSON

An object of numbers and texts is written as text that is read as the object.
-/

namespace ReviewDesk.Json

open List Option Nat

open Decimal (natDigits)

open Text (hexText hexDigit?)

variable {s : String} {c : Char} {p : Place} {v : Value} {fs : List (String × Value)}
  (cs : Chars) (negative : Bool) (n k : Nat)

/-! ## Texts -/

def escaped (s : String) : Chars := s.toList.flatMap escapeChar

lemma toList_writeString (s : String) : (writeString s).toList = '"' :: (escaped s ++ ['"']) :=
  String.toList_ofList

lemma hexText_succ {width : Nat} (hwidth : 0 < width) :
    hexText (width + 1) n = hexText width (n / 16) ++ [Nat.digitChar (n % 16)] := by
  unfold hexText
  by_cases hsmall : n < 16
  · have hzero : n / 16 = 0 := by omega
    have hself : n % 16 = n := by omega
    have hwidth : width - 1 + 1 = width := by omega
    rw [Nat.toDigits_of_lt_base hsmall, hzero, Nat.toDigits_zero, hself]
    simp only [length_singleton, Nat.add_sub_cancel]
    rw [← replicate_succ', hwidth]
  · rw [Nat.toDigits_of_base_le (by decide) (by omega)]
    simp only [length_append, length_singleton, Nat.add_sub_add_right, append_assoc]

lemma hexDigit?_digitChar : ∀ m < 16, hexDigit? (Nat.digitChar m) = some m := by decide

lemma hexText_four {n : Nat} (hn : n < 65536) : ∃ a b c d, hexText 4 n = [a, b, c, d] ∧
    ∀ rest, fourHex? (a :: b :: c :: d :: rest) = some n := by
  have hone : hexText 1 (n / 16 / 16 / 16) = [Nat.digitChar (n / 16 / 16 / 16)] := by
    rw [hexText, toDigits_of_lt_base (by omega)]
    rfl
  refine ⟨Nat.digitChar (n / 16 / 16 / 16), Nat.digitChar (n / 16 / 16 % 16),
    Nat.digitChar (n / 16 % 16), Nat.digitChar (n % 16), ?_, fun rest => ?_⟩
  · rw [hexText_succ _ (by decide), hexText_succ _ (by decide), hexText_succ _ (by decide), hone]
    rfl
  · have hvalue : ((n / 16 / 16 / 16 * 16 + n / 16 / 16 % 16) * 16 + n / 16 % 16) * 16 + n % 16 =
        n := by omega
    simp only [fourHex?, hexDigit?_digitChar _ (show n / 16 / 16 / 16 < 16 by omega),
      hexDigit?_digitChar _ (mod_lt _ (show 0 < 16 by decide)), bind_eq_bind,
      bind_some, hvalue]
    rfl

lemma readString_unit {n : Nat} (hn : n < 0xD800 ∨ 0xDFFF < n ∧ n < 65536)
    {rest : Chars} (hrest : rest ≠ []) (start fuel k : Nat) (acc : Chars) :
    readString start (fuel + 1) k ('\\' :: 'u' :: (hexText 4 n ++ rest)) acc =
      readString start fuel (k + 6) rest (Char.ofNat n :: acc) := by
  obtain ⟨a, b, c, d, hfour, hread⟩ := hexText_four (show n < 65536 by omega)
  have hhigh : ¬(0xD800 ≤ n ∧ n ≤ 0xDBFF) := by omega
  have hunit : unitChar n = Char.ofNat n := by
    rw [unitChar, if_neg (by simp; omega)]
  rw [hfour, readString.eq_def]
  simp [hrest, hread, hhigh, hunit]

lemma readString_pair {high low : Nat} (hhigh : 0xD800 ≤ high ∧ high ≤ 0xDBFF)
    (hlow : 0xDC00 ≤ low ∧ low ≤ 0xDFFF) {rest : Chars} (hrest : rest ≠ [])
    (start fuel k : Nat) (acc : Chars) :
    readString start (fuel + 1) k
        ('\\' :: 'u' :: (hexText 4 high ++ '\\' :: 'u' :: (hexText 4 low ++ rest))) acc =
      readString start fuel (k + 12) rest
        (Char.ofNat (0x10000 + (high - 0xD800) * 0x400 + (low - 0xDC00)) :: acc) := by
  obtain ⟨a, b, c, d, hfour, hread⟩ := hexText_four (show high < 65536 by omega)
  obtain ⟨a', b', c', d', hfour', hread'⟩ := hexText_four (show low < 65536 by omega)
  rw [hfour, hfour', readString.eq_def]
  simp [hrest, hread, hread', hhigh, hlow]

lemma units_cases (c : Char) : ((c.toNat < 0xD800 ∨ 0xDFFF < c.toNat ∧ c.toNat < 65536) ∧
      units c = [c.toNat]) ∨
    ∃ high low, (0xD800 ≤ high ∧ high ≤ 0xDBFF) ∧ (0xDC00 ≤ low ∧ low ≤ 0xDFFF) ∧
      0x10000 + (high - 0xD800) * 0x400 + (low - 0xDC00) = c.toNat ∧ units c = [high, low] := by
  have hvalid : c.toNat < 0xD800 ∨ 0xDFFF < c.toNat ∧ c.toNat < 0x110000 := c.valid
  by_cases hsmall : c.toNat < 0x10000
  · exact .inl ⟨by omega, if_pos hsmall⟩
  · exact .inr ⟨_, _, by omega, by omega, by omega, if_neg hsmall⟩

/-- A character is read as it was written, if something comes after it. -/
lemma readString_escapeChar (c : Char) {rest : Chars} (hrest : rest ≠ [])
    (start fuel k : Nat) (acc : Chars) :
    ∃ k', readString start (fuel + 1) k (escapeChar c ++ rest) acc =
      readString start fuel k' rest (c :: acc) := by
  fun_cases escapeChar c
  case case8 hquote hslash _ _ _ _ _ hshown =>
    refine ⟨k + 1, ?_⟩
    simp only [Bool.and_eq_true, decide_eq_true_eq] at hshown
    rw [singleton_append, readString.eq_def]
    simp only [if_neg hquote, if_neg hslash, if_neg (show ¬c.toNat < 32 by omega)]
  case case9 =>
    rcases units_cases c with ⟨hunit, hunits⟩ | ⟨high, low, hhigh, hlow, hchar, hunits⟩
    · have hread := readString_unit hunit hrest start fuel k acc
      rw [Char.ofNat_toNat] at hread
      exact ⟨k + 6, by simpa [hunits] using hread⟩
    · have hread := readString_pair hhigh hlow hrest start fuel k acc
      rw [hchar, Char.ofNat_toNat] at hread
      exact ⟨k + 12, by simpa [hunits] using hread⟩
  all_goals
    rename_i hc
    subst hc
    exact ⟨k + 2, rfl⟩

lemma escapeChar_ne_nil (c : Char) : escapeChar c ≠ [] := by
  fun_cases escapeChar c
  case case9 => rcases units_cases c with ⟨_, h⟩ | ⟨_, _, _, _, _, h⟩ <;> simp [h]
  all_goals exact cons_ne_nil _ _

lemma readString_escaped (cs : Chars) (start fuel : Nat)
    (hfuel : (cs.flatMap escapeChar).length < fuel) (k : Nat) (rest acc : Chars) :
    ∃ k', readString start fuel k (cs.flatMap escapeChar ++ '"' :: rest) acc =
      .ok (acc.reverse ++ cs, ⟨k', rest⟩) := by
  induction cs generalizing fuel k acc with
  | nil =>
    obtain ⟨fuel, rfl⟩ : ∃ m, fuel = m + 1 := ⟨fuel - 1, by simp at hfuel; omega⟩
    exact ⟨k + 1, by simp [readString]⟩
  | cons c cs ih =>
    rw [flatMap_cons, length_append] at hfuel
    have hpos := length_pos_iff.mpr (escapeChar_ne_nil c)
    obtain ⟨fuel, rfl⟩ : ∃ m, fuel = m + 1 := ⟨fuel - 1, by omega⟩
    obtain ⟨k', hchar⟩ := readString_escapeChar c
      (show cs.flatMap escapeChar ++ '"' :: rest ≠ [] by simp) start fuel k acc
    obtain ⟨k'', hrest⟩ := ih fuel (by omega) k' (c :: acc)
    refine ⟨k'', ?_⟩
    rw [flatMap_cons, append_assoc, hchar, hrest, reverse_cons, append_assoc]
    rfl

lemma readString_text (s : String) (start k : Nat) (rest : Chars) :
    ∃ k', readString start ((escaped s ++ '"' :: rest).length + 1) k (escaped s ++ '"' :: rest) [] =
      .ok (s.toList, ⟨k', rest⟩) :=
  readString_escaped s.toList start _ (by rw [length_append, escaped]; omega) k rest []

/-! ## Numbers -/

lemma digitsValue_natDigits : digitsValue (natDigits n) = n := by
  have hdigits : ∀ (cs : Chars) (m : Nat),
      cs.foldl (fun n c => n * 10 + (c.toNat - 48)) m = Nat.ofDigitChars 10 cs m := by
    intro cs m
    rw [Nat.ofDigitChars_eq_foldl]
    congr 1
    funext m c
    rw [Nat.mul_comm]
    rfl
  rw [digitsValue, hdigits]
  exact Nat.ofDigitChars_ten_toDigits

lemma natDigits_eq_cons : ∃ d ds, natDigits n = d :: ds ∧ d.isDigit = true := by
  obtain ⟨d, ds, hds⟩ := exists_cons_of_ne_nil (toDigits_ne_nil (n := n) (b := 10))
  exact ⟨d, ds, hds, Diff.isDigit_of_mem_natDigits (hds ▸ mem_cons_self ..)⟩

lemma natDigits_head {n : Nat} (hn : n ≠ 0) : ∃ c cs, natDigits n = c :: cs ∧ c ≠ '0' := by
  induction n using Nat.strongRecOn with
  | _ n ih =>
    by_cases hsmall : n < 10
    · refine ⟨Nat.digitChar n, [], toDigits_of_lt_base hsmall, ?_⟩
      have hdigit : ∀ m < 10, m ≠ 0 → Nat.digitChar m ≠ '0' := by decide
      exact hdigit n hsmall hn
    · obtain ⟨c, cs, hcs, hc⟩ := ih (n / 10) (by omega) (by omega)
      refine ⟨c, cs ++ [Nat.digitChar (n % 10)], ?_, hc⟩
      rw [natDigits, toDigits_of_base_le (by decide) (by omega)]
      rw [natDigits] at hcs
      rw [hcs]
      rfl

lemma ne_of_isDigit {x : Char} (hc : c.isDigit = true) (hx : x.isDigit = false) : c ≠ x := by
  rintro rfl
  rw [hc] at hx
  cases hx

lemma toNat_of_isDigit (h : c.isDigit = true) : 48 ≤ c.toNat ∧ c.toNat ≤ 57 := by
  simp only [Char.isDigit, Bool.and_eq_true, decide_eq_true_eq] at h
  exact ⟨UInt32.le_iff_toNat_le.mp h.1, UInt32.le_iff_toNat_le.mp h.2⟩

/-- What comes after a field. -/
def Follows (c : Char) : Prop := c = ',' ∨ c = '\x7d'

lemma Follows.isDigit (h : Follows c) : c.isDigit = false := by
  rcases h with rfl | rfl <;> decide

lemma spanDigits_natDigits (hc : c.isDigit = false) (rest : Chars) :
    spanDigits (natDigits n ++ c :: rest) = (natDigits n, c :: rest) := by
  have hall : ∀ x ∈ natDigits n, x.isDigit = true := fun x hx => Diff.isDigit_of_mem_natDigits hx
  rw [spanDigits, span_eq_takeWhile_dropWhile, takeWhile_append_of_pos hall,
    dropWhile_append_of_pos hall, takeWhile_cons_of_neg (by simp [hc]),
    dropWhile_cons_of_neg (by simp [hc]), append_nil]

def signed : Bool × Chars :=
  match cs with
  | '-' :: r => (true, r)
  | r => (false, r)

/-- The digits before the point: those at the head, or one zero. -/
def wholeDigits : Chars :=
  match cs with
  | '0' :: _ => ['0']
  | _ => (spanDigits cs).1

def fractionDigits : Chars :=
  match cs with
  | '.' :: r => (spanDigits r).1
  | _ => []

lemma readNumber_whole {negative : Bool} {body : Chars}
    (hsigned : signed p.rest = (negative, body)) (hwhole : wholeDigits body ≠ [])
    (hshort : (wholeDigits body).length ≤ 4300)
    (hfraction : fractionDigits (body.drop (wholeDigits body).length) = [])
    (hexponent : exponent? (body.drop (wholeDigits body).length) = none) :
    readNumber p = .ok (.int (if negative then -(digitsValue (wholeDigits body) : Int)
        else digitsValue (wholeDigits body)),
      p.skip ((if negative then 1 else 0) + (wholeDigits body).length)) := by
  -- The reader again, with names for the parts of a number, so that the hypotheses can be put in.
  have hparts : readNumber p =
      let negative := (signed p.rest).1
      let whole := wholeDigits (signed p.rest).2
      if whole.isEmpty then .error ⟨.expectedValue, p.at_⟩
      else
        let rest := (signed p.rest).2.drop whole.length
        let fraction := fractionDigits rest
        let fractionLength := if fraction.isEmpty then 0 else fraction.length + 1
        let exponent := exponent? (rest.drop fractionLength)
        let length :=
          (if negative then 1 else 0) + whole.length + fractionLength + (exponent.map (·.1)).getD 0
        if fraction.isEmpty && exponent.isNone then
          if 4300 < whole.length then .error ⟨.longNumber, p.at_⟩
          else .ok (.int (if negative then -(digitsValue whole : Int) else digitsValue whole),
            p.skip length)
        else
          let e := (exponent.map (·.2)).getD 0 - fraction.length
          let x := Decimal.floatOfDigits (digitsValue (whole ++ fraction)) e
          .ok (.real (if negative then -x else x), p.skip length) := rfl
  rw [hparts, hsigned]
  simp only [List.isEmpty_iff, hwhole, if_false, hfraction, if_true, drop_zero, hexponent,
    isEmpty_nil, isNone_none, Bool.and_self, map_none, getD_none,
    Nat.add_zero]
  rw [if_neg (by omega)]

lemma wholeDigits_natDigits (hc : c.isDigit = false) (rest : Chars) :
    wholeDigits (natDigits n ++ c :: rest) = natDigits n := by
  by_cases hn : n = 0
  · subst hn
    rfl
  · obtain ⟨d, ds, hds, hd⟩ := natDigits_head hn
    have hspan := congrArg Prod.fst (spanDigits_natDigits n hc rest)
    rw [hds] at hspan ⊢
    unfold wholeDigits
    split
    · rename_i heq
      exact absurd (List.cons.inj heq).1 hd
    · exact hspan

lemma signed_natDigits (rest : Chars) :
    signed ((if negative then ['-'] else []) ++ (natDigits n ++ rest)) =
      (negative, natDigits n ++ rest) := by
  cases negative with
  | true => rfl
  | false =>
    obtain ⟨d, ds, hds, hd⟩ := natDigits_eq_cons n
    rw [hds]
    unfold signed
    split
    · rename_i heq
      exact absurd (List.cons.inj heq).1 (ne_of_isDigit hd rfl)
    · rfl

lemma readNumber_natDigits (hshort : (natDigits n).length ≤ 4300) (hc : Follows c) (rest : Chars) :
    ∃ k', readNumber ⟨k, (if negative then ['-'] else []) ++ (natDigits n ++ c :: rest)⟩ =
      .ok (.int (if negative then -(n : Int) else n), ⟨k', c :: rest⟩) := by
  have hwhole := wholeDigits_natDigits n hc.isDigit rest
  have hexponent : exponent? (c :: rest) = none := by
    rcases hc with rfl | rfl <;> rfl
  have hfraction : fractionDigits (c :: rest) = [] := by
    rcases hc with rfl | rfl <;> rfl
  rw [readNumber_whole (signed_natDigits negative n _) (by rw [hwhole]; exact Nat.toDigits_ne_nil)
    (by rw [hwhole]; exact hshort) (by rw [hwhole, drop_left]; exact hfraction)
    (by rw [hwhole, drop_left]; exact hexponent), hwhole, digitsValue_natDigits]
  cases negative with
  | true => exact ⟨_, by simp [Place.skip, Nat.add_comm 1]; rfl⟩
  | false => exact ⟨_, by simp [Place.skip]; rfl⟩

lemma readWord?_natDigits (rest : Chars) :
    readWord? ⟨k, (if negative then ['-'] else []) ++ (natDigits n ++ rest)⟩ = none := by
  obtain ⟨d, ds, hds, hd⟩ := natDigits_eq_cons n
  have hne (x : Char) (hx : x.isDigit = false) : x ≠ d := (ne_of_isDigit hd hx).symm
  rw [hds, readWord?, findSome?_eq_none_iff]
  simp only [words, forall_mem_cons]
  cases negative with
  | true => simp [hne 'I' rfl]
  | false => simp [hne 'n' rfl, hne 't' rfl, hne 'f' rfl, hne 'N' rfl, hne 'I' rfl, hne '-' rfl]

lemma readValue_other {r : Chars} (hp : p.rest = c :: r)
    (hquote : c ≠ '"') (hlist : c ≠ '[') (hobject : c ≠ '\x7b') (hword : readWord? p = none)
    (fuel : Nat) : readValue (fuel + 1) p = readNumber p := by
  rw [readValue.eq_def]
  simp only
  split
  all_goals rename_i heq
  all_goals rw [hp] at heq
  · cases heq
  · exact absurd (List.cons.inj heq).1 hquote
  · exact absurd (List.cons.inj heq).1 hlist
  · exact absurd (List.cons.inj heq).1 hobject
  · rw [hword]

lemma readValue_natDigits (fuel : Nat)
    (hshort : (natDigits n).length ≤ 4300) (hc : Follows c) (rest : Chars) :
    ∃ k', readValue (fuel + 1) ⟨k, (if negative then ['-'] else []) ++ (natDigits n ++ c :: rest)⟩ =
      .ok (.int (if negative then -(n : Int) else n), ⟨k', c :: rest⟩) := by
  obtain ⟨k', hk'⟩ := readNumber_natDigits negative n k hshort hc rest
  have hword := readWord?_natDigits negative n k (c :: rest)
  obtain ⟨d, ds, hds, hd⟩ := natDigits_eq_cons n
  refine ⟨k', ?_⟩
  rw [← hk']
  cases negative with
  | true =>
    exact readValue_other (c := '-') rfl (by decide) (by decide) (by decide) hword fuel
  | false =>
    rw [hds] at hword ⊢
    exact readValue_other (c := d) rfl (ne_of_isDigit hd rfl) (ne_of_isDigit hd rfl)
      (ne_of_isDigit hd rfl) hword fuel

/-- A number that is not too long, or a text. -/
inductive Simple : Value → Prop
  | int {n : Int} (short : (natDigits n.natAbs).length ≤ 4300) : Simple (.int n)
  | text (s : String) : Simple (.text s)

lemma toList_intText (n : Int) :
    (Value.intText n).toList = (if n < 0 then ['-'] else []) ++ natDigits n.natAbs := by
  unfold Value.intText
  split
  · rw [String.toList_append]
    exact congrArg (['-'] ++ ·) String.toList_ofList
  · rw [String.toList_ofList]
    rfl

lemma readValue_simple (hv : Simple v) (fuel k : Nat) (hc : Follows c) (rest : Chars) :
    ∃ k', readValue (fuel + 1) ⟨k, (write v).toList ++ c :: rest⟩ = .ok (v, ⟨k', c :: rest⟩) := by
  cases hv with
  | @int n short =>
    have hsign : (if n < 0 then ['-'] else []) = (if decide (n < 0) then ['-'] else []) := by simp
    have hvalue : (if decide (n < 0) then -(n.natAbs : Int) else n.natAbs) = n := by
      simp only [decide_eq_true_eq]
      split <;> omega
    rw [write, toList_intText, hsign, append_assoc]
    obtain ⟨k', hk'⟩ := readValue_natDigits (decide (n < 0)) n.natAbs k fuel short hc rest
    rw [hvalue] at hk'
    exact ⟨k', hk'⟩
  | text s =>
    obtain ⟨k', hstring⟩ := readString_text s k (k + 1) (c :: rest)
    refine ⟨k', ?_⟩
    rw [write, toList_writeString, cons_append, append_assoc, singleton_append, readValue.eq_def]
    simp only [hstring, String.ofList_toList]

/-! ## Fields -/

lemma skipGap_cons (h : isGap c = false) (n : Nat) (r : Chars) :
    skipGap n (c :: r) = ⟨n, c :: r⟩ := by
  rw [skipGap, if_neg (by simp [h])]

lemma Simple.head (hv : Simple v) : ∃ c r, (write v).toList = c :: r ∧ isGap c = false := by
  cases hv with
  | @int n short =>
    obtain ⟨d, ds, hds, hd⟩ := natDigits_eq_cons n.natAbs
    rw [write, toList_intText, hds]
    split
    · exact ⟨'-', _, rfl, by decide⟩
    · refine ⟨d, _, rfl, ?_⟩
      simp [isGap, ne_of_isDigit hd (show ' '.isDigit = false from rfl),
        ne_of_isDigit hd (show '\t'.isDigit = false from rfl),
        ne_of_isDigit hd (show '\n'.isDigit = false from rfl),
        ne_of_isDigit hd (show '\r'.isDigit = false from rfl)]
  | text s =>
    rw [write, toList_writeString]
    exact ⟨'"', _, rfl, by decide⟩

def fieldsText : List (String × Value) → Chars
  | [] => []
  | [f] => '"' :: (escaped f.1 ++ '"' :: ':' :: (write f.2).toList)
  | f :: g :: fs =>
    '"' :: (escaped f.1 ++ '"' :: ':' :: ((write f.2).toList ++ ',' :: fieldsText (g :: fs)))

lemma fieldsText_head (hne : fs ≠ []) : ∃ r, fieldsText fs = '"' :: r := by
  match fs, hne with
  | [f], _ => exact ⟨_, rfl⟩
  | f :: g :: fs, _ => exact ⟨_, rfl⟩

lemma length_le_fieldsText (fs : List (String × Value)) : fs.length ≤ (fieldsText fs).length := by
  induction fs with
  | nil => exact Nat.le_refl _
  | cons f fs ih =>
    cases fs with
    | nil => simp [fieldsText]
    | cons g fs =>
      simp only [fieldsText, length_cons, length_append] at ih ⊢
      omega

lemma toList_write_object (fs : List (String × Value)) :
    (write (.object fs)).toList = '\x7b' :: (fieldsText fs ++ ['\x7d']) := by
  have hfields : (",".intercalate (writeFields fs)).toList = fieldsText fs := by
    rw [String.toList_intercalate]
    induction fs with
    | nil => rfl
    | cons f fs ih =>
      have hfirst : (writeString f.1 ++ ":" ++ write f.2).toList =
          '"' :: (escaped f.1 ++ '"' :: ':' :: (write f.2).toList) := by
        rw [String.toList_append, String.toList_append, toList_writeString]
        simp
      cases fs with
      | nil =>
        rw [writeFields, writeFields, map_singleton, intercalate_singleton, hfirst]
        rfl
      | cons g fs =>
        rw [writeFields, map_cons, hfirst, fieldsText, ← ih, writeFields, map_cons,
          intercalate_cons_cons]
        simp
  rw [write, String.toList_append, String.toList_append, hfields]
  rfl

lemma readFields_step {f : String × Value} (hf : Simple f.2) (fuel k : Nat)
    (hc : Follows c) (rest : Chars) (acc : List (String × Value)) : ∃ k', readFields (fuel + 2)
        ⟨k, '"' :: (escaped f.1 ++ '"' :: ':' :: ((write f.2).toList ++ c :: rest))⟩ acc =
      if c = ',' then readFields (fuel + 1) (skipGap (k' + 1) rest) (f :: acc)
      else .ok (.object (Fields.merge [] (f :: acc).reverse), ⟨k' + 1, rest⟩) := by
  obtain ⟨x, r, hx, hgap⟩ := hf.head
  obtain ⟨m, hstring⟩ := readString_text f.1 k (k + 1) (':' :: ((write f.2).toList ++ c :: rest))
  obtain ⟨k', hk'⟩ := readValue_simple hf fuel (m + 1) hc rest
  refine ⟨k', ?_⟩
  rw [readFields.eq_def]
  have hskip (n : Nat) : skipGap n ((write f.2).toList ++ c :: rest) =
      ⟨n, (write f.2).toList ++ c :: rest⟩ := by
    rw [hx]
    exact skipGap_cons hgap n _
  have hcolon : isGap ':' = false := by decide
  simp only [hstring, Place.gap, skipGap_cons hcolon, hskip, hk', String.ofList_toList]
  rcases hc with rfl | rfl
  · rw [skipGap_cons (by decide)]
    rfl
  · rw [skipGap_cons (by decide)]
    rfl

lemma readFields_simple (hne : fs ≠ [])
    (h : ∀ f ∈ fs, Simple f.2) (fuel : Nat) (hfuel : fs.length < fuel) (k : Nat)
    (rest : Chars) (acc : List (String × Value)) :
    ∃ k', readFields fuel ⟨k, fieldsText fs ++ '\x7d' :: rest⟩ acc =
      .ok (.object (Fields.merge [] (acc.reverse ++ fs)), ⟨k', rest⟩) := by
  induction fs generalizing fuel k acc with
  | nil => exact absurd rfl hne
  | cons f fs ih =>
    obtain ⟨fuel, rfl⟩ : ∃ m, fuel = m + 2 := ⟨fuel - 2, by simp at hfuel; omega⟩
    have hf := h f (.head _)
    cases fs with
    | nil =>
      obtain ⟨k', hk'⟩ := readFields_step hf fuel k (.inr rfl) rest acc
      refine ⟨k' + 1, ?_⟩
      rw [if_neg (by decide)] at hk'
      simpa [fieldsText] using hk'
    | cons g fs =>
      obtain ⟨k', hk'⟩ := readFields_step hf fuel k (.inl rfl)
        (fieldsText (g :: fs) ++ '\x7d' :: rest) acc
      rw [if_pos rfl] at hk'
      obtain ⟨r, hr⟩ := fieldsText_head (show g :: fs ≠ [] by simp)
      have hskip : skipGap (k' + 1) (fieldsText (g :: fs) ++ '\x7d' :: rest) =
          ⟨k' + 1, fieldsText (g :: fs) ++ '\x7d' :: rest⟩ := by
        rw [hr]
        exact skipGap_cons (by decide) _ _
      obtain ⟨k'', hk''⟩ := ih (by simp) (fun x hx => h x (.tail _ hx))
        (fuel + 1) (by simp at hfuel ⊢; omega) (k' + 1) (f :: acc)
      rw [hskip, hk''] at hk'
      refine ⟨k'', ?_⟩
      simpa [fieldsText] using hk'

lemma read_write_object (hne : fs ≠ []) (h : ∀ f ∈ fs, Simple f.2) :
    read (write (.object fs)).toList = .ok (.object (Fields.merge [] fs)) := by
  obtain ⟨r, hr⟩ := fieldsText_head hne
  have hlength := length_le_fieldsText fs
  obtain ⟨k, hk⟩ := readFields_simple hne h
    (2 * ('\x7b' :: (fieldsText fs ++ ['\x7d'])).length + 1)
    (by simp only [length_cons, length_append]; omega) 1 [] []
  have hvalue : readValue (2 * ('\x7b' :: (fieldsText fs ++ ['\x7d'])).length + 2)
      ⟨0, '\x7b' :: (fieldsText fs ++ ['\x7d'])⟩ = .ok (.object (Fields.merge [] fs), ⟨k, []⟩) := by
    rw [reverse_nil, nil_append] at hk
    rw [← hk, hr, readValue.eq_def]
    simp only [cons_append, skipGap_cons (show isGap '"' = false by decide)]
    rfl
  have hmark : ¬('\x7b' :: (fieldsText fs ++ ['\x7d'])).head? = some (Char.ofNat 0xFEFF) := by
    rw [head?_cons]
    decide
  rw [toList_write_object, read, if_neg hmark, skipGap_cons (by decide), hvalue]
  rfl

end ReviewDesk.Json
