import ReviewDesk.Text.Basic

/-!
# Decimal numbers

`shortest` gives the fewest decimal digits that identify a double among all doubles, and of those
the ones nearest to it. `floatText` writes them, positionally for exponents from -4 to 15.
-/

namespace ReviewDesk.Decimal

/-!
## Floating-point numbers as exact values

`Binary.ofFloat` takes a finite double apart into sign, significand and exponent, so that rounding
and printing can be done in exact integer arithmetic.
-/

/-- The number `significand * 2 ^ exponent`, with a sign. -/
structure Binary where
  negative : Bool
  significand : Nat
  exponent : Int
  /-- The next smaller double is only half as far away as the next larger one. -/
  atBoundary : Bool
  deriving DecidableEq, Repr

def Binary.ofFloat (x : Float) : Binary :=
  let bits := x.toBits.toNat
  let fraction := bits % Nat.pow 2 52
  let field : Nat := bits / Nat.pow 2 52 % Nat.pow 2 11
  let negative := bits / Nat.pow 2 63 == 1
  if field == 0 then ⟨negative, fraction, -1074, false⟩
  else ⟨negative, fraction + Nat.pow 2 52, (field : Int) - 1075, fraction == 0 && field != 1⟩

def Binary.quotient (b : Binary) : Nat × Nat :=
  if 0 ≤ b.exponent then (b.significand * Nat.pow 2 b.exponent.toNat, 1)
  else (b.significand, Nat.pow 2 (-b.exponent).toNat)

def truncate (x : Float) : Int :=
  let b := Binary.ofFloat x
  let (n, d) := b.quotient
  if b.negative then -((n / d : Nat) : Int) else (n / d : Nat)

/-- `n / d` to the nearest natural, a half to the even neighbour. -/
def roundDiv (n d : Nat) : Nat :=
  let q := n / d
  let r := n % d
  if 2 * r < d then q else if d < 2 * r then q + 1 else if q % 2 == 0 then q else q + 1

/-- Compares an integer with a finite double exactly. -/
def compareInt (n : Int) (x : Float) : Ordering :=
  let b := Binary.ofFloat x
  let (p, d) := b.quotient
  let v : Int := if b.negative then -(p : Int) else p
  compare (n * d) v

/-- The double nearest to an integer, a half going to the even significand. -/
def floatOfInt (n : Int) : Float :=
  if n < 0 then -(Float.ofScientific n.natAbs false 0) else Float.ofScientific n.toNat false 0

/-! ## A fixed number of decimal places

`fixedText x n` writes a double with `n` places and `roundPlaces x n` is the double nearest to what
would be written. Both round the exact value, a half going to the even digit.
-/

/-- The magnitude of a finite double in units of `10 ^ -places`. -/
def inUnits (x : Float) (places : Nat) : Nat :=
  let (n, d) := (Binary.ofFloat x).quotient
  roundDiv (n * Nat.pow 10 places) d

def fixedText (x : Float) (places : Nat) : String :=
  if x.isNaN then "nan"
  else if x.isInf then (if x < 0 then "-inf" else "inf")
  else
    let ds := Nat.toDigits 10 (inUnits x places)
    let padded := List.replicate (places + 1 - ds.length) '0' ++ ds
    let whole := padded.take (padded.length - places)
    let fraction := padded.drop (padded.length - places)
    let body := if places == 0 then whole else whole ++ '.' :: fraction
    String.ofList (if (Binary.ofFloat x).negative then '-' :: body else body)

def roundPlaces (x : Float) (places : Nat) : Float :=
  if x.isNaN || x.isInf then x
  else
    let y := Float.ofScientific (inUnits x places) true places
    if (Binary.ofFloat x).negative then -y else y

/-! ## The shortest decimal that reads back -/

/-- The number `0.d₁d₂… * 10 ^ point`, the digits being those of `digits`. -/
structure Digits where
  digits : Nat
  point : Int
  deriving DecidableEq, Repr

def natDigits (n : Nat) : Chars := Nat.toDigits 10 n

/-- The magnitude `n / d` lies below `10 ^ k`. -/
def belowPower (n d : Nat) (k : Int) : Bool :=
  if 0 ≤ k then n < d * Nat.pow 10 k.toNat else n * Nat.pow 10 (-k).toNat < d

/-- Moves `k` until `10 ^ (k - 1) ≤ n / d < 10 ^ k`. -/
def adjustPoint (n d : Nat) : Nat → Int → Int
  | 0, k => k
  | fuel + 1, k =>
    if !belowPower n d k then adjustPoint n d fuel (k + 1)
    else if belowPower n d (k - 1) then adjustPoint n d fuel (k - 1)
    else k

/-- The power of ten just above `n / d`, starting from the length of both numbers. -/
def pointOf (n d : Nat) : Int :=
  adjustPoint n d 8 ((natDigits n).length - (natDigits d).length)

/-- The grid of numbers with `count` digits, next to a magnitude `v / d` with neighbours halfway at
`lo / d` and `hi / d`: the point of the grid that rounds to the magnitude, if there is one. -/
def gridHit (v lo hi d : Nat) (closed : Bool) (point : Int) (count : Nat) : Option Nat :=
  let up := (count : Int) - point
  let scale := if 0 ≤ up then Nat.pow 10 up.toNat else 1
  let unit := if 0 ≤ up then 1 else Nat.pow 10 (-up).toNat
  let den := d * unit
  let below := v * scale / den
  let fits (g : Nat) : Bool :=
    if closed then lo * scale ≤ g * den && g * den ≤ hi * scale
    else lo * scale < g * den && g * den < hi * scale
  let nearest := roundDiv (v * scale) den
  let other := if nearest == below then below + 1 else below
  if fits nearest then some nearest else if fits other then some other else none

def firstHit (v lo hi d : Nat) (closed : Bool) (point : Int) : Nat → Nat → Nat × Nat
  | 0, count => (v, count)
  | fuel + 1, count =>
    match gridHit v lo hi d closed point count with
    | some g => (g, count)
    | none => firstHit v lo hi d closed point fuel (count + 1)

/-- Drops the zeros at the end of a number; `fuel` bounds how many. -/
def dropZeros : Nat → Nat → Nat
  | 0, n => n
  | fuel + 1, n => if n != 0 && n % 10 == 0 then dropZeros fuel (n / 10) else n

def shortest (b : Binary) : Digits :=
  let e := b.exponent - 2
  let scale := if 0 ≤ e then Nat.pow 2 e.toNat else 1
  let d := if 0 ≤ e then 1 else Nat.pow 2 (-e).toNat
  let v := 4 * b.significand * scale
  let lo := (4 * b.significand - if b.atBoundary then 1 else 2) * scale
  let hi := (4 * b.significand + 2) * scale
  let point := pointOf v d
  let (g, count) := firstHit v lo hi d (b.significand % 2 == 0) point 18 1
  let shown := natDigits g
  ⟨dropZeros 20 g, point + (shown.length : Int) - count⟩

/-- Positional notation with a point, or one digit before the point and an exponent. -/
def Digits.text (x : Digits) : Chars :=
  let ds := natDigits x.digits
  let e := x.point - 1
  if -4 ≤ e && e < 16 then
    if x.point ≤ 0 then '0' :: '.' :: List.replicate (-x.point).toNat '0' ++ ds
    else
      let p := x.point.toNat
      if ds.length ≤ p then ds ++ List.replicate (p - ds.length) '0' ++ ['.', '0']
      else ds.take p ++ '.' :: ds.drop p
  else
    let mantissa := match ds with
      | [c] => [c]
      | c :: r => c :: '.' :: r
      | [] => []
    let shown := natDigits e.natAbs
    let padded := if shown.length < 2 then '0' :: shown else shown
    mantissa ++ 'e' :: (if e < 0 then '-' else '+') :: padded

/-- The text of a double: `0.1`, `5.0`, `1e+16`, `inf`, `-inf`, `nan`. -/
def floatText (x : Float) : String :=
  if x.isNaN then "nan"
  else if x.isInf then (if x < 0 then "-inf" else "inf")
  else
    let b := Binary.ofFloat x
    let body := if b.significand == 0 then ['0', '.', '0'] else (shortest b).text
    String.ofList (if b.negative then '-' :: body else body)

/-!
## Reading numbers

Numbers may have blanks around them, a sign, the decimal digits of any script and single underscores
between digits.
-/

/-- The double nearest to `digits * 10 ^ exponent`. -/
def floatOfDigits (digits : Nat) (exponent : Int) : Float :=
  let size := exponent + (Nat.toDigits 10 digits).length
  if digits = 0 || size < -400 then 0
  else if 400 < size then (1 : Float) / 0
  else if 0 ≤ exponent then Float.ofScientific digits false exponent.toNat
  else Float.ofScientific digits true (-exponent).toNat

def takeSign : Chars → Bool × Chars
  | '-' :: r => (true, r)
  | '+' :: r => (false, r)
  | r => (false, r)

/-- The digits at the head, with single underscores between them: their number and value, and the
rest. -/
def takeDigits (count value : Nat) : Chars → Nat × Nat × Chars
  | [] => (count, value, [])
  | '_' :: c :: r =>
    match Text.digit? c with
    | some d =>
      if 0 < count then takeDigits (count + 1) (value * 10 + d) r else (count, value, '_' :: c :: r)
    | none => (count, value, '_' :: c :: r)
  | c :: r =>
    match Text.digit? c with
    | some d => takeDigits (count + 1) (value * 10 + d) r
    | none => (count, value, c :: r)

def mostDigits : Nat := 4300

def intOfText? (cs : Chars) : Option Int :=
  let (negative, r) := takeSign (Text.trim cs)
  match takeDigits 0 0 r with
  | (count, value, []) =>
    if count = 0 || mostDigits < count then none
    else some (if negative then -(value : Int) else value)
  | _ => none

def takeExponent (cs : Chars) : Option (Int × Chars) :=
  match cs with
  | c :: r =>
    if c = 'e' || c = 'E' then
      let (negative, r') := takeSign r
      match takeDigits 0 0 r' with
      | (0, _, _) => none
      | (_, value, rest) => some (if negative then -(value : Int) else value, rest)
    else none
  | [] => none

def decimalOfText? (cs : Chars) : Option Float :=
  let (count, whole, r) := takeDigits 0 0 cs
  let (places, value, r') := match r with
    | '.' :: r' =>
      match takeDigits 0 0 r' with
      | (n, v, rest) => (n, whole * Nat.pow 10 n + v, rest)
    | _ => (0, whole, r)
  if count + places = 0 then none
  else
    match r', takeExponent r' with
    | [], _ => some (floatOfDigits value (-(places : Int)))
    | _, some (e, []) => some (floatOfDigits value (e - places))
    | _, _ => none

def floatOfText? (cs : Chars) : Option Float :=
  let (negative, r) := takeSign (Text.trim cs)
  let magnitude := match String.ofList (r.map Char.toLower) with
    | "inf" | "infinity" => some (1 / 0)
    | "nan" => some (0 / 0)
    | _ => decimalOfText? r
  magnitude.map fun x => if negative then -x else x

end ReviewDesk.Decimal
