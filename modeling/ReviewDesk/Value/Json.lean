import ReviewDesk.Value.Basic

/-!
# JSON

`Json.read` reads a JSON text, with `NaN` and the infinities as further numbers; of two fields with
one name the later counts. A text that is not JSON is answered with what was expected and where.
`Json.write` writes a value without blanks and in ASCII.
-/

namespace ReviewDesk.Json

inductive Problem where
  | expectedValue
  | expectedName
  | expectedColon
  | expectedComma
  | extraData
  | unterminatedString
  | controlCharacter
  | badEscape
  | badUnicodeEscape
  | byteOrderMark
  /-- A whole number with more digits than are read. -/
  | longNumber
  deriving DecidableEq, Repr

def Problem.message : Problem → String
  | expectedValue => "Expecting value"
  | expectedName => "Expecting property name enclosed in double quotes"
  | expectedColon => "Expecting ':' delimiter"
  | expectedComma => "Expecting ',' delimiter"
  | extraData => "Extra data"
  | unterminatedString => "Unterminated string starting at"
  | controlCharacter => "Invalid control character at"
  | badEscape => "Invalid \\escape"
  | badUnicodeEscape => "Invalid \\uXXXX escape"
  | byteOrderMark => "Unexpected UTF-8 BOM (decode using utf-8-sig)"
  | longNumber => "Exceeds the limit (4300 digits) for integer string conversion"

structure Error where
  problem : Problem
  position : Nat
  deriving DecidableEq, Repr

def lineOf (text : Chars) (position : Nat) : Nat := (text.take position).count '\n' + 1

def columnOf (text : Chars) (position : Nat) : Nat :=
  ((text.take position).reverse.takeWhile (· != '\n')).length + 1

def Error.message (e : Error) (text : Chars) : String :=
  let number (n : Nat) : String := Value.intText n
  e.problem.message ++ ": line " ++ number (lineOf text e.position) ++ " column " ++
    number (columnOf text e.position) ++ " (char " ++ number e.position ++ ")"

structure Place where
  at_ : Nat
  rest : Chars

def Place.skip (p : Place) (n : Nat) : Place := ⟨p.at_ + n, p.rest.drop n⟩

def isGap (c : Char) : Bool := c = ' ' || c = '\t' || c = '\n' || c = '\r'

def skipGap : Nat → Chars → Place
  | n, [] => ⟨n, []⟩
  | n, c :: r => if isGap c then skipGap (n + 1) r else ⟨n, c :: r⟩

def Place.gap (p : Place) : Place := skipGap p.at_ p.rest

def fourHex? (cs : Chars) : Option Nat :=
  match cs with
  | a :: b :: c :: d :: _ => do
    let a ← Text.hexDigit? a
    let b ← Text.hexDigit? b
    let c ← Text.hexDigit? c
    return ((a * 16 + b) * 16 + c) * 16 + (← Text.hexDigit? d)
  | _ => none

def simpleEscape? : Char → Option Char
  | '"' => some '"'
  | '\\' => some '\\'
  | '/' => some '/'
  | 'b' => some '\x08'
  | 'f' => some '\x0c'
  | 'n' => some '\n'
  | 'r' => some '\r'
  | 't' => some '\t'
  | _ => none

/-- A code unit that is not part of a pair stands for the replacement character. -/
def unitChar (n : Nat) : Char :=
  if 0xD800 ≤ n && n ≤ 0xDFFF then Char.ofNat 0xFFFD else Char.ofNat n

/-- Reads a string whose opening quote stands at `start`. `n` characters were read up to `rest`, and
`acc` holds the string so far, last character first. -/
def readString (start : Nat) : Nat → Nat → Chars → Chars → Except Error (Chars × Place)
  | 0, _, _, _ => .error ⟨.unterminatedString, start⟩
  | _ + 1, _, [], _ => .error ⟨.unterminatedString, start⟩
  | fuel + 1, n, c :: r, acc =>
    if c = '"' then .ok (acc.reverse, ⟨n + 1, r⟩)
    else if c = '\\' then
      match r with
      | [] => .error ⟨.unterminatedString, start⟩
      | 'u' :: r' =>
        if (r'.drop 4).isEmpty then .error ⟨.badUnicodeEscape, n + 1⟩
        else match fourHex? r' with
          | none => .error ⟨.badUnicodeEscape, n + 1⟩
          | some high =>
            let r4 := r'.drop 4
            match (if 0xD800 ≤ high && high ≤ 0xDBFF && !(r4.drop 6).isEmpty then r4 else []) with
            | '\\' :: 'u' :: r5 =>
              match fourHex? r5 with
              | none => .error ⟨.badUnicodeEscape, n + 7⟩
              | some low =>
                if 0xDC00 ≤ low && low ≤ 0xDFFF then
                  let full := 0x10000 + (high - 0xD800) * 0x400 + (low - 0xDC00)
                  readString start fuel (n + 12) (r5.drop 4) (Char.ofNat full :: acc)
                else readString start fuel (n + 6) r4 (unitChar high :: acc)
            | _ => readString start fuel (n + 6) r4 (unitChar high :: acc)
      | e :: r' =>
        match simpleEscape? e with
        | some x => readString start fuel (n + 2) r' (x :: acc)
        | none => .error ⟨.badEscape, n⟩
    else if c.toNat < 32 then .error ⟨.controlCharacter, n⟩
    else readString start fuel (n + 1) r (c :: acc)

def digitsValue (cs : Chars) : Nat := cs.foldl (fun n c => n * 10 + (c.toNat - 48)) 0

def spanDigits (cs : Chars) : Chars × Chars := cs.span Char.isDigit

/-- The exponent part at the head, if there is one: its length and value. -/
def exponent? (cs : Chars) : Option (Nat × Int) :=
  match cs with
  | c :: r =>
    if c = 'e' || c = 'E' then
      let (neg, signs, r') := match r with
        | '-' :: r' => (true, 1, r')
        | '+' :: r' => (false, 1, r')
        | _ => (false, 0, r)
      let (ds, _) := spanDigits r'
      if ds.isEmpty then none
      else
        let v : Int := digitsValue ds
        some (1 + signs + ds.length, if neg then -v else v)
    else none
  | [] => none

def readNumber (p : Place) : Except Error (Value × Place) :=
  let (neg, body) := match p.rest with
    | '-' :: r => (true, r)
    | r => (false, r)
  let whole := match body with
    | '0' :: _ => ['0']
    | _ => (spanDigits body).1
  if whole.isEmpty then .error ⟨.expectedValue, p.at_⟩
  else
    let rest := body.drop whole.length
    let fraction := match rest with
      | '.' :: r => (spanDigits r).1
      | _ => []
    let fractionLength := if fraction.isEmpty then 0 else fraction.length + 1
    let exponent := exponent? (rest.drop fractionLength)
    let length :=
      (if neg then 1 else 0) + whole.length + fractionLength + (exponent.map (·.1)).getD 0
    let next := p.skip length
    if fraction.isEmpty && exponent.isNone then
      if 4300 < whole.length then .error ⟨.longNumber, p.at_⟩
      else
        let n : Int := digitsValue whole
        .ok (.int (if neg then -n else n), next)
    else
      let e := (exponent.map (·.2)).getD 0 - fraction.length
      let x := Decimal.floatOfDigits (digitsValue (whole ++ fraction)) e
      .ok (.real (if neg then -x else x), next)

def words : List (String × Value) :=
  [("null", .null), ("true", .bool true), ("false", .bool false), ("NaN", .real (0 / 0)),
    ("Infinity", .real (1 / 0)), ("-Infinity", .real (-1 / 0))]

def readWord? (p : Place) : Option (Value × Place) :=
  words.findSome? fun (w, v) => if w.toList.isPrefixOf p.rest then some (v, p.skip w.length)
    else none

mutual

def readValue : Nat → Place → Except Error (Value × Place)
  | 0, p => .error ⟨.expectedValue, p.at_⟩
  | fuel + 1, p =>
    match p.rest with
    | [] => .error ⟨.expectedValue, p.at_⟩
    | '"' :: r =>
      match readString p.at_ (r.length + 1) (p.at_ + 1) r [] with
      | .ok (s, q) => .ok (.text (.ofList s), q)
      | .error e => .error e
    | '[' :: r =>
      let q := skipGap (p.at_ + 1) r
      match q.rest with
      | ']' :: r' => .ok (.list [], ⟨q.at_ + 1, r'⟩)
      | _ => readItems fuel q []
    | '\x7b' :: r =>
      let q := skipGap (p.at_ + 1) r
      match q.rest with
      | '\x7d' :: r' => .ok (.object [], ⟨q.at_ + 1, r'⟩)
      | _ => readFields fuel q []
    | _ =>
      match readWord? p with
      | some result => .ok result
      | none => readNumber p

/-- Reads the items of a list up to its end; `acc` holds those before, last first. -/
def readItems : Nat → Place → List Value → Except Error (Value × Place)
  | 0, p, _ => .error ⟨.expectedValue, p.at_⟩
  | fuel + 1, p, acc =>
    match readValue fuel p with
    | .error e => .error e
    | .ok (v, q) =>
      let q := q.gap
      match q.rest with
      | ']' :: r => .ok (.list (v :: acc).reverse, ⟨q.at_ + 1, r⟩)
      | ',' :: r => readItems fuel (skipGap (q.at_ + 1) r) (v :: acc)
      | _ => .error ⟨.expectedComma, q.at_⟩

/-- Reads the fields of an object up to its end; `acc` holds those before, last first. -/
def readFields : Nat → Place → List (String × Value) → Except Error (Value × Place)
  | 0, p, _ => .error ⟨.expectedValue, p.at_⟩
  | fuel + 1, p, acc =>
    match p.rest with
    | '"' :: r =>
      match readString p.at_ (r.length + 1) (p.at_ + 1) r [] with
      | .error e => .error e
      | .ok (key, q) =>
        let q := q.gap
        match q.rest with
        | ':' :: r =>
          match readValue fuel (skipGap (q.at_ + 1) r) with
          | .error e => .error e
          | .ok (v, q) =>
            let q := q.gap
            let acc := (String.ofList key, v) :: acc
            match q.rest with
            | '\x7d' :: r => .ok (.object (Fields.merge [] acc.reverse), ⟨q.at_ + 1, r⟩)
            | ',' :: r => readFields fuel (skipGap (q.at_ + 1) r) acc
            | _ => .error ⟨.expectedComma, q.at_⟩
        | _ => .error ⟨.expectedColon, q.at_⟩
    | _ => .error ⟨.expectedName, p.at_⟩

end

def read (text : Chars) : Except Error Value :=
  if text.head? = some (Char.ofNat 0xFEFF) then .error ⟨.byteOrderMark, 0⟩
  else
    match readValue (2 * text.length + 2) (skipGap 0 text) with
    | .error e => .error e
    | .ok (v, p) =>
      let q := p.gap
      if q.rest.isEmpty then .ok v else .error ⟨.extraData, q.at_⟩

def readText (s : String) : Except Error Value := read s.toList

/-! ## Writing -/

def units (c : Char) : List Nat :=
  let n := c.toNat
  if n < 0x10000 then [n] else [0xD800 + (n - 0x10000) / 0x400, 0xDC00 + (n - 0x10000) % 0x400]

def escapeChar (c : Char) : Chars :=
  if c = '"' then ['\\', '"']
  else if c = '\\' then ['\\', '\\']
  else if c = '\n' then ['\\', 'n']
  else if c = '\r' then ['\\', 'r']
  else if c = '\t' then ['\\', 't']
  else if c = '\x08' then ['\\', 'b']
  else if c = '\x0c' then ['\\', 'f']
  else if 32 ≤ c.toNat && c.toNat < 127 then [c]
  else (units c).flatMap fun n => '\\' :: 'u' :: Text.hexText 4 n

def writeString (s : String) : String := .ofList ('"' :: s.toList.flatMap escapeChar ++ ['"'])

def writeReal (x : Float) : String :=
  if x.isNaN then "NaN"
  else if x.isInf then (if x < 0 then "-Infinity" else "Infinity")
  else Decimal.floatText x

mutual

def write : Value → String
  | .null => "null"
  | .bool true => "true"
  | .bool false => "false"
  | .int n => Value.intText n
  | .real x => writeReal x
  | .text s => writeString s
  | .list xs => "[" ++ ",".intercalate (writeItems xs) ++ "]"
  | .object fs => "\x7b" ++ ",".intercalate (writeFields fs) ++ "\x7d"

def writeItems : List Value → List String
  | [] => []
  | x :: xs => write x :: writeItems xs

def writeFields : List (String × Value) → List String
  | [] => []
  | (k, v) :: fs => (writeString k ++ ":" ++ write v) :: writeFields fs

end

end ReviewDesk.Json
