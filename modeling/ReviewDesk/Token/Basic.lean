import ReviewDesk.Time.Moment
import ReviewDesk.Value.Json

/-!
# Tokens

A token names its subject, its kind and the second after which it is no longer accepted, and is
signed with a key. Three parts stand between dots: a header, the claims and the signature.
-/

namespace ReviewDesk.Token

/-! ## Base 64

Bytes as characters that are safe in addresses, without padding at the end. Reading passes over
characters of no meaning.
-/

def sextetByte (n : Nat) : UInt8 :=
  (if n < 26 then n + 65 else if n < 52 then n + 71 else if n < 62 then n - 4
    else if n = 62 then 45 else 95).toUInt8

def base64 : List UInt8 → List UInt8
  | [] => []
  | [a] => [sextetByte (a.toNat / 4), sextetByte (a.toNat % 4 * 16)]
  | [a, b] =>
    [sextetByte (a.toNat / 4), sextetByte (a.toNat % 4 * 16 + b.toNat / 16),
     sextetByte (b.toNat % 16 * 4)]
  | a :: b :: c :: rest =>
    sextetByte (a.toNat / 4) :: sextetByte (a.toNat % 4 * 16 + b.toNat / 16) ::
      sextetByte (b.toNat % 16 * 4 + c.toNat / 64) :: sextetByte (c.toNat % 64) :: base64 rest

/-- The six bits that a byte stands for, in either alphabet. -/
def sextet? (b : UInt8) : Option Nat :=
  let n := b.toNat
  if 65 ≤ n && n ≤ 90 then some (n - 65)
  else if 97 ≤ n && n ≤ 122 then some (n - 71)
  else if 48 ≤ n && n ≤ 57 then some (n + 4)
  else if n = 45 || n = 43 then some 62
  else if n = 95 || n = 47 then some 63
  else none

/-- What has been read of a group of four: how many characters, and the bits that are left over. -/
structure Quad where
  count : Nat := 0
  bits : Nat := 0
  pads : Nat := 0

/-- Reads the bytes. Padding that fills up a group ends the text. -/
def readBase64 (q : Quad) : List UInt8 → Option (List UInt8)
  | [] => if q.count = 0 then some [] else none
  | b :: rest =>
    if b = 61 then
      if 2 ≤ q.count then
        if 4 ≤ q.count + q.pads + 1 then some [] else readBase64 { q with pads := q.pads + 1 } rest
      else readBase64 q rest
    else
      match sextet? b with
      | none => readBase64 q rest
      | some n =>
        match q.count with
        | 0 => readBase64 { count := 1, bits := n } rest
        | 1 => (readBase64 { count := 2, bits := n % 16 } rest).map
          ((q.bits * 4 + n / 16).toUInt8 :: ·)
        | 2 => (readBase64 { count := 3, bits := n % 4 } rest).map ((q.bits * 16 + n / 4).toUInt8 ::
          ·)
        | _ => (readBase64 {} rest).map ((q.bits * 64 + n).toUInt8 :: ·)

variable (bs : List UInt8)

/-- Reads the bytes of a text that is filled up with padding to whole groups. -/
def ofBase64? : Option (List UInt8) :=
  readBase64 {} (bs ++ List.replicate ((4 - bs.length % 4) % 4) 61)

/-! ## Digests

The 256-bit secure hash of a list of bytes, and the keyed digest that is built from it.
-/

def roundConstants : List UInt32 :=
  [0x428a2f98, 0x71374491, 0xb5c0fbcf, 0xe9b5dba5, 0x3956c25b, 0x59f111f1, 0x923f82a4, 0xab1c5ed5,
    0xd807aa98, 0x12835b01, 0x243185be, 0x550c7dc3, 0x72be5d74, 0x80deb1fe, 0x9bdc06a7, 0xc19bf174,
    0xe49b69c1, 0xefbe4786, 0x0fc19dc6, 0x240ca1cc, 0x2de92c6f, 0x4a7484aa, 0x5cb0a9dc, 0x76f988da,
    0x983e5152, 0xa831c66d, 0xb00327c8, 0xbf597fc7, 0xc6e00bf3, 0xd5a79147, 0x06ca6351, 0x14292967,
    0x27b70a85, 0x2e1b2138, 0x4d2c6dfc, 0x53380d13, 0x650a7354, 0x766a0abb, 0x81c2c92e, 0x92722c85,
    0xa2bfe8a1, 0xa81a664b, 0xc24b8b70, 0xc76c51a3, 0xd192e819, 0xd6990624, 0xf40e3585, 0x106aa070,
    0x19a4c116, 0x1e376c08, 0x2748774c, 0x34b0bcb5, 0x391c0cb3, 0x4ed8aa4a, 0x5b9cca4f, 0x682e6ff3,
    0x748f82ee, 0x78a5636f, 0x84c87814, 0x8cc70208, 0x90befffa, 0xa4506ceb, 0xbef9a3f7, 0xc67178f2]

structure Chain where
  a : UInt32
  b : UInt32
  c : UInt32
  d : UInt32
  e : UInt32
  f : UInt32
  g : UInt32
  h : UInt32

def Chain.initial : Chain :=
  ⟨0x6a09e667, 0xbb67ae85, 0x3c6ef372, 0xa54ff53a, 0x510e527f, 0x9b05688c, 0x1f83d9ab, 0x5be0cd19⟩

def Chain.add (x y : Chain) : Chain :=
  ⟨x.a + y.a, x.b + y.b, x.c + y.c, x.d + y.d, x.e + y.e, x.f + y.f, x.g + y.g, x.h + y.h⟩

def rotate (x : UInt32) (n : UInt32) : UInt32 := (x >>> n) ||| (x <<< (32 - n))

/-- The next words of the schedule, from the sixteen before, the latest first. -/
def extend : Nat → List UInt32 → List UInt32
  | 0, ws => ws
  | n + 1, ws =>
    let w15 := ws.getD 14 0
    let w2 := ws.getD 1 0
    let s0 := rotate w15 7 ^^^ rotate w15 18 ^^^ (w15 >>> 3)
    let s1 := rotate w2 17 ^^^ rotate w2 19 ^^^ (w2 >>> 10)
    extend n ((ws.getD 15 0 + s0 + ws.getD 6 0 + s1) :: ws)

def Chain.round (x : Chain) (constant word : UInt32) : Chain :=
  let s1 := rotate x.e 6 ^^^ rotate x.e 11 ^^^ rotate x.e 25
  let choice := (x.e &&& x.f) ^^^ (~~~x.e &&& x.g)
  let t1 := x.h + s1 + choice + constant + word
  let s0 := rotate x.a 2 ^^^ rotate x.a 13 ^^^ rotate x.a 22
  let majority := (x.a &&& x.b) ^^^ (x.a &&& x.c) ^^^ (x.b &&& x.c)
  ⟨t1 + (s0 + majority), x.a, x.b, x.c, x.d + t1, x.e, x.f, x.g⟩

def wordsOf : List UInt8 → List UInt32
  | a :: b :: c :: d :: rest =>
    ((a.toUInt32 <<< 24) ||| (b.toUInt32 <<< 16) ||| (c.toUInt32 <<< 8) ||| d.toUInt32) ::
      wordsOf rest
  | _ => []

def Chain.block (x : Chain) (words : List UInt32) : Chain :=
  let schedule := (extend 48 words.reverse).reverse
  x.add ((roundConstants.zip schedule).foldl (fun y kw => y.round kw.1 kw.2) x)

def Chain.blocks : Nat → Chain → List UInt32 → Chain
  | 0, x, _ => x
  | n + 1, x, ws => Chain.blocks n (x.block (ws.take 16)) (ws.drop 16)

def bytesOf (w : UInt32) : List UInt8 :=
  [(w >>> 24).toUInt8, (w >>> 16).toUInt8, (w >>> 8).toUInt8, w.toUInt8]

/-- The last block is filled up with a mark, zeros and the number of bits. -/
def filled : List UInt8 :=
  let bits := bs.length * 8
  let zeros := (119 - bs.length % 64) % 64
  bs ++ [0x80] ++ List.replicate zeros 0 ++
    [56, 48, 40, 32, 24, 16, 8, 0].map fun s => (bits / Nat.pow 2 s % 256).toUInt8

def hash : List UInt8 :=
  let words := wordsOf (filled bs)
  let x := Chain.blocks (words.length / 16) .initial words
  [x.a, x.b, x.c, x.d, x.e, x.f, x.g, x.h].flatMap bytesOf

def keyedHash (key message : List UInt8) : List UInt8 :=
  let short := if 64 < key.length then hash key else key
  let block := short ++ List.replicate (64 - short.length) 0
  hash (block.map (· ^^^ 0x5c) ++ hash (block.map (· ^^^ 0x36) ++ message))

inductive Kind where
  | access
  | refresh
  deriving DecidableEq, Repr

def Kind.name : Kind → String
  | access => "access"
  | refresh => "refresh"

/-- How tokens are signed and how long they live if nothing else is said. -/
structure Policy where
  key : String
  accessMinutes : Int
  refreshMinutes : Int

def Policy.minutes (p : Policy) : Kind → Int
  | .access => p.accessMinutes
  | .refresh => p.refreshMinutes

/-! ## Signed texts -/

def dot : UInt8 := 46

def signingInput (header claims : List UInt8) : List UInt8 := base64 header ++ dot :: base64 claims

def bytesText : String := .ofList (bs.map fun b => Char.ofNat b.toNat)

def sign (key : String) (header claims : Value) : String :=
  let input :=
    signingInput (Text.utf8 (Json.write header).toList) (Text.utf8 (Json.write claims).toList)
  bytesText (input ++ dot :: base64 (keyedHash (Text.utf8 key.toList) input))

def objectOf? : Option Fields :=
  match (Text.ofUtf8? bs).map Json.read with
  | some (.ok (.object fs)) => some fs
  | _ => none

def splitFirst : Option (List UInt8 × List UInt8) :=
  match bs.span (· != dot) with
  | (a, _ :: b) => some (a, b)
  | _ => none

def splitLast : Option (List UInt8 × List UInt8) :=
  (splitFirst bs.reverse).map fun (a, b) => (b.reverse, a.reverse)

/-- The claims of a text that is signed with the key. -/
def open? (key : String) (token : String) : Option Fields := do
  let (input, last) ← splitLast (Text.utf8 token.toList)
  let (first, second) ← splitFirst input
  let header ← objectOf? (← ofBase64? first)
  let payload ← ofBase64? second
  let signature ← ofBase64? last
  guard ((Fields.get? header "alg").bind Value.text? = some "HS256")
  guard (keyedHash (Text.utf8 key.toList) input = signature)
  objectOf? payload

/-! ## Claims -/

/-- The whole number that a claim stands for; nothing if it stands for none. -/
def wholeClaim (v : Value) : Outcome (Option Int) :=
  match v with
  | .int n => .ok (some n)
  | .bool b => .ok (some (if b then 1 else 0))
  | .real x =>
    if x.isNaN then .ok none
    else if x.isInf then .error (.tooLarge "an infinite number is no whole number")
    else .ok (some (Decimal.truncate x))
  | .text s => .ok (Decimal.intOfText? s.toList)
  | _ => .error (.mistyped "a number is needed")

/-- The claim `key`, if it is there, is a whole number with the property `p`. -/
def wholeClaimOk (claims : Fields) (key : String) (p : Int → Bool) : Outcome Bool :=
  match Fields.get? claims key with
  | none => .ok true
  | some v => do
    match ← wholeClaim v with
    | some n => return p n
    | none => return false

def textClaimOk (claims : Fields) (key : String) : Bool :=
  match Fields.get? claims key with
  | none | some (.text _) => true
  | some _ => false

/-- The claims hold at a time: they are in force, and not meant for somebody else. -/
def claimsHold (claims : Fields) (now : Int) : Outcome Bool := do
  if !(← wholeClaimOk claims "iat" fun _ => true) then return false
  if !(← wholeClaimOk claims "nbf" (· ≤ now)) then return false
  if !(← wholeClaimOk claims "exp" (now ≤ ·)) then return false
  return !Fields.has claims "aud" && textClaimOk claims "sub" && textClaimOk claims "jti" &&
    !Fields.has claims "at_hash"

/-! ## Issuing and verifying -/

def header : Value := .object [("alg", .text "HS256"), ("typ", .text "JWT")]

def claims (kind : Kind) (subject : String) (expires : Int) : Value :=
  .object [("exp", .int expires), ("sub", .text subject), ("type", .text kind.name)]

/-- A token that is accepted for a time given in microseconds; zero stands for the usual time. -/
def issue (p : Policy) (kind : Kind) (subject : String) (now : Moment) (life : Option Int) :
    Outcome String :=
  let micros := match life with
    | some n => if n = 0 then p.minutes kind * 60 * Moment.second else n
    | none => p.minutes kind * 60 * Moment.second
  let expires := now.addMicros micros
  if expires.inCalendar then .ok (sign p.key header (claims kind subject expires.seconds))
  else .error (.tooLarge "date value out of range")

def lifeOfMinutes (minutes : Value) : Outcome (Option Int) :=
  let bounded (n : Int) : Outcome (Option Int) :=
    if (n / Moment.day).natAbs ≤ 999999999 then .ok (some n)
    else .error (.tooLarge "days out of range")
  match minutes with
  | .null => .ok none
  | .int n => bounded (n * 60 * Moment.second)
  | .bool b => bounded (if b then 60 * Moment.second else 0)
  | .real x =>
    if x.isNaN then .error (.invalid "cannot convert float NaN to integer")
    else if x.isInf then .error (.tooLarge "an infinite number is no whole number")
    else bounded (ZonedMoment.microsOf 60000000 x)
  | _ => .error (.mistyped "minutes are a number")

def subject? (claims : Fields) (kind : Kind) : Option String :=
  match Fields.get? claims "sub", Fields.get? claims "type" with
  | some (.text s), some (.text k) => if k = kind.name then some s else none
  | _, _ => none

def verify (p : Policy) (kind : Kind) (token : String) (now : Moment) :
    Outcome (Option String) := do
  match open? p.key token with
  | none => return none
  | some claims =>
    if ← claimsHold claims now.seconds then return subject? claims kind else return none

def verifyValue (p : Policy) (kind : Kind) (token : Value) (now : Moment) : Outcome Value := do
  return .ofText? (← verify p kind (← token.textOf "split") now)

end ReviewDesk.Token
