/-!
# Texts

A text is a list of characters.
-/

namespace ReviewDesk

abbrev Chars := List Char

namespace Text

/-! ## Looking for one text in another

Occurrences are looked for from the left and do not overlap.
-/

def startsWith (p t : Chars) : Bool := p.isPrefixOf t

def endsWith (p t : Chars) : Bool := p.reverse.isPrefixOf t.reverse

def occurs (p : Chars) : Chars → Bool
  | [] => p.isEmpty
  | c :: r => p.isPrefixOf (c :: r) || occurs p r

/-- Splits `t` at the occurrences of `p`. `skip` characters still belong to the occurrence that was
found last, and `piece` is the piece being read, last character first. -/
def splitFrom (p : Chars) : Nat → Chars → Chars → List Chars
  | _, piece, [] => [piece.reverse]
  | skip + 1, piece, _ :: r => splitFrom p skip piece r
  | 0, piece, c :: r =>
    if p.isPrefixOf (c :: r) then piece.reverse :: splitFrom p (p.length - 1) [] r
    else splitFrom p 0 (c :: piece) r

/-- The pieces of `t` between the occurrences of the separator `p`, which is not empty. -/
def splitAtText (p t : Chars) : List Chars := splitFrom p 0 [] t

def replaceAll (p q t : Chars) : Chars :=
  (List.intersperse q (splitAtText p t)).flatten

/-- Whether a text begins with, ends with or contains another, for texts. -/
def begins (s p : String) : Bool := startsWith p.toList s.toList

def ends (s p : String) : Bool := endsWith p.toList s.toList

def contains (s p : String) : Bool := occurs p.toList s.toList

def splitText (s p : String) : List String := (splitAtText p.toList s.toList).map .ofList

def replaceText (s p q : String) : String := .ofList (replaceAll p.toList q.toList s.toList)

variable (s : String)

def takeText (n : Nat) : String := .ofList (s.toList.take n)

/-! ## Blanks

`isBlank` is the white space of Unicode together with the four separators U+001C to U+001F. `trim`
takes it off both ends of a text and `words` splits a text at its runs.
-/

variable (c : Char)

def isBlank : Bool :=
  let n := c.toNat
  n = 32 || (9 ≤ n && n ≤ 13) || (28 ≤ n && n ≤ 31) || n = 0x85 || n = 0xA0 || n = 0x1680 ||
    (0x2000 ≤ n && n ≤ 0x200A) || n = 0x2028 || n = 0x2029 || n = 0x202F || n = 0x205F || n = 0x3000

variable (cs : Chars)

def trimStart : Chars := cs.dropWhile isBlank

def trimEnd : Chars := (cs.reverse.dropWhile isBlank).reverse

def trim : Chars := trimEnd (trimStart cs)

/-- Adds `w` to the words found if it is not empty. -/
def pushWord (w : Chars) (ws : List Chars) : List Chars :=
  if w.isEmpty then ws else w :: ws

/-- `word` is the word being read, last character first. -/
def wordsFrom (word : Chars) : Chars → List Chars
  | [] => pushWord word.reverse []
  | c :: r => if isBlank c then pushWord word.reverse (wordsFrom [] r) else wordsFrom (c :: word) r

def words : List Chars := wordsFrom [] cs

def trimmed : String := .ofList (trim s.toList)

/-! ## Lines

`rows` splits at line feeds only and keeps an empty last row. `lines` splits at every line boundary
of Unicode, takes a carriage return with a line feed as one, and gives no empty last line.
-/

/-- The pieces between line feeds; one more than there are line feeds. -/
def rows : Chars → List Chars
  | [] => [[]]
  | c :: r =>
    if c = '\n' then [] :: rows r
    else match rows r with
      | p :: ps => (c :: p) :: ps
      | [] => [[c]]

def isLineEnd : Bool :=
  let n := c.toNat
  (10 ≤ n && n ≤ 13) || (28 ≤ n && n ≤ 30) || n = 0x85 || n = 0x2028 || n = 0x2029

/-- `line` is the line being read, last character first. -/
def linesFrom (line : Chars) : Chars → List Chars
  | [] => if line.isEmpty then [] else [line.reverse]
  | '\r' :: '\n' :: r => line.reverse :: linesFrom [] r
  | c :: r => if isLineEnd c then line.reverse :: linesFrom [] r else linesFrom (c :: line) r

def lines : List Chars := linesFrom [] cs

def textLines : List String := (lines s.toList).map .ofList

def lineFeeds : Nat := cs.count '\n'

/-- The line, from one on, of the character at an offset. -/
def lineAt (offset : Nat) : Nat := lineFeeds (cs.take offset) + 1

theorem rows_ne_nil : rows cs ≠ [] := by
  cases cs with
  | nil => simp [rows]
  | cons c r =>
    rw [rows]
    split
    · simp
    · split <;> simp

/-!
## UTF-8

Texts as bytes. Reading refuses bytes that no text is written as.
-/

def utf8 : List UInt8 := cs.flatMap String.utf8EncodeChar

def ofUtf8? (bs : List UInt8) : Option Chars := bs.toByteArray.utf8Decode?.map Array.toList

/-- The character that the bytes begin with. -/
def firstChar? (bs : List UInt8) : Option Char := (bs.take 4).toByteArray.utf8DecodeChar? 0

/-- Reads the bytes that make up characters and passes over all others. -/
def ofUtf8LooseFrom (read : Chars) : List UInt8 → Chars
  | [] => read.reverse
  | a :: rest => ofUtf8LooseFrom ((firstChar? (a :: rest)).elim read (· :: read)) rest

def ofUtf8Loose (bs : List UInt8) : Chars := ofUtf8LooseFrom [] bs

/-- The number of bytes at the front that could begin a character, at least one. -/
def brokenSize (a : UInt8) (rest : List UInt8) : Nat :=
  let low : UInt8 := if a = 0xE0 then 0xA0 else if a = 0xF0 then 0x90 else 0x80
  let high : UInt8 := if a = 0xED then 0xA0 else if a = 0xF4 then 0x90 else 0xC0
  let size :=
    if a < 0xC2 then 1 else if a < 0xE0 then 2 else if a < 0xF0 then 3 else if a < 0xF5 then 4 else
    1
  match rest with
  | b :: rest =>
    if 1 < size && low ≤ b && b < high then 2 +
      ((rest.take (size - 2)).takeWhile fun c => 0x80 ≤ c && c < 0xC0).length
    else 1
  | [] => 1

/-- Reads bytes and puts a mark in the place of those that make up no character. -/
def ofUtf8MarkedFrom : Nat → List UInt8 → Chars
  | 0, _ => []
  | _, [] => []
  | fuel + 1, a :: rest =>
    match firstChar? (a :: rest) with
    | some c => c :: ofUtf8MarkedFrom fuel ((a :: rest).drop c.utf8Size)
    | none => Char.ofNat 0xFFFD :: ofUtf8MarkedFrom fuel ((a :: rest).drop (brokenSize a rest))

def ofUtf8Marked (bs : List UInt8) : Chars := ofUtf8MarkedFrom bs.length bs

/-!
## Classes of characters as code point ranges

A class is written down as the list of its ranges in increasing order: how far each begins behind
the end of the one before it, and how much further it reaches, so `13+P 5 2+P` are the ASCII letters
and the underscore. Numbers have base 62 and the digits `0` to `9`, `A` to `Z` and `a` to `z`.
`Ranges.ofText` reads such a list and `Ranges.has` looks a character up in it.
-/

/-- The code points from `first` to `last`, both included. -/
structure Range where
  first : Nat
  last : Nat
  deriving DecidableEq, Repr

abbrev Ranges := List Range

def hexDigit? : Option Nat :=
  if '0' ≤ c && c ≤ '9' then some (c.toNat - 48)
  else if 'A' ≤ c && c ≤ 'F' then some (c.toNat - 55)
  else if 'a' ≤ c && c ≤ 'f' then some (c.toNat - 87)
  else none

def tableDigit : Nat :=
  c.toNat - if c ≤ '9' then 48 else if c ≤ 'Z' then 55 else 61

/-- The number that digits of a table stand for; a sign before them counts for nothing. -/
def tableNumber : Nat := cs.foldl (fun n c => n * 62 + tableDigit c) 0

def rangesFrom (last : Nat) : List Chars → List Range
  | [] => []
  | cs :: rest =>
    let (gap, reach) := cs.span (· != '+')
    let first := last + tableNumber gap
    let last := first + tableNumber reach
    ⟨first, last⟩ :: rangesFrom last rest

/-- An entry that stands several times in a row is written once, `2*H`. -/
def repeated : List Chars :=
  match cs.span (· != '*') with
  | (entry, []) => [entry]
  | (entry, times) => .replicate (tableNumber times) entry

/-- The entries of a table that is written in lines, with blanks between entries. -/
def tableEntries : List Chars := (words s.toList).flatMap repeated

/-- Ranges of one digit each are written together behind a dot, `.2628`. -/
def pairs : Chars → List Chars
  | a :: b :: r => [a, '+', b] :: pairs r
  | _ => []

def Ranges.ofText : Ranges :=
  rangesFrom 0 ((tableEntries s).flatMap fun
    | '.' :: digits => pairs digits
    | cs => [cs])

def Ranges.has (t : Ranges) (c : Char) : Bool :=
  t.any fun r => r.first ≤ c.toNat && c.toNat ≤ r.last

/-! ## Maps of characters as tables

A map is written down as rows of code points that move together, `36+M=3c`, each by its distance from
the one before, how far it reaches, and where its first character goes; and as characters that become
several, `3b=1L+1L`. What is not in a table stays as it is.
-/

/-- Every `step`-th code point from `first` to `last` moves by `shift`. -/
structure Shift where
  first : Nat
  last : Nat
  step : Nat
  shift : Int
  deriving DecidableEq, Repr

abbrev Shifts := List Shift

/-- The rows that follow the code point `last`. Where not every character moves, the step stands
behind a slash. -/
def shiftsFrom (last : Nat) : List Chars → Shifts
  | [] => []
  | cs :: rest =>
    let (row, image) := cs.span (· != '=')
    let (range, step) := row.span (· != '/')
    let (gap, reach) := range.span (· != '+')
    let first := last + tableNumber gap
    let last := first + tableNumber reach
    ⟨first, last, if step.isEmpty then 1 else tableNumber step, tableNumber (image.drop 1) - first⟩ ::
      shiftsFrom last rest

def Shifts.ofText : Shifts := shiftsFrom 0 (tableEntries s)

/-- The way back from the images. -/
def Shift.back (m : Shift) : Shift :=
  ⟨(m.first + m.shift).toNat, (m.last + m.shift).toNat, m.step, -m.shift⟩

def Shift.moves (m : Shift) (n : Nat) : Bool :=
  m.first ≤ n && n ≤ m.last && (n - m.first) % m.step == 0

def Shifts.move (t : Shifts) (c : Char) : Bool := t.any (·.moves c.toNat)

def Shifts.apply (t : Shifts) (c : Char) : Char :=
  match t.find? (·.moves c.toNat) with
  | some m => Char.ofNat (Int.toNat (c.toNat + m.shift))
  | none => c

/-- Characters with all that they become, in increasing order. Each is written by its distance from
the one before it, which is left out where it is the usual one. -/
abbrev Expansions := List (Nat × Chars)

/-- The characters of an image; one that is left out is the one in its place in the image before, and
one of a single digit is counted from `near`. -/
def imageOf (near : Nat) : List Chars → Chars → Chars
  | [], _ => []
  | d :: ds, before =>
    (match d with
      | [] => before.headD ' '
      | [c] => Char.ofNat (near + tableDigit c)
      | _ => Char.ofNat (tableNumber d)) :: imageOf near ds before.tail

/-- The entries that follow the one for the code point `last` with its image. -/
def expansionsFrom (usual near last : Nat) (before : Chars) : List Chars → Expansions
  | [] => []
  | cs :: rest =>
    let (gap, image) := match cs.span (· != '=') with
      | (image, []) => (usual, image)
      | (gap, _ :: image) => (if gap.isEmpty then 1 else tableNumber gap, image)
    let image := imageOf near (image.splitOn '+') before
    (last + gap, image) :: expansionsFrom usual near (last + gap) image rest

def threes : Chars → List Chars
  | a :: b :: c :: r => [a, b, c] :: threes r
  | [] => []
  | cs => [cs]

/-- Entries that differ in the last digit are written as one, `t+|xy`. -/
def spread : List Chars :=
  match cs.span (· != '|') with
  | (entry, _ :: ends) => ends.map (entry ++ [·])
  | _ => [cs]

/-- Entries of three digits need no blanks between them. -/
def Expansions.ofText (usual near : Nat) (s : String) : Expansions :=
  expansionsFrom usual near 0 [] ((tableEntries s).flatMap fun cs =>
    if cs.all Char.isAlphanum then threes cs else spread cs)

def Expansions.get? (t : Expansions) (c : Char) : Option Chars :=
  (t.find? (·.1 == c.toNat)).map (·.2)

/-!
## Upper and lower case

`lower`, `upper` and `capitalize` are the full case maps of Unicode: a character can become
several, and a capital sigma at the end of a word becomes a final one. `lowerChar` is the map from
one character to one, and `sameLetter` compares letters without regard to case.
-/

def lowerShifts : Shifts := .ofText
  "36+M=3c 2+6=40 Y+k/2=49 4+4/2=4x 3+E/2=54 3+i/2=5L 2=47 1+4/2=66 4=9b 1+2/2=6F 2=9c 1=6K 2+1=9e
 1=6O 3=7h 1=9h 1=9j 1=6U 2=9o 1=9r 2=9x 1=9w 1=6b 4=A3 1=A6 2=A9 1+4/2=6j 2=AK 1=6q 2=AN 3=6v 2=AS
 1=6y 2+1=AU 1+2/2=72 2=Ac 1=77 4=7B 8=7K 1=7K 2=7N 1=7N 2=7Q 1+G/2=7Q 3+G/2=7j 3=83 1+2/2=83 2=6X
 1=7D 1+c/2=89 2=6g 2+G/2=8p 8=2xJ 1=9E 2=6c 1=2xK 3=9K 2=6C 1=AT 1=AW 1+8/2=9P 4g+2/2=ED 4=EJ 9=GJ
 7=FA 2+2=FB 2=Fg 2+1=Fh 2+G=FF 2+8=FX a=Fr 9+M/2=Ft 6=FM 3=GO 2=GI 1=GR 3+2=EN 1+F=Ho 1+V=HI
 n+W/2=I5 A+q/2=Il 2=Jr 1+C/2=Je 3+1W/2=Jt 3+b=MD kc+b=2zo 2=30R 6=30X Bf+1H=BPs 1+5=1KS ZX+g=17Q
 3+2=189 5B+2O/2=1zt A=3b 2+1W/2=22T A+7=240 9+5=24G B+7=24W 9+7=24m 9+5=252 C+6/2=25J 9+7=25Y
 P+7=264 9+7=26K 9+7=26a 9+1=26q 1+1=25o 1=26t C+3=25q 1=279 C+1=27M 1+1=25u D+1=27c 1+1=25y 1=27h
 C+1=25w 1+1=260 1=27v 4o=Fd 4=1j 1=3h 7=2DW k+F=2E4 K=2EO DD+P=2S0 Th+l=2wS n=2xF 2=9z 1=1xl 1=AH
 3+4/2=2xM 2=9Z 1=A5 1=9Y 1=9a 2=2xX 3=2xa 9+1=9H 1+1a/2=2xl 9+2/2=2zU 5=2zb 84s+i/2=B4T K+Q/2=B5V
 2C+C/2=B87 4+y/2=B8N B+2/2=B9W 2=1xh 1+8/2=B9b 5=B9o 2=9t 3+2/2=B9t 4+I/2=B9z 2=9u 1=9k 1=9p 1=A0
 1=9y 2=Ao 1=AR 1=An 1=BPP 1+E/2=BAT 2=B9w 1=AM 1=1y2 1+2/2=BAm 7=BAv 6+2/2=BB1 T=BBW 5nw+P=Gzx
 Ji+d=HKC 2D+Z=HN2 2X/2=HQ7 1+9=HQ8 2+E=HQJ 2+6=HQZ 2+1=HQh SZ+o=Htg nG+V=IhE 5h3+V=OOm 8AL+X=WZe"

/-- Upper case undoes lower case; some characters are forms of a letter that has another one. -/
def upperShifts : Shifts := .ofText
  "2v=Eu 20=1B 1G=1L 18=7I 3=7L 3=7O d=81 5T=Er 21=F1 E=Ek 1=Eq 4=F4 1=Ey Q=Es 1=Ez 4=En 1dL=Go
 1=Gq 1=H0 1+1=H3 1=H4 1=HC 1=I6 1=B4c 8Z=21Q 4h=Er" ++
  lowerShifts.map (·.back)

def upperExpansions : Expansions := .ofText 1 876
  "3b=1L+1L 1i=BI+1G 2h=1C+Ca 6i=j+CW+CP W=v++ 7b=LV+Ly 1fT=1A+DB 1M+CW 1P+CY 1R+ 13+BK 2w=v+Ch
 2=++CO 2=++CP 2=++DS g=248+j 249+ 24A+ 24B+ 24C+ 24D+ 24E+ 24F+ 248+ 249+ 24A+ 24B+ 24C+ 24D+ 24E+
 24F+ 24e+ 24f+ 24g+ 24h+ 24i+ 24j+ 24k+ 24l+ 24e+ 24f+ 24g+ 24h+ 24i+ 24j+ 24k+ 24l+ 25g+ 25h+ 25i+
 25j+ 25k+ 25l+ 25m+ 25n+ 25g+ 25h+ 25i+ 25j+ 25k+ 25l+ 25m+ 25n+ 3=270+ b+ Q+ 2=b+DS ++j 5=+j
 6=27G+ h+ T+ 2=h+DS ++j 5=+j 6=j+CW+CO ++CP 3=+DS +CW+DS B=v++CO ++CP r+Ch 2=v+DS +CW+DS B=282+j z+
 Z+ 2=z+DS ++j 5=+j EaK=18+18 +1B +1E +18+1B ++1E 1L+1M + D=Lk+Lm +LV +Lb Lu+Lm Lk+Ld"

/-- Characters whose title case is not their upper case. -/
def titleShifts : Shifts := .ofText
  "7I=7J 1=7J*2 1=7M*3 1=7P*3 b=82 1=82*2 zN+g=17Q 3+2=189 xt+7=26C 1+7=26C 1+7=26S*2 1+7=26i*2
 4=272 9=272 7=27I 9=27I d=284 9=284"

def titleExpansions : Expansions := .ofText 1 776
  "3b=1L+1r JE=LV+Mk 1k3=270+z 2=EY+ 3=Ej+w+z B=27G+z 2=Eb+ 3=Ep+w+z h=282+z 2=Eh+ 3=F7+w+z
 EaP=18+1e +1h +1k +1e+1h ++1k 1L+1s + D=Lk+MY +MH +MN Lu+MY Lk+MP"

/-- Small letters from U+0080 on without a capital. -/
def lowerRanges : Ranges := .ofText
  "2k G 22 H 16 .E0F1F040o0n0J5 S+10 .2Z81V4 2Q M W 1E 5k+e 1Yu+35 3T+7 2 2r+6 1U+2
 .21B221B131B5B221 1y .E0HC 1m .4140S050503193 k4 .3036 1f 86a+1 2N+1 11+8 .M070Q0a020Z2 DG+g 2+C
 5Ie+6 D+4 pF .322f28 Dbs+P .R62HRPR320262A R+P*8 .RRTO25RO25RO25RO25RO2520 Tl+9 2+J"

/-- Capitals from U+0080 on without a small letter. -/
def upperRanges : Ranges := .ofText
  "4u As+2 1wU .504232304470404133B160 Sx1+P .RPRPR02130313327RPR1233726S123242046SP R+P*5 V+O Y+O*4
 Y 1gs+P 7+P*2"

/-- Letters that are neither, such as the digraph U+01C5. -/
def titleRanges : Ranges := .ofText
  "7J 3 3 d 1yA+7 9+7*2 D G m"

/-- Characters that a final sigma looks past. -/
def ignorableRanges : Ranges := .ofText
  "d 7 C a 2 1A .50205031 88+35 .5150A120 44+6 3M .60oi20212120j0C5BA20a0BKH0 1e+7 .2923Y020VQ 1U+A
 .xA5030PNi2j08177gvu020575046B1E0G0x05390L1R031w051513240V140C1w0542150L1N520x030239081C1V0 10
 .D0p040u022622381C1U0x0307061L1T1w15390L1U0 1B .8220 1T .36C8 1b .38A025 1D+1 .S02020uD24216A2ZA0
 1f+3 .252131Q152H3E03170G0 1X 9p+2 FH+2 .U1V1V1 13+1 .26903A4060k4q0 14+1 Z 1v+2 .51A072 3Y+1
 .30x0262020377930e09Uo3n0242060f8D1X33122v0214022x731 13+5 1L+2 .2C26507041 p+10 E Z+1c 7C
 .22C2E2E2E1D491B03034o42920E0HCqW lg+1 1q+2 22 G 1Z+V m 7a .b34460 1W+5 1W+2 7Oh KB+5 4N 1b+3
 .2920T3 1J+1 F+X 1H O+2 1g+2 .41904050Q160 2S+1 .RHE0d7QAl2n03331I0M1 15+5
 .3131D090a0C0q022316120S0F16120 1d+4 A+2 1y 3 5 5Gz 2O+G 9G+F .40DFZ030 2k .8070C0a020m0k1 16 M+2
 8I 3f 2Q+4 Gc+5 .2f28 9P+2 .2163f250 2g+1 9G+3 6G+1 2U+A o+3 20 .tEg031B2o3313050B0p2b427 11
 .D1r8B330 1Y+2 .302170 2b .47M1w140c644 3A+7 .3220O0 1N+5 .205121 3r+3 .7121S1 1O+7 .3021 1j
 .203520 1e+2 .3324 4C+8 2+1 49+1 2 5 2L+3 .3150X9f53390A532lC21 6Z+6 .2520 1L+L .362121 1z+5
 .40212620 1B+1 4 2 5c+1 1Pg+8 3dw+4 .y6A3 Gi 12+G 13+1 2+1 4GS+3 .2621 q7+1 2+3 1Dp+j 3+M 8n+2
 .AF36V3 2P+2 Vw+s .5n90F0N42E Lx+6 .2G362124 4E+D 5x 10+3 OH+6 1m+7 i8+4 3JNy V+1X 25+3r"

def isTitleLetter : Bool := if c.toNat < 128 then false else titleRanges.has c

def isLowerLetter : Bool :=
  if c.toNat < 128 then c.isLower
  else upperShifts.move c && !isTitleLetter c || lowerRanges.has c

def isUpperLetter : Bool :=
  if c.toNat < 128 then c.isUpper
  else lowerShifts.move c && !isTitleLetter c || upperRanges.has c

def lowerChar : Char :=
  if c.toNat < 128 then c.toLower else if c.toNat = 0x130 then 'i' else lowerShifts.apply c

/-- `x` and the ASCII character `c` are the same letter without regard to case. The dotless i and
the long s count as forms of i and s. -/
def sameLetter (c x : Char) : Bool :=
  let y := lowerChar x
  let d := lowerChar c
  y = d || (d = 'i' && y.toNat = 0x131) || (d = 's' && y.toNat = 0x17F)

/-- Whether a capital sigma with `before` (nearest first) and `after` it ends a word. -/
def finalSigma (before after : Chars) : Bool :=
  let reaches (cs : Chars) : Bool :=
    match cs.dropWhile ignorableRanges.has with
    | [] => false
    | c :: _ => isLowerLetter c || isUpperLetter c || isTitleLetter c
  reaches before && !reaches after

/-- `before` holds what has been read, nearest first. -/
def lowerFrom : Chars → Chars → Chars
  | _, [] => []
  | before, c :: r =>
    if c.toNat < 128 then c.toLower :: lowerFrom (c :: before) r
    else if c.toNat = 0x3A3 then
      Char.ofNat (if finalSigma before r then 0x3C2 else 0x3C3) :: lowerFrom (c :: before) r
    else if c.toNat = 0x130 then 'i' :: Char.ofNat 0x307 :: lowerFrom (c :: before) r
    else lowerShifts.apply c :: lowerFrom (c :: before) r

def lower : Chars := lowerFrom [] cs

def upperForm : Chars :=
  if c.toNat < 128 then [c.toUpper]
  else (upperExpansions.get? c).getD [upperShifts.apply c]

def upper : Chars := cs.flatMap upperForm

def titleForm : Chars :=
  if c.toNat < 128 then [c.toUpper]
  else if titleShifts.move c then [titleShifts.apply c]
  else (titleExpansions.get? c).getD (upperForm c)

/-- The first character in title case and the rest in lower case. -/
def capitalize : Chars → Chars
  | [] => []
  | c :: r => titleForm c ++ lowerFrom [c] r

/-- There is a cased letter and none that is upper case. -/
def isLowerCase : Bool :=
  cs.any isLowerLetter && cs.all fun c => !isUpperLetter c && !isTitleLetter c

def lowered : String := .ofList (lower s.toList)

def uppered : String := .ofList (upper s.toList)

/-!
## Word characters and digits

`isWord` is the class of letters, digits and numerals of any script together with the underscore.
`digit?` reads a decimal digit of any script. Below U+0080 both are given by rule, above it by
table.
-/

def letterRanges : Ranges := .ofText
  "2k .812041222M2U 2+7N .5BF48020 26+4 .2133207022202J 2+1K 2+2E 9+2f .2b307e 1A+Q .53kgM951 2+1a
 .20G18E30H02T U+1Q
 .C0FgA1506L50A040OO8A6N25Ifxr40J089592F57313L26204340H0E1225B353095513L26212121W3208932H8222L26212440J0G159A0C7313L26212440V1225926C025422341202141424BN0MCJ7222M2F40R2303159962057222M292440W1215921I8222e30H062295I256H4N282036W9Il21D6A9e120242N202921A03420A933X0WJD72ZS4
 1s+g .LA75534041825CD0297b20603g 2+5M .233620233e233W233620233E2u23 3+14 .FJ4F H+1N 3+5 4+9z .3G2P
 6+1C .4A8HEIFHFC22Gpa0504979N9 7+1Q .843X20 6+17 .BUed34Ch5P7AcMAqi979E0 1W+k
 .I749gTEtRZT94m388g32g3252140 6+35 13+4T .353b35372020202U3q2620422643355C6226 1s+1 .356A7C 1e
 .50392044702020232A3364502v Bj+x 1H+L AB+T IH+3g .7341A03b20603t80HMA6 2+6*7 1J 7a+2 .Q88434 5+1N
 7+2 2+1R .236g 2+1V .43BVnFX9V72EX9eE 5B+1iJ 13+5lM 16+j 3+4K .4RLkHU 3+1H e+8 3+1e 3+11
 .612024PF22232ME5BpFnT9P540212bBMQS8kTA742O2eO227597M404n2041343020P23A82D53535A6262g2D 7+1q E+9
 7+2uB .DM5m 2CL+5t 3+1h .d6D460292C24202121 2+1j Y+5q J+11 .3rfB 1t+4 2+2A .K98P7P C+1Q
 .45353532aB2P2I212E3D Z+1y .DiDuI1 3x+S .4mHQ5ZAT6bBT3Z5724 h+2X .397Z5Z5d9pDA2E26212A2E2621 16+50
 .ALB7P52f28 18+5 .302h21403M3U3b98nI216W5P 19+t .5J3kG3222SB8OU2VX72R74HrBL3Q6PO6 1J+1A .uoEo8fD9
 4l+U .2f71 1H+d .9LC3SHlRLMDqRT2130EiXO89AZG950309Y40DlF3CA205JCH2O 1N+6
 .20232E298kI9C7313L26212440J0D4 2Z+q .J36962VlL12099 2h+k .g3blL0C9dgE089tQMB56 30+h 1t+1K
 .D73037212NG020F9 19+7 .3cH020T0Bd80M0CjK0 J+1A 4G+8 .2aI0GS6T 1p+6 .212bM0A975212VF089 51+I 34 G+K
 i+Er 1f+1m I+39 gX+1Y G+HG 13K+9O 2FG+9A .8U29 7+1G .297TJlH3D9262K6I B7+1O 1i+1C 6 15+C 13+1 2
 T+1ax 9+Jx h+8 2K8+3 .2621 2+4g .k2I3 9+6N bF+1i .6C4889 1Tz+J 1l+O 2C+1M 2+18 .213031332B2026 2+12
 .2337262R23242046 2+5T .3O2O2U2O2U2O2U2O2U2O273n Sv+U 7m+i .B63950 5C+T .Jh59 KF+6 .23212E 2+3A 3+8
 n+15 .8059 Cm+w .2223 1F+i 2+E 39+3 .2Q212030292320207050202022212030 2*4 .21203326232320292G62242G
 9N+C iy+9 Gd+B71 X+14y 8+3Z 3+1Uv F+1wW o4+8j OJ+1He"

def isLetterOrDigit : Bool :=
  if c.toNat < 128 then c.isAlphanum else letterRanges.has c

def isWord : Bool := c = '_' || isLetterOrDigit c

/-- The zeros of the decimal digit rows; the nine characters after each are its one to nine. -/
def digitZeros : Ranges := (Ranges.ofText
  "QK 2K 3M 6o 24*9 1i 24 1I 4e 1I UC m 50 2E 2q G 36 1Y 2K G 9B2 B6 m 3M W 1Y 6i 5XE My ZM DG 2E
 18 2U 4e 5g 24 6C 1o*2 6y 1o CO 48 1I 56u 1Y 2K 7Dy A*4 cM 6y QK 1Eu").map fun r =>
    ⟨r.first, r.first + 9⟩

def digit? : Option Nat :=
  if c.toNat < 128 then (if c.isDigit then some (c.toNat - 48) else none)
  else (digitZeros.find? fun r => r.first ≤ c.toNat && c.toNat ≤ r.last).map fun r =>
    c.toNat - r.first

def isDecimal : Bool := (digit? c).isSome

/-! ## Characters of a name and characters that print

`isNameStart` and `isNamePart` are the characters that can begin and continue an identifier,
`isPrintable` those that stand for themselves in quoted text.
-/

/-- Numerals from U+0080 on that are no digits and cannot begin a name. -/
def numeralRanges : Ranges := .ofText
  "2s+1 .6032 BI Qk+5 65+5 1x+2 2A+6 3W+6 I+8 31 24 1v+9 HO+J IO+9 7l RC .4579 3D+F g+Ow MM 4w Dz+3
 2F+2Z 7ov+5 5bV+5 6Z+1u .2022 2*4 4e+1 5o+i 14+M 5W+Q b+3 LV+7 .Q6e8 1E+4 N+5 2b+1 3+11 13+8 .r1V2
 1E+4 1h+7 .P7g6 5L+5 5h+U 2Z+9 h+3 1p+6 2B+J 68+J Lm+1 6x+8 E4+I Dk+K 51r+6 Ct+M 6g6+2S 1Pz+8 F0+3I
 FX+C"

/-- What else can continue a name and not begin it, from U+0080 on. -/
def namePartRanges : Ranges := .ofText
  "2x 9R+1n O 44+4 4I+i .20212120 1B+A .nKH0 1e+6 .3923av 1U+A .x8A0PNi2 z+1B 2+24
 .U2v83132A0B1R032v024513240V5C2v92222L1N522v8313282B1V0y44223A0f4u8222381C1U2v8222381C1T3u92223A0B1U2
 19 .552027J1 10+9 D+7 1b+B C+5 1D+1 .S0202051oJ2H2ZA0 1d+J O+19 BM+2 A+8 Ez+3 .T2U1V1 13+V .A0k220
 2U 1v+B 5+B 2Z .z4w92S30nD2F o+16 d+8 D+1r n+J 2T+2 2+b 3D+11 9I+1 K 20+C .504B nX+2 2I 1Z+V 8x+5
 1i+1 7qX 5+9 X+1L 4P+b 5 1M+17 .RHEkQC j+12 b 16+D D+A k+18 .g461 3p+7 2+1 5Gz Bu+F .HF41P2 3s 1X+1
 9m 3f 2Q+4 Qx+2 .2163f250 2g+1 9G+3 6G+1 2U+A o+3 1z+18 .g4Bx80 10+q .H1j0 D+12 .9321 1V+B 7 2b+B
 .M3u93132A0B13644 37+H O 1K+J 3o+6 .38S1 1L+G 1j+C 1e+E 49+E 3y+5 .2138 2I+6 .3640Tz90 A+1A 6Y+7
 2+7 1L+L 2+D 1z+5 .402128 15+4 .2124 5c+3 53i+4 y+6 Gv+u 8+3 1K C+1 56a+1 1Du+j 3+M 8l+4 .459736V3
 2P+2 Vw+s .5n90F0N42E Lx+6 .2G362124 4E+6 64 10+3 OH+6 1m+6 3KAI+3r"

/-- Controls, unassigned code points and blanks other than the space, from U+0080 on, with
letters, digits and characters of names between them. -/
def unprintableRanges : Ranges := .ofText
  "24+W D BX+1 .738N 6Q+e .p140uc7GN0 37 n+2r .y1o1GU2G W+1L 2c+1Z Q+1e I+1m D+1r J+1l M+1z N+32 7+L
 R+1p 4+1B U+2d 1B+e .ebG0Ea 3D+9 66+4R X+2 R+1d AL T+2 1S+b P+1A 1X+X F+4v 2+2 h+1n 11+1 14+12 F+1
 W+24 m+20 .z2G2zpC7 i+BG .G0F8K5AGP7mKSGYEYE 2H+3 Ai+O C+K TF+1 X 5e+4 k+1A 3+1m 23+X R 1S+B 3T+P
 D+4 12+1Q 1g+2J 1N+B m 7cU+2 u+8 5d+J 2z+7 3I+c .y2B5 v+1N D+5 1t+A V+2 1H+F Y+1U 1g+N .Tuz3 23+5Gw
 R+E 22+F 7C+10 .2Vh5q0K0 5+2O 35+W .808C 3+49 4+p 1R .E22k l+6i c+3 F+6a D+Bn 1B+23 S+4 2+4N A+6
 13+V e+3 D+13 U+14 5+Cb 4+25 h+L R+1t 1H+m 11 6+1q .J7e8 1Z+o j+1X C+5V 1V 6+T 1B+3r d+X 18+Q E+I
 x+1t O+2y z+46 D+2M C+Q 1B+7 1M+6W F+f X+9X Q+3C p+C Eu+3R 6+jq 1c+3tS 1K+m 7+9 19+CH 1U+5E 6+56k
 5+1F9 1t+x 3z+9 e+1 1D+7 1p+K 19+2z 1Q+Dg 4j+1 BL+Rt 3+6w 2+QH 3+Ce 17+1D 10+6z 3+4L j+3 1d+B
 .G1G0G0c9 2p+t .UCj3A63D 7+2T Ft+4 .H2E2 1t+B 1S+6 .D32ED3v7B5f7V1 3+1F 5V+B .F1626288U2C479B59788
 2O u+480q"

def isNameStart : Bool :=
  if c.toNat < 128 then c.isAlpha || c = '_'
  else letterRanges.has c && !isDecimal c && !numeralRanges.has c ||
    [0x1885, 0x1886, 0x2118, 0x212E].contains c.toNat

def isNamePart : Bool :=
  if c.toNat < 128 then c.isAlphanum || c = '_'
  else isNameStart c || isDecimal c || namePartRanges.has c

def isPrintable : Bool :=
  if c.toNat < 128 then 32 ≤ c.toNat && c.toNat < 127
  else isLetterOrDigit c || isNamePart c || !unprintableRanges.has c

/-! ## Quoted text

`quoted` puts a text in quotes the way listings show it: in single quotes, or in double quotes when
it holds single quotes and no double ones. Characters that do not print are written as escapes.
-/

/-- The hexadecimal digits of `n`, at least `width` of them. -/
def hexText (width n : Nat) : Chars :=
  let ds := Nat.toDigits 16 n
  List.replicate (width - ds.length) '0' ++ ds

def quotedChar (quote c : Char) : Chars :=
  if c = quote || c = '\\' then ['\\', c]
  else if c = '\n' then ['\\', 'n']
  else if c = '\r' then ['\\', 'r']
  else if c = '\t' then ['\\', 't']
  else if isPrintable c then [c]
  else if c.toNat < 0x100 then '\\' :: 'x' :: hexText 2 c.toNat
  else if c.toNat < 0x10000 then '\\' :: 'u' :: hexText 4 c.toNat
  else '\\' :: 'U' :: hexText 8 c.toNat

def quoteFor : Char :=
  if cs.contains '\'' && !cs.contains '"' then '"' else '\''

def quote : Chars :=
  let q := quoteFor cs
  q :: cs.flatMap (quotedChar q) ++ [q]

def quoted : String := .ofList (quote s.toList)

end Text

end ReviewDesk
