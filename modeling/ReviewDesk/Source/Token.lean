import ReviewDesk.Source.Tree
import ReviewDesk.Text.Decomposition
import ReviewDesk.Value.Json

/-!
# Tokens and texts of Python programs

`tokensFrom?` cuts a program into its tokens: names, numbers, pieces of text, operators, and the ends of
lines and blocks. A text that cannot be cut up is not a program, and has no tokens.
-/

namespace ReviewDesk.Source

/-- A quoted piece of text as it stands in the program. -/
structure Piece where
  raw : Bool
  bytes : Bool
  format : Bool
  marked : Bool
  body : Chars
  deriving DecidableEq, Inhabited

inductive TokenKind where
  | name (id : String)
  | number (value : Literal)
  | text (piece : Piece)
  | op (symbol : String)
  | newline
  | indent
  | dedent
  | finish
  deriving Inhabited

structure Token where
  kind : TokenKind
  line : Nat
  endLine : Nat
  deriving Inhabited

/-- The token is part of the program's text and not of its layout. -/
def Token.isText (t : Token) : Bool :=
  match t.kind with
  | .newline | .indent | .dedent | .finish => false
  | _ => true

/-! ## Numbers -/

def isNameByte (c : Char) : Bool := c.isAlphanum || c = '_' || 128 ≤ c.toNat

variable (cs : Chars)

/-- The words that may follow a number without a blank. -/
def mayFollowNumber : Bool :=
  let is (w : String) : Bool :=
    w.toList.isPrefixOf cs && ((cs.drop w.length).head?.map fun c => !isNameByte c).getD true
  is "and" || is "else" || is "for" || is "or" || is "not" ||
    (match cs with
      | 'i' :: c :: _ => c = 'f' || c = 'n' || c = 's'
      | _ => false)

/-- What follows a number does not run into it. -/
def endsNumber : Bool :=
  match cs with
  | [] => true
  | c :: _ => !isNameByte c || mayFollowNumber cs

/-- Digits with single underscores between them: the digits, and what follows. The first character
is a digit. -/
def spanDigitGroups (ok : Char → Bool) : Chars → Option (Chars × Chars)
  | [] => some ([], [])
  | '_' :: c :: r =>
    if ok c then (spanDigitGroups ok r).map fun (ds, rest) => (c :: ds, rest) else none
  | ['_'] => none
  | c :: r =>
    if ok c then (spanDigitGroups ok r).map fun (ds, rest) => (c :: ds, rest) else some ([], c :: r)

def isHexDigit (c : Char) : Bool := (Text.hexDigit? c).isSome

def isOctalDigit (c : Char) : Bool := '0' ≤ c && c ≤ '7'

def isBinaryDigit (c : Char) : Bool := c = '0' || c = '1'

/-- The digits of a number with a base mark, which may begin with an underscore. -/
def basedDigits (base : Nat) (ok : Char → Bool) (cs : Chars) : Option (Literal × Chars) :=
  let cs := match cs with
    | '_' :: r => r
    | r => r
  if !(cs.head?.map ok).getD false then none
  else match spanDigitGroups ok cs with
  | some (ds, rest) =>
    if (rest.head?.map Char.isDigit).getD false then none
    else if endsNumber rest then
      some (.int (ds.foldl (fun n c => n * base + (Text.hexDigit? c).getD 0) 0), rest)
    else none
  | none => none

/-- The exponent at the head, if there is one: its value, and what follows. Refuses an exponent
mark with a sign and no digits. -/
def exponentPart : Option (Option Int × Chars) :=
  match cs with
  | c :: r =>
    if c = 'e' || c = 'E' then
      let (sign, signed, r') := match r with
        | '-' :: r' => ((-1 : Int), true, r')
        | '+' :: r' => (1, true, r')
        | _ => (1, false, r)
      if (r'.head?.map Char.isDigit).getD false then
        (spanDigitGroups Char.isDigit r').map fun (ds, rest) => (some (sign * Json.digitsValue ds),
          rest)
      else if signed then none
      else some (none, cs)
    else some (none, cs)
  | [] => some (none, [])

/-- The end of a number written in decimal: the parts after the point, the exponent, and the mark of
an imaginary number. -/
def finishDecimal (whole : Chars) (rest : Chars) : Option (Literal × Chars) := do
  let (pointed, fraction, rest) ← match rest with
    | '.' :: r =>
      if (r.head?.map Char.isDigit).getD false then
        (spanDigitGroups Char.isDigit r).map fun (ds, rest) => (true, ds, rest)
      else some (true, [], r)
    | _ => some (false, [], rest)
  let (exponent, rest) ← exponentPart rest
  let x :=
    Decimal.floatOfDigits (Json.digitsValue (whole ++ fraction)) (exponent.getD 0 - fraction.length)
  match rest with
  | 'j' :: r | 'J' :: r => if endsNumber r then some (.imaginary x, r) else none
  | _ =>
    if !endsNumber rest then none
    else if pointed || exponent.isSome then some (.real x, rest)
    else if whole.any (· != '0') && whole.head? = some '0' then none
    else if 4300 < whole.length && whole.any (· != '0') then none
    else some (.int (Json.digitsValue whole), rest)

def number? : Option (Literal × Chars) :=
  match cs with
  | '0' :: 'x' :: r | '0' :: 'X' :: r => basedDigits 16 isHexDigit r
  | '0' :: 'o' :: r | '0' :: 'O' :: r => basedDigits 8 isOctalDigit r
  | '0' :: 'b' :: r | '0' :: 'B' :: r => basedDigits 2 isBinaryDigit r
  | '.' :: _ => finishDecimal [] cs
  | _ => do
    let (ds, rest) ← spanDigitGroups Char.isDigit cs
    finishDecimal ds rest

/-! ## Pieces of text -/

/-- The marks before a quote: raw, bytes, format, `u`. -/
def pieceMarks? : Option Piece :=
  let low := cs.map Char.toLower
  let piece (raw bytes format marked : Bool) : Option Piece := some ⟨raw, bytes, format, marked, []⟩
  match low with
  | [] => piece false false false false
  | ['r'] => piece true false false false
  | ['b'] => piece false true false false
  | ['f'] => piece false false true false
  | ['u'] => piece false false false true
  | ['r', 'b'] | ['b', 'r'] => piece true true false false
  | ['r', 'f'] | ['f', 'r'] => piece true false true false
  | _ => none

/-- The rest of a text after its opening quotes: its body, last character first, and what follows.
`width` is the number of quotes and `seen` how many closing ones were read. -/
def closeText (quote : Char) (width : Nat) : Nat → Chars → Chars → Option
    (Chars × Chars)
  | seen, body, rest =>
    if seen = width then some (body.drop width, rest)
    else match rest with
      | [] => none
      | c :: r =>
        if c = quote then closeText quote width (seen + 1) (c :: body) r
        else if width = 1 && c = '\n' then none
        else if c = '\\' then
          match r with
          | [] => none
          | d :: r' => closeText quote width 0 (d :: c :: body) r'
        else closeText quote width 0 (c :: body) r

def textBody? (quote : Char) (cs : Chars) : Option (Chars × Chars) :=
  match cs with
  | a :: b :: c :: r =>
    if b = quote && c = quote && a = quote then (closeText quote 3 0 [] r).map fun (b, r) =>
      (b.reverse, r)
    else (closeText quote 1 0 [] (b :: c :: r)).map fun (b, r) => (b.reverse, r)
  | _ :: r => (closeText quote 1 0 [] r).map fun (b, r) => (b.reverse, r)
  | [] => none

/-! ## Cutting up a program -/

def operators : List String :=
  ["**=", "//=", ">>=", "<<=", "...", "!=", "%=", "&=", "**", "*=", "+=", "-=", "->", "//", "/=",
   ":=", "<<", "<=", "==", ">=", ">>", "@=", "^=", "|=", "%", "&", "(", ")", "*", "+", ",", "-",
   ".", "/", ":", ";", "<", "=", ">", "@", "[", "]", "^", "\x7b", "|", "\x7d", "~"]

def operator? : Option String := operators.find? fun o => o.toList.isPrefixOf cs

def closerOf (c : Char) : Char := if c = '(' then ')' else if c = '[' then ']' else '\x7d'

/-- A depth of indentation, with tabs counted in two ways that have to agree. -/
structure Indent where
  column : Nat
  other : Nat
  deriving DecidableEq

/-- The state of the cutting: `open_` holds the closing brackets that are due, `indents` the blocks
that are open, innermost first. -/
structure Cutter where
  rest : Chars
  line : Nat
  open_ : Chars
  indents : List Indent
  found : List Token

def Cutter.push (s : Cutter) (k : TokenKind) (line endLine : Nat) : Cutter :=
  { s with found := ⟨k, line, endLine⟩ :: s.found }

/-- The indentation at the head of a line and what follows it. A backslash at the end of a line
joins the next one to it, and the first such line decides. -/
def measure : Indent → Option Indent → Nat → Chars → Option
    (Indent × Option Indent × Nat × Chars)
  | at_, fixed, line, ' ' :: r => measure ⟨at_.column + 1, at_.other + 1⟩ fixed line r
  | at_, fixed, line, '\t' :: r => measure ⟨(at_.column / 8 + 1) * 8, at_.other + 1⟩ fixed line r
  | _, fixed, line, '\x0c' :: r => measure ⟨0, 0⟩ fixed line r
  | _, _, _, ['\\', '\n'] => none
  | at_, fixed, line, '\\' :: '\n' :: r =>
    let first := (fixed.map (·.column)).getD 0
    measure at_ (if first = 0 then some ⟨at_.column, at_.column⟩ else fixed) (line + 1) r
  | _, _, _, '\\' :: _ => none
  | at_, fixed, line, cs => some (at_, fixed, line, cs)

/-- Opens or closes blocks so that the innermost open one is at `at_`. -/
def Cutter.indentTo (s : Cutter) (at_ : Indent) : Option Cutter :=
  match s.indents with
  | [] => none
  | top :: below =>
    if at_.column = top.column then (if at_.other = top.other then some s else none)
    else if top.column < at_.column then
      if at_.other ≤ top.other || 100 ≤ s.indents.length then none
      else some { s.push .indent s.line s.line with indents := at_ :: top :: below }
    else
      let closed := s.indents.takeWhile fun i => at_.column < i.column
      let left := s.indents.drop closed.length
      match left with
      | i :: _ =>
        if i = at_ then
          some { s with
            indents := left
            found := List.replicate closed.length ⟨.dedent, s.line, s.line⟩ ++ s.found }
        else none
      | [] => none

/-- Reads the token at the head of `s.rest`, which is not a blank, a comment or the end of a line.
-/
def Cutter.token (s : Cutter) : Option Cutter :=
  match s.rest with
  | [] => none
  | c :: r =>
    if Text.isNameStart c || 128 ≤ c.toNat then
      let (word, rest) := s.rest.span isNameByte
      match rest with
      | q :: _ =>
        if (q = '"' || q = '\'') && (pieceMarks? word).isSome then quotedText s word rest q
        else plainName s word rest
      | [] => plainName s word rest
    else if c = '"' || c = '\'' then quotedText s [] s.rest c
    else if c.isDigit || (c = '.' && (r.head?.map Char.isDigit).getD false) then do
      let (value, rest) ← number? s.rest
      return { s.push (.number value) s.line s.line with rest := rest }
    else do
      let o ← operator? s.rest
      let s' := { s.push (.op o) s.line s.line with rest := s.rest.drop o.length }
      if c = '(' || c = '[' || c = '\x7b' then
        if 200 ≤ s.open_.length then none else some { s' with open_ := closerOf c :: s.open_ }
      else if c = ')' || c = ']' || c = '\x7d' then
        match s.open_ with
        | d :: ds => if d = c then some { s' with open_ := ds } else none
        | [] => none
      else some s'
where
  plainName (s : Cutter) (word rest : Chars) : Option Cutter :=
    match word with
    | [] => none
    | c :: r =>
      if Text.isNameStart c && r.all Text.isNamePart then
        some { s.push (.name (.ofList word)) s.line s.line with rest := rest }
      else none
  quotedText (s : Cutter) (word rest : Chars) (quote : Char) : Option Cutter := do
    let marks ← pieceMarks? word
    let (body, rest) ← textBody? quote rest
    let endLine := s.line + body.count '\n'
    let s := s.push (.text { marks with body := body }) s.line endLine
    return { s with rest := rest, line := endLine }

/-- Reads on to the end of the program; `fresh` says that a line begins at the head. -/
def cut : Nat → Bool → Cutter → Option Cutter
  | 0, _, _ => none
  | fuel + 1, true, s =>
    match measure ⟨0, 0⟩ none s.line s.rest with
    | none => none
    | some (at_, fixed, line, rest) =>
      let s := { s with line := line, rest := rest }
      match rest with
      | [] =>
        if s.open_.isEmpty then
          let open_ := s.indents.length - 1
          some { s with
            found := ⟨.finish, s.line, s.line⟩ :: (List.replicate open_ ⟨.dedent, s.line, s.line⟩ ++
              s.found) }
        else none
      | '\n' :: r => cut fuel true { s with line := s.line + 1, rest := r }
      | '#' :: _ => cut fuel true { s with rest := rest.dropWhile (· != '\n') }
      | _ =>
        if s.open_.isEmpty then
          let at_ := match fixed with
            | some i => if i.column = 0 then at_ else i
            | none => at_
          match s.indentTo at_ with
          | some s => cut fuel false s
          | none => none
        else cut fuel false s
  | fuel + 1, false, s =>
    match s.rest with
    | [] => if s.open_.isEmpty then cut fuel true s else none
    | '\n' :: r =>
      if s.open_.isEmpty then
        cut fuel true { s.push .newline s.line s.line with line := s.line + 1, rest := r }
      else cut fuel true { s with line := s.line + 1, rest := r }
    | '\\' :: '\n' :: r =>
      if r.isEmpty then none else cut fuel false { s with line := s.line + 1, rest := r }
    | c :: r =>
      if c = ' ' || c = '\t' || c = '\x0c' then cut fuel false { s with rest := r }
      else if c = '#' then cut fuel false { s with rest := r.dropWhile (· != '\n') }
      else match s.token with
        | some s => cut fuel false s
        | none => none

/-- A carriage return, alone or before a line feed, becomes a line feed. -/
def plainLineEnds : Chars → Chars
  | [] => []
  | '\r' :: '\n' :: r => '\n' :: plainLineEnds r
  | c :: r => (if c = '\r' then '\n' else c) :: plainLineEnds r

def tokensFrom? (line : Nat) (text : Chars) : Option (List Token) :=
  if text.contains '\x00' then none
  else
    let text := plainLineEnds text
    let text := if text.getLast? = some '\n' || text.isEmpty then text else text ++ ['\n']
    (cut (3 * text.length + 3) true ⟨text, line, [], [⟨0, 0⟩], []⟩).map fun s => s.found.reverse

/-!
## Reading tokens

A `Reader` takes tokens off the front of a list, or fails. `Rules` holds the readers that call each
other in circles: a rule that needs one of them is written over a given `Rules`, and the circle is
closed in one place.
-/

/-- The tokens that are left, the line on which the last one taken ended, and how many there were.
-/
structure Tokens where
  rest : List Token
  lastLine : Nat
  size : Nat

abbrev Reader := StateT Tokens Option

namespace Reader

def peek : Reader TokenKind := fun s =>
  match s.rest with
  | t :: _ => some (t.kind, s)
  | [] => some (.finish, s)

def peekSecond : Reader TokenKind := fun s =>
  match s.rest with
  | _ :: t :: _ => some (t.kind, s)
  | _ => some (.finish, s)

def nextLine : Reader Nat := fun s =>
  match s.rest with
  | t :: _ => some (t.line, s)
  | [] => some (s.lastLine, s)

def lastLine : Reader Nat := fun s => some (s.lastLine, s)

def size : Reader Nat := fun s => some (s.size, s)

def take : Reader Token := fun s =>
  match s.rest with
  | t :: r => some (t, { s with rest := r, lastLine := if t.isText then t.endLine else s.lastLine })
  | [] => none

def fail {α : Type} : Reader α := fun _ => none

def orElse {α : Type} (a b : Reader α) : Reader α := fun s =>
  match a s with
  | some x => some x
  | none => b s

def ofOption {α : Type} (a : Option α) : Reader α := fun s => a.map (·, s)

def seesOp (o : String) : Reader Bool := do
  match ← peek with
  | .op p => return p == o
  | _ => return false

def seesWord (w : String) : Reader Bool := do
  match ← peek with
  | .name id => return id == w
  | _ => return false

def takeOp (o : String) : Reader Bool := do
  if ← seesOp o then
    let _ ← take
    return true
  return false

def takeWord (w : String) : Reader Bool := do
  if ← seesWord w then
    let _ ← take
    return true
  return false

def needOp (o : String) : Reader Unit := do
  if ← takeOp o then return () else fail

def needWord (w : String) : Reader Unit := do
  if ← takeWord w then return () else fail

def needNewline : Reader Unit := do
  match (← take).kind with
  | .newline => return ()
  | _ => fail

def needIndent : Reader Unit := do
  match (← take).kind with
  | .indent => return ()
  | _ => fail

def takeDedent : Reader Bool := do
  match ← peek with
  | .dedent =>
    let _ ← take
    return true
  | _ => return false

def keywords : List String :=
  ["False", "None", "True", "and", "as", "assert", "async", "await", "break", "class", "continue",
   "def", "del", "elif", "else", "except", "finally", "for", "from", "global", "if", "import", "in",
   "is", "lambda", "nonlocal", "not", "or", "pass", "raise", "return", "try", "while", "with",
   "yield"]

def isKeyword (w : String) : Bool := keywords.contains w

/-- A name that is not a keyword. Names that differ in variants of characters only are the same;
keywords are written in plain letters. -/
def name : Reader String := do
  match (← take).kind with
  | .name id => if isKeyword id then fail else return .ofList (Text.normal id.toList)
  | _ => fail

/-- Runs `step` until it has nothing more to add; `fuel` bounds how often. -/
def iterate {α : Type} (step : α → Reader (Option α)) : Nat → α → Reader α
  | 0, _ => fail
  | fuel + 1, a => do
    match ← step a with
    | some b => iterate step fuel b
    | none => return a

def loop {α : Type} (step : α → Reader (Option α)) (a : α) : Reader α := do
  iterate step ((← size) + 2) a

/-- Items separated by commas, at least one; says whether a comma follows the last. `more` tells
whether another item follows a comma. -/
def commaList {α : Type} (item : Reader α) (more : Reader Bool) : Reader (List α × Bool) := do
  let first ← item
  let (items, trailing, _) ← loop (fun (items, trailing, done) => do
    if done then return none
    if ← takeOp "," then
      if ← more then
        return some ((← item) :: items, false, false)
      return some (items, true, true)
    return some (items, trailing, true)) ([first], false, false)
  return (items.reverse, trailing)

def node (label : Label) (line : Nat) (parts : List Tree)
    (fits : label.Fits (parts.map (·.node)) := by exact trivial) : Reader Tree := do
  return .build .root label line (← lastLine) parts fits

end Reader

/-- The readers that call each other in circles. -/
structure Rules where
  /-- A conditional, a function without name, or anything that binds tighter. -/
  expression : Reader Tree
  inversion : Reader Tree
  factor : Reader Tree
  starExpressions : Reader Tree
  pattern : Reader Tree
  block : Reader (List Tree)
  /-- An expression inside a piece of text that begins on the given line. -/
  embedded : Nat → Chars → Option Tree

def Rules.stuck : Rules :=
  { expression := Reader.fail
    inversion := Reader.fail
    factor := Reader.fail
    starExpressions := Reader.fail
    pattern := Reader.fail
    block := Reader.fail
    embedded := fun _ _ => none }

def asParts (r : Role) (ns : List Tree) : List Tree := ns.map (·.as r)

theorem fits_boolOp (op : BoolOp) (first second : Tree) (more : List Tree) :
    (Label.boolOp op).Fits ((asParts .value (first :: second :: more)).map (·.node)) := by
  refine ⟨Nat.le_add_left .., fun p hp => ?_⟩
  obtain ⟨t, ht, rfl⟩ := List.mem_map.mp hp
  obtain ⟨x, _, rfl⟩ := List.mem_map.mp ht
  rfl

/-! ## Escapes in pieces of text

`unescape` gives the text that a piece stands for. A backslash before a character that makes no
escape stands for itself.
-/

/-- The value of the `count` hexadecimal digits at the head. -/
def hexValue? : Nat → Nat → Chars → Option (Nat × Chars)
  | 0, n, cs => some (n, cs)
  | count + 1, n, c :: r =>
    match Text.hexDigit? c with
    | some d => hexValue? count (n * 16 + d) r
    | none => none
  | _ + 1, _, [] => none

/-- The character of a code point; one that stands for no character becomes the replacement
character. -/
def charOf? (n : Nat) : Option Char :=
  if 0x10FFFF < n then none
  else if 0xD800 ≤ n && n ≤ 0xDFFF then some (Char.ofNat 0xFFFD)
  else some (Char.ofNat n)

/-- The value of up to `count` octal digits at the head. -/
def octalValue : Nat → Nat → Chars → Nat × Chars
  | 0, n, cs => (n, cs)
  | _ + 1, n, [] => (n, [])
  | count + 1, n, c :: r =>
    if '0' ≤ c && c ≤ '7' then octalValue count (n * 8 + (c.toNat - 48)) r else (n, c :: r)

def letterEscape? : Char → Option Char
  | '\\' => some '\\'
  | '\'' => some '\''
  | '"' => some '"'
  | 'a' => some '\x07'
  | 'b' => some '\x08'
  | 'f' => some '\x0c'
  | 'n' => some '\n'
  | 'r' => some '\r'
  | 't' => some '\t'
  | 'v' => some '\x0b'
  | _ => none

/-- A character with a name in braces: what follows it. -/
def namedEscape? : Option Chars :=
  match cs with
  | '\x7b' :: r =>
    let (name, rest) := r.span (· != '\x7d')
    if name.isEmpty || rest.isEmpty then none else some (rest.drop 1)
  | _ => none

/-- The escape after a backslash: the text it stands for, and what follows. -/
def escape? (bytes : Bool) (cs : Chars) : Option (Chars × Chars) :=
  match cs with
  | [] => some (['\\'], [])
  | '\n' :: r => some ([], r)
  | c :: r =>
    match letterEscape? c with
    | some x => some ([x], r)
    | none =>
      if '0' ≤ c && c ≤ '7' then
        let (n, rest) := octalValue 3 0 (c :: r)
        some ([Char.ofNat (if bytes then n % 256 else n)], rest)
      else if c = 'x' then (hexValue? 2 0 r).map fun (n, rest) => ([Char.ofNat n], rest)
      else if bytes then some (['\\', c], r)
      else if c = 'u' then do
        let (n, rest) ← hexValue? 4 0 r
        return ([← charOf? n], rest)
      else if c = 'U' then do
        let (n, rest) ← hexValue? 8 0 r
        return ([← charOf? n], rest)
      else if c = 'N' then (namedEscape? r).map fun rest => ([Char.ofNat 0xFFFD], rest)
      else some (['\\', c], r)

/-- Reads the escapes of a piece; `acc` is the text so far, last character first. -/
def unescapeFrom (bytes : Bool) : Nat → Chars → Chars → Option Chars
  | 0, acc, _ => some acc.reverse
  | _ + 1, acc, [] => some acc.reverse
  | fuel + 1, acc, '\\' :: r =>
    match escape? bytes r with
    | some (x, rest) => unescapeFrom bytes fuel (x.reverse ++ acc) rest
    | none => none
  | fuel + 1, acc, c :: r => unescapeFrom bytes fuel (c :: acc) r

def unescape (bytes : Bool) (cs : Chars) : Option Chars :=
  unescapeFrom bytes (cs.length + 1) [] cs

inductive Part where
  | literal (cs : Chars)
  | value (n : Tree)

/-- The literal stretch at the head: its characters, whether it ended with a doubled brace, and what
follows. `top` says that the stretch is not inside a format. -/
def literalSpan (raw top : Bool) : Nat → Chars → Chars → Option
    (Chars × Bool × Chars)
  | 0, _, _ => none
  | _ + 1, acc, [] => some (acc.reverse, false, [])
  | fuel + 1, acc, c :: r =>
    if !raw && c = '\\' && !r.isEmpty then
      match r with
      | 'N' :: '\x7b' :: r' =>
        let (name, rest) := r'.span (· != '\x7d')
        literalSpan raw top fuel ((rest.take 1).reverse ++ name.reverse ++ '\x7b' :: 'N' ::
          '\\' :: acc) (rest.drop 1)
      | d :: r' =>
        if d = '\x7b' || d = '\x7d' then brace (c :: acc) d r' else literalSpan raw top fuel
          (d :: c :: acc) r'
      | [] => none
    else if c = '\x7b' || c = '\x7d' then brace acc c r
    else literalSpan raw top fuel (c :: acc) r
where
  brace (acc : Chars) (c : Char) (r : Chars) : Option (Chars × Bool × Chars) :=
    if top && r.head? = some c then some ((c :: acc).reverse, true, r.drop 1)
    else if top && c = '\x7d' then none
    else some (acc.reverse, false, c :: r)

/-- The expression at the head of what follows an opening brace, and the rest from the character
that ends it. `quote` is the quote of the text we are in and whether it is tripled, `due` the
closing brackets that are due. -/
def expressionSpan : Nat → Option (Char × Bool) → Chars → Chars → Chars → Option
    (Chars × Chars)
  | 0, _, _, _, _ => none
  | _ + 1, _, _, _, [] => none
  | fuel + 1, quote, due, acc, c :: r =>
    if c = '\\' then none
    else match quote with
      | some (q, tripled) =>
        if c = q then
          if tripled then
            match r with
            | a :: b :: r' =>
              if a = q && b = q then expressionSpan fuel none due (b :: a :: c :: acc) r'
              else expressionSpan fuel quote due (c :: acc) r
            | _ => expressionSpan fuel quote due (c :: acc) r
          else expressionSpan fuel none due (c :: acc) r
        else expressionSpan fuel quote due (c :: acc) r
      | none =>
        if c = '\'' || c = '"' then
          match r with
          | a :: b :: r' =>
            if a = c && b = c then expressionSpan fuel (some (c, true)) due (b :: a :: c :: acc) r'
            else expressionSpan fuel (some (c, false)) due (c :: acc) r
          | _ => expressionSpan fuel (some (c, false)) due (c :: acc) r
        else if c = '[' || c = '\x7b' || c = '(' then
          if 200 ≤ due.length then none else expressionSpan fuel none (closerOf c :: due)
            (c :: acc) r
        else if c = '#' then none
        else if due.isEmpty && (c = '!' || c = ':' || c = '\x7d' || c = '=' || c = '>' ||
          c = '<') then
          if (c = '!' || c = '=' || c = '<' || c = '>') && r.head? = some '=' then
            expressionSpan fuel none due ('=' :: c :: acc) (r.drop 1)
          else if c = '>' || c = '<' then expressionSpan fuel none due (c :: acc) r
          else some (acc.reverse, c :: r)
        else if c = ']' || c = '\x7d' || c = ')' then
          match due with
          | d :: ds => if d = c then expressionSpan fuel none ds (c :: acc) r else none
          | [] => none
        else expressionSpan fuel none due (c :: acc) r

def isAsciiBlank (c : Char) : Bool := c = ' ' || (9 ≤ c.toNat && c.toNat ≤ 13)

def conversion? : Option (Option Char × Chars) :=
  match cs with
  | '!' :: c :: r => if c = 's' || c = 'r' || c = 'a' then some (some c, r) else none
  | ['!'] => none
  | _ => some (none, cs)

/-- Neighbouring literal stretches become one, and empty ones vanish. -/
def joinParts : List Part → List Part
  | [] => []
  | .literal a :: ps =>
    match joinParts ps with
    | .literal b :: qs => .literal (a ++ b) :: qs
    | qs => if a.isEmpty then qs else .literal a :: qs
  | p :: ps => p :: joinParts ps

/-- The nodes of formatted text that stands on the lines from `first` to `last`. -/
def partNodes (first last : Nat) (ps : List Part) : List Tree :=
  (joinParts ps).map fun
    | .literal cs => .build .value (.constant (.text cs false)) first last []
    | .value n => n.as .value

section
variable (embedded : Nat → Chars → Option Tree) (raw : Bool) (first last : Nat)

/-- The parts of formatted text from the head on: up to its end, or up to the brace that ends a
format at level `level`. `line` is the line of the head. -/
def formatParts : Nat → Nat → Nat → Chars → Option (List Part × Nat × Chars)
  | 0, _, _, _ => none
  | fuel + 1, level, line, cs => do
    let (stretch, doubled, rest) ← literalSpan raw (level == 0) (cs.length + 1) [] cs
    let text ← if raw then some stretch else unescape false stretch
    let line := line + stretch.count '\n'
    if doubled then
      let (ps, line, rest) ← formatParts fuel level line rest
      return (.literal text :: ps, line, rest)
    match rest with
    | '\x7b' :: r =>
      if 2 ≤ level then none
      else
        let (source, rest) ← expressionSpan (r.length + 1) none [] [] r
        let value ← embedded line source
        let line := line + source.count '\n'
        let (echo, line, rest) := match rest with
          | '=' :: r =>
            let (gap, rest) := r.span isAsciiBlank
            ([Part.literal (source ++ '=' :: gap)], line + gap.count '\n', rest)
          | _ => ([], line, rest)
        let (conversion, rest) ← conversion? rest
        let (format, line, rest) ← match rest with
          | ':' :: r => do
            let (ps, line, rest) ← formatParts fuel (level + 1) line r
            some ([Tree.build .format .joinedText first last (partNodes first last ps)], line, rest)
          | _ => some ([], line, rest)
        match rest with
        | '\x7d' :: r => do
          let mark :=
            if !echo.isEmpty && format.isEmpty && conversion.isNone then some 'r' else conversion
          let shown := Tree.build .value (.formattedValue mark) first last (value.as .value :: format)
          let (ps, line, rest) ← formatParts fuel level line r
          return (.literal text :: echo ++ .value shown :: ps, line, rest)
        | _ => none
    | _ => if level != 0 && rest.isEmpty then none else return ([.literal text], line, rest)

def pieceParts (p : Piece) (line : Nat) : Option (List Part) :=
  if p.format then
    (formatParts embedded p.raw first last (p.body.length + 1) 0 line p.body).map (·.1)
  else if p.raw then some [.literal p.body]
  else (unescape false p.body).map fun s => [.literal s]

end

def pieceBytes? (p : Piece) : Option Chars :=
  if p.body.all (·.toNat < 128) then (if p.raw then some p.body else unescape true p.body) else none

/-- The constant, or the formatted text, that neighbouring pieces with their lines stand for. -/
def textNode? (embedded : Nat → Chars → Option Tree) (first last : Nat)
    (pieces : List (Piece × Nat)) : Option Tree := do
  if pieces.all (·.1.bytes) then
    let parts ← pieces.mapM fun (p, _) => pieceBytes? p
    return .build .root (.constant (.bytes parts.flatten)) first last []
  else if pieces.any (·.1.bytes) then none
  else
    let parts ← pieces.mapM fun (p, line) => pieceParts embedded first last p line
    if pieces.any (·.1.format) then
      return .build .root .joinedText first last (partNodes first last parts.flatten)
    else
      let text := parts.flatten.flatMap fun
        | .literal cs => cs
        | .value _ => []
      let marked := (pieces.head?.map (·.1.marked)).getD false
      return .build .root (.constant (.text text marked)) first last []

end ReviewDesk.Source
