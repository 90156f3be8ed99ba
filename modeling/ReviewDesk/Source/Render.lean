import ReviewDesk.Decimal
import ReviewDesk.Source.Tree

/-!
# The text of an expression

`render?` writes an expression with one blank around operators and round brackets only where they
are needed. It gives nothing for an expression that has no such text: a number too long to write, or
a backslash inside the braces of formatted text.
-/

namespace ReviewDesk.Source

/-! ## How tightly an expression binds -/

namespace Level

def named : Nat := 1
def tuple : Nat := 2
def yield : Nat := 3
def test : Nat := 4
def or : Nat := 5
def and : Nat := 6
def not : Nat := 7
def compare : Nat := 8
def bitOr : Nat := 9
def bitXor : Nat := 10
def bitAnd : Nat := 11
def shift : Nat := 12
def arith : Nat := 13
def term : Nat := 14
def factor : Nat := 15
def power : Nat := 16
def await : Nat := 17
def atom : Nat := 18

def next (n : Nat) : Nat := min (n + 1) atom

end Level

open Level

def BinaryOp.text : BinaryOp → String
  | .add => "+"
  | .sub => "-"
  | .mult => "*"
  | .matMult => "@"
  | .div => "/"
  | .mod => "%"
  | .pow => "**"
  | .shiftLeft => "<<"
  | .shiftRight => ">>"
  | .bitOr => "|"
  | .bitXor => "^"
  | .bitAnd => "&"
  | .floorDiv => "//"

def BinaryOp.level : BinaryOp → Nat
  | .add | .sub => arith
  | .mult | .matMult | .div | .mod | .floorDiv => term
  | .pow => power
  | .shiftLeft | .shiftRight => shift
  | .bitOr => Level.bitOr
  | .bitXor => Level.bitXor
  | .bitAnd => Level.bitAnd

def CompareOp.text : CompareOp → String
  | .eq => "=="
  | .notEq => "!="
  | .less => "<"
  | .lessEq => "<="
  | .greater => ">"
  | .greaterEq => ">="
  | .same => "is"
  | .notSame => "is not"
  | .within => "in"
  | .notWithin => "not in"

/-! ## Constants -/

/-- Infinite numbers are written as a literal that overflows. -/
def finiteText (s : String) : String := Text.replaceText s "inf" "1e309"

/-- The number of an imaginary constant: whole numbers have no point. -/
def imaginaryText (x : Float) : String :=
  let s := Decimal.floatText x
  finiteText (if Text.ends s ".0" then .ofList (s.toList.take (s.length - 2)) else s) ++ "j"

def bytesText (cs : Chars) : Chars :=
  let q := Text.quoteFor cs
  let one (c : Char) : Chars :=
    if c = q || c = '\\' then ['\\', c]
    else if c = '\t' then ['\\', 't']
    else if c = '\n' then ['\\', 'n']
    else if c = '\r' then ['\\', 'r']
    else if c.toNat < 32 || 127 ≤ c.toNat then '\\' :: 'x' :: Text.hexText 2 c.toNat
    else [c]
  'b' :: q :: cs.flatMap one ++ [q]

/-- The quotes a text can stand in, the preferred ones first. -/
def allQuotes : List Chars := [['\''], ['"'], ['"', '"', '"'], ['\'', '\'', '\'']]

/-- A text between quotes with few escapes: what stands between them, and the quotes that fit. -/
def literalForm (quotes : List Chars) (escapeBlanks : Bool) (cs : Chars) : Chars × List Chars :=
  let escaped := cs.flatMap fun c =>
    if !escapeBlanks && (c = '\n' || c = '\t') then [c]
    else if c = '\\' || !Text.isPrintable c then Text.quotedChar '\\' c
    else [c]
  let fitting := if escaped.contains '\n' then quotes.filter (·.length == 3) else quotes
  let fitting := fitting.filter fun q => !Text.occurs q escaped
  if fitting.isEmpty then
    let shown := Text.quote cs
    let mark := shown.take 1
    let q := (quotes.find? fun q => q.take 1 == mark).getD mark
    ((shown.drop 1).dropLast, [q])
  else
    match escaped.getLast? with
    | none => (escaped, fitting)
    | some last =>
      let clash (q : Chars) : Bool := q.head? == some last
      let sorted := fitting.filter (fun q => !clash q) ++ fitting.filter clash
      match sorted.head? with
      | some q => if clash q then (escaped.dropLast ++ ['\\', last], sorted) else (escaped, sorted)
      | none => (escaped, sorted)

def plainLiteral (cs : Chars) : Chars :=
  let (body, quotes) := literalForm allQuotes false cs
  let q := quotes.headD ['\'']
  q ++ body ++ q

/-- The digits of a number that is short enough to be written. -/
def intDigits? (n : Nat) : Option Chars :=
  if Nat.pow 10 4300 ≤ n then none else some (Decimal.natDigits n)

/-- A constant; `plain` says that escapes are to be avoided. -/
def Literal.text? (plain : Bool) : Literal → Option Chars
  | .none => some "None".toList
  | .bool b => some (if b then "True" else "False").toList
  | .int n => intDigits? n
  | .real x => some (finiteText (Decimal.floatText x)).toList
  | .imaginary x => some (imaginaryText x).toList
  | .text s marked =>
    let body := if plain then plainLiteral s else Text.quote s
    some (if marked then 'u' :: body else body)
  | .bytes s => some (bytesText s)
  | .ellipsis => some "...".toList

/-! ## Expressions -/

def inBrackets (needed : Bool) (cs : Chars) : Chars :=
  if needed then '(' :: cs ++ [')'] else cs

def separated (sep : String) (items : List Chars) : Chars := sep.toList.intercalate items

/-- Items with commas; a single one keeps a comma. -/
def tupleItems : List Chars → Chars
  | [x] => x ++ [',']
  | xs => separated ", " xs

def isInt (n : Node) : Bool :=
  match n.label with
  | .constant (.int _) | .constant (.bool _) => true
  | _ => false

/-- The text of formatted text from its parts, each with a mark whether it is literal. -/
def formattedForm (parts : List (Chars × Bool)) : Chars :=
  let step (state : Option (List Chars × List Chars)) (part : Chars × Bool) :
      Option (List Chars × List Chars) :=
    state.bind fun (done, quotes) =>
      let (body, fitting) := literalForm quotes part.2 part.1
      if fitting.any quotes.contains then some (body :: done, fitting) else none
  match parts.foldl step (some ([], allQuotes)) with
  | some (done, quotes) =>
    let q := quotes.headD ['\'']
    q ++ done.reverse.flatten ++ q
  | none =>
    let q := ['\'', '\'', '\'']
    q ++ parts.flatMap (fun p => ((Text.quote ('"' :: p.1)).drop 2).dropLast) ++ q

def doubledBraces (cs : Chars) : Chars :=
  cs.flatMap fun c => if c = '\x7b' || c = '\x7d' then [c, c] else [c]

/-- Parameters that must be named, with the defaults of those that have one. -/
def pairDefaults : List Chars → List Bool → List Chars → List Chars
  | a :: as, true :: bs, d :: ds => (a ++ '=' :: d) :: pairDefaults as bs ds
  | a :: as, _ :: bs, ds => a :: pairDefaults as bs ds
  | as, _, _ => as

/-- The entries of a dictionary; one that unpacks another has no key. -/
def entryTexts : List Bool → List Chars → List Chars → List Chars
  | true :: us, ks, v :: vs => ('*' :: '*' :: v) :: entryTexts us ks vs
  | false :: us, k :: ks, v :: vs => (k ++ ':' :: ' ' :: v) :: entryTexts us ks vs
  | _, _, _ => []

mutual

/-- The text of an expression where something of `level` is expected. -/
def exprText (plain : Bool) : Nat → Nat → Node → Option Chars
  | 0, _, _ => none
  | fuel + 1, level, n =>
    let sub (l : Nat) (m : Node) : Option Chars := exprText plain fuel l m
    let subs (r : Role) (l : Nat) : Option (List Chars) := (n.parts r).mapM (sub l)
    let at? (r : Role) (l : Nat) : Option Chars := (n.part? r).bind (sub l)
    match n.label with
    | .name id _ => some id.toList
    | .constant v => v.text? plain
    | .namedExpr => do
      let target ← at? .target atom
      return inBrackets (named < level) (target ++ " := ".toList ++ (← at? .value atom))
    | .await => do
      return inBrackets (await < level) ("await ".toList ++ (← at? .value atom))
    | .yield => do
      return inBrackets (yield < level) (separated " " ("yield".toList :: (← subs .value atom)))
    | .yieldFrom => do
      return inBrackets (yield < level) ("yield from ".toList ++ (← at? .value atom))
    | .list => do return '[' :: separated ", " (← subs .item test) ++ [']']
    | .set => do return '\x7b' :: separated ", " (← subs .item test) ++ ['\x7d']
    | .tuple => do
      let items ← subs .item test
      return inBrackets (items.isEmpty || tuple < level) (tupleItems items)
    | .listComp => do
      return '[' :: (← at? .item test) ++ (← subs .generator test).flatten ++ [']']
    | .generatorExp => do
      return '(' :: (← at? .item test) ++ (← subs .generator test).flatten ++ [')']
    | .setComp => do
      return '\x7b' :: (← at? .item test) ++ (← subs .generator test).flatten ++
        ['\x7d']
    | .dictComp => do
      return '\x7b' :: (← at? .key test) ++ ": ".toList ++ (← at? .value test) ++
        (← subs .generator test).flatten ++ ['\x7d']
    | .comprehension isAsync => do
      let target ← at? .target tuple
      let iter ← at? .iter (next test)
      let conditions ← subs .condition (next test)
      return (if isAsync then " async for " else " for ").toList ++ target ++ " in ".toList ++
        iter ++
        conditions.flatMap fun c => " if ".toList ++ c
    | .ifExp => do
      let body ← at? .body (next test)
      let test ← at? .test (next test)
      let other ← at? .orElse Level.test
      return inBrackets (Level.test < level) (body ++ " if ".toList ++ test ++ " else ".toList ++
        other)
    | .lambda => do
      let params ← at? .arguments test
      let body ← at? .body test
      let head := if params.isEmpty then "lambda".toList else "lambda ".toList ++ params
      return inBrackets (test < level) (head ++ ": ".toList ++ body)
    | .arguments defaulted => do
      let posOnly ← subs .posOnly test
      let plainArgs ← subs .arg test
      let defaults ← subs .default test
      let kwOnly ← subs .kwOnly test
      let kwDefaults ← subs .kwDefault test
      let varArg ← subs .varArg test
      let kwArg ← subs .kwArg test
      let names := posOnly ++ plainArgs
      let bare := names.length - defaults.length
      let withDefaults := names.take bare ++
        List.zipWith (fun a d => a ++ '=' :: d) (names.drop bare) defaults
      let first := withDefaults.take posOnly.length ++
        (if posOnly.isEmpty then [] else [['/']]) ++ withDefaults.drop posOnly.length
      let star := if varArg.isEmpty && kwOnly.isEmpty then [] else [('*' :: varArg.flatten)]
      let named := pairDefaults kwOnly defaulted kwDefaults
      return separated ", " (first ++ star ++ named ++ kwArg.map fun a => '*' :: '*' :: a)
    | .arg id => do
      let typeHint ← subs .typeHint test
      return id.toList ++ typeHint.flatMap fun a => ": ".toList ++ a
    | .keyword id => do
      let value ← at? .value test
      return match id with
        | some k => k.toList ++ '=' :: value
        | none => '*' :: '*' :: value
    | .dict unpacked => do
      let keys ← subs .key test
      let values := n.parts .value
      let shown ←
          (values.zip unpacked).mapM fun (v, u) => sub (if u then bitOr else test) v
      return '\x7b' :: separated ", " (entryTexts unpacked keys shown) ++ ['\x7d']
    | .unaryOp op => do
      let (word, l) := match op with
        | .invert => ("~", factor)
        | .not => ("not ", Level.not)
        | .plus => ("+", factor)
        | .minus => ("-", factor)
      return inBrackets (l < level) (word.toList ++ (← at? .operand l))
    | .binOp op => do
      let l := op.level
      let (left, right) := if op = .pow then (next l, l) else (l, next l)
      let a ← at? .left left
      return inBrackets (l < level) (a ++ ' ' :: op.text.toList ++ ' ' :: (← at? .right right))
    | .compare ops => do
      let first ← at? .left (next Level.compare)
      let rest ← subs .right (next Level.compare)
      return inBrackets (Level.compare < level)
        (first ++ (ops.zip rest).flatMap fun (o, x) => ' ' :: o.text.toList ++ ' ' :: x)
    | .boolOp op => do
      let l := match op with
        | .and => Level.and
        | .or => Level.or
      let word := match op with
        | .and => " and "
        | .or => " or "
      let items ← (n.parts .value).zipIdx.mapM fun (v, i) => sub (min (l + 1 + i) atom) v
      return inBrackets (l < level) (separated word items)
    | .attribute id => do
      let value ← at? .value atom
      let space := if (n.part? .value).any isInt then [' '] else []
      return value ++ space ++ '.' :: id.toList
    | .call => do
      let func ← at? .func atom
      let args ← subs .arg test
      return func ++ '(' :: separated ", " (args ++ (← subs .keyword test)) ++ [')']
    | .subscript => do
      let value ← at? .value atom
      let index ← n.part? .index
      let shown ← match index.label, index.parts .item with
        | .tuple, i :: is => do
          some (tupleItems (← (i :: is).mapM (sub test)))
        | _, _ => sub test index
      return value ++ '[' :: shown ++ [']']
    | .starred => do return '*' :: (← at? .value bitOr)
    | .slice => do
      let lower ← subs .lower test
      let upper ← subs .upper test
      let step ← subs .step test
      return lower.flatten ++ ':' :: upper.flatten ++ step.flatMap fun s => ':' :: s
    | .joinedText => do
      let parts ← (n.parts .value).mapM fun v => do
        let cs ← formattedText fuel v
        let literal := match v.label with
          | .constant _ => true
          | _ => false
        some (cs, literal)
      return 'f' :: if plain then plainLiteral (parts.flatMap (·.1)) else formattedForm parts
    | .formattedValue _ => formattedText fuel n
    | _ => none

/-- The text of a part of formatted text, as it stands between the quotes. -/
def formattedText : Nat → Node → Option Chars
  | 0, _ => none
  | fuel + 1, n =>
    match n.label with
    | .constant (.text s _) => some (doubledBraces s)
    | .joinedText => do return (← (n.parts .value).mapM (formattedText fuel)).flatten
    | .formattedValue conversion => do
      let value ← (n.part? .value).bind (exprText true fuel (next test))
      if value.contains '\\' then none
      let space := if value.head? = some '\x7b' then [' '] else []
      let mark := match conversion with
        | some c => ['!', c]
        | none => []
      let format ← (n.parts .format).mapM (formattedText fuel)
      return '\x7b' :: space ++ value ++ mark ++ (format.flatMap fun f => ':' :: f) ++ ['\x7d']
    | _ => none

end

def render? (n : Node) : Option String := (exprText false (n.size + 1) test n).map .ofList

end ReviewDesk.Source
