import ReviewDesk.Source.Expr

/-!
# Reading statements
-/

namespace ReviewDesk.Source

open Reader

/-! ## Reading the patterns of a `match` statement -/

namespace Rules

variable (r : Rules)

def isImaginary : Literal → Bool
  | .imaginary _ => true
  | _ => false

/-- A number with an optional minus, and how it was written. -/
def signedNumber : Reader (Tree × Bool) := do
  let line ← nextLine
  let minus ← takeOp "-"
  let at_ ← nextLine
  match (← take).kind with
  | .number v =>
    let n ← node (.constant v) at_ []
    if minus then
      return (← node (.unaryOp .minus) line [n.as .operand], isImaginary v)
    return (n, isImaginary v)
  | _ => fail

/-- A number, or the sum or difference of a real and an imaginary one. -/
def numberPattern : Reader Tree := do
  let line ← nextLine
  let (left, imaginary) ← signedNumber
  let op ← (do
    if ← takeOp "+" then return some BinaryOp.add
    if ← takeOp "-" then return some BinaryOp.sub
    return none : Reader (Option BinaryOp))
  match op with
  | none => return left
  | some op =>
    if imaginary then fail
    else
      let at_ ← nextLine
      match (← take).kind with
      | .number v =>
        if isImaginary v then
          node (.binOp op) line [left.as .left, (← node (.constant v) at_ []).as .right]
        else fail
      | _ => fail

def dottedValue : Reader Tree := do
  let line ← nextLine
  let id ← name
  let first ← node (.name id .load) line []
  loop (fun x => do
    if ← takeOp "." then
      let id ← name
      return some (← node (.attribute id) line [x.as .value])
    return none) first

def captureName : Reader String := do
  let id ← name
  if id = "_" || (← seesOp ".") || (← seesOp "(") || (← seesOp "=") then fail
  else return id

/-- A pattern, or a star with the name that takes the rest. -/
def maybeStar : Reader Tree := do
  let line ← nextLine
  if ← takeOp "*" then
    if ← takeWord "_" then node (.matchStar none) line []
    else
      node (.matchStar (some (← captureName))) line []
  else r.pattern

/-- Patterns up to the token `close`, and whether a comma follows the last. -/
def patternsUntil (close : String) : Reader (List Tree × Bool) := do
  if ← seesOp close then return ([], false)
  commaList r.maybeStar (do return !(← seesOp close))

def keyPattern : Reader (Tree × Tree) := do
  let line ← nextLine
  let key ← match ← peek with
    | .number _ | .op "-" => numberPattern
    | .text _ => r.texts
    | .name "None" => do let _ ← take; node (.constant .none) line []
    | .name "True" => do let _ ← take; node (.constant (.bool true)) line []
    | .name "False" => do let _ ← take; node (.constant (.bool false)) line []
    | _ => do
      let x ← dottedValue
      match x.label with
      | .attribute _ => pure x
      | _ => fail
  needOp ":"
  return (key, ← r.pattern)

def mappingPattern : Reader Tree := do
  let line ← nextLine
  needOp "\x7b"
  let (pairs, rest, _) ← loop (fun (pairs, rest, done) => do
    if done then return none
    if ← takeOp "\x7d" then return some (pairs, rest, true)
    if rest.isSome then fail
    else if ← takeOp "**" then
      let id ← captureName
      let _ ← takeOp ","
      needOp "\x7d"
      return some (pairs, some id, true)
    else
      let p ← r.keyPattern
      if ← takeOp "," then return some (p :: pairs, rest, false)
      needOp "\x7d"
      return some (p :: pairs, rest, true)) (([] : List (Tree × Tree)), (none : Option String),
        false)
  let pairs := pairs.reverse
  node (.matchMapping rest) line (asParts .key (pairs.map (·.1)) ++
    asParts .pattern (pairs.map (·.2)))

/-- The patterns in brackets after the name of a class. -/
def classPattern (line : Nat) (cls : Tree) : Reader Tree := do
  needOp "("
  let (plain, named, _) ← loop (fun (plain, named, done) => do
    if done then return none
    if ← takeOp ")" then return some (plain, named, true)
    let second ← peekSecond
    let (plain, named) ← (match ← peek, second with
      | .name _, .op "=" => do
        let id ← name
        needOp "="
        return (plain, (id, ← r.pattern) :: named)
      | _, _ =>
        if named.isEmpty then do
          return ((← r.pattern) :: plain, named)
        else fail : Reader (List Tree × List (String × Tree)))
    if ← takeOp "," then return some (plain, named, false)
    needOp ")"
    return some (plain, named, true)) (([] : List Tree), ([] : List (String × Tree)), false)
  let named := named.reverse
  node (.matchClass (named.map (·.1))) line
    (cls.as .func :: asParts .pattern plain.reverse ++ asParts .kwPattern (named.map (·.2)))

def closedPattern : Reader Tree := do
  let line ← nextLine
  match ← peek with
  | .number _ | .op "-" =>
    node .matchValue line [(← numberPattern).as .value]
  | .text _ =>
    node .matchValue line [(← r.texts).as .value]
  | .name "None" | .name "True" | .name "False" =>
    let _ ← take
    node .matchSingleton line []
  | .name "_" =>
    let _ ← take
    node (.matchAs none) line []
  | .name _ =>
    let x ← dottedValue
    if ← seesOp "(" then r.classPattern line x
    else match x.label with
      | .name id _ => if ← seesOp "=" then fail else node (.matchAs (some id)) line []
      | _ => if ← seesOp "=" then fail else node .matchValue line [x.as .value]
  | .op "(" =>
    let _ ← take
    let (ps, trailing) ← r.patternsUntil ")"
    needOp ")"
    match ps, trailing with
    | [p], false =>
      match p.label with
      | .matchStar _ => fail
      | _ => return p
    | _, _ => node .matchSequence line (asParts .pattern ps)
  | .op "[" =>
    let _ ← take
    let (ps, _) ← r.patternsUntil "]"
    needOp "]"
    node .matchSequence line (asParts .pattern ps)
  | .op "\x7b" => r.mappingPattern
  | _ => fail

/-- Alternatives, with an optional name for the value matched. -/
def patternRule : Reader Tree := do
  let line ← nextLine
  let first ← r.closedPattern
  let rest ← loop (fun ps => do
    if ← takeOp "|" then
      return some ((← r.closedPattern) :: ps)
    return none) []
  let p ← if rest.isEmpty then pure first
    else node .matchOr line (asParts .pattern (first :: rest.reverse))
  if ← takeWord "as" then
    node (.matchAs (some (← captureName))) line [p.as .pattern]
  else return p

/-- The patterns of a case: several with commas are a sequence. -/
def casePatterns : Reader Tree := do
  let line ← nextLine
  let (ps, trailing) ← commaList r.maybeStar (do return !((← seesOp ":") || (← seesWord "if")))
  match ps, trailing with
  | [p], false =>
    match p.label with
    | .matchStar _ => fail
    | _ => return p
  | _, _ => node .matchSequence line (asParts .pattern ps)

def matchCaseRule : Reader Tree := do
  let line ← nextLine
  needWord "case"
  let p ← r.casePatterns
  let guard ← if ← takeWord "if" then some <$> r.namedExpression else pure none
  needOp ":"
  let body ← r.block
  node .matchCase line (p.as .pattern :: (guard.map (·.as .guard)).toList ++ asParts .body body)

def matchRule : Reader Tree := do
  let line ← nextLine
  needWord "match"
  let at_ ← nextLine
  let first ← r.starNamedExpression
  let subject ← if ← takeOp "," then do
      if ← seesOp ":" then node .tuple at_ [first.as .item]
      else
        let (rest, _) ← commaList r.starNamedExpression (do return !(← seesOp ":"))
        node .tuple at_ (asParts .item (first :: rest))
    else if isStarred first then fail
    else pure first
  needOp ":"
  needNewline
  needIndent
  let first ← r.matchCaseRule
  let rest ← loop (fun cs => do
    if ← takeDedent then return none
    return some ((← r.matchCaseRule) :: cs)) []
  node .matchBlock line (subject.as .subject :: asParts .case (first :: rest.reverse))

end Rules

/-! ## Reading statements -/

namespace Rules

variable (r : Rules)

def augmentedOps : List (String × BinaryOp) :=
  [("+=", .add), ("-=", .sub), ("*=", .mult), ("@=", .matMult), ("/=", .div), ("%=", .mod),
    ("&=", .bitAnd), ("|=", .bitOr), ("^=", .bitXor), ("<<=", .shiftLeft), (">>=", .shiftRight),
    ("**=", .pow), ("//=", .floorDiv)]

/-- An expression, or an assignment of one of the three kinds. -/
def expressionStatement : Reader Tree := do
  let line ← nextLine
  let first ← r.yieldOrExpressions
  match ← peek with
  | .op ":" =>
    let _ ← take
    let target ← asSingleTarget first
    let typeHint ← r.expression
    let value ← if ← takeOp "=" then some <$> r.yieldOrExpressions else pure none
    node .annAssign line
      (target.as .target :: typeHint.as .typeHint :: (value.map (·.as .value)).toList)
  | .op "=" =>
    let (targets, value) ← loop (fun (targets, value) => do
      if ← takeOp "=" then
        let t ← asTarget value
        return some (t :: targets, ← r.yieldOrExpressions)
      return none) ([], first)
    node .assign line (asParts .target targets.reverse ++ [value.as .value])
  | .op o =>
    match augmentedOps.lookup o with
    | some op =>
      let _ ← take
      let target ← asSingleTarget first
      node (.augAssign op) line [target.as .target, (← r.yieldOrExpressions).as .value]
    | none => node .exprStmt line [first.as .value]
  | _ => node .exprStmt line [first.as .value]

def dottedName : Reader String := do
  let first ← name
  loop (fun s => do
    if ← takeOp "." then
      return some (s ++ "." ++ (← name))
    return none) first

def aliasOf (item : Reader String) : Reader Tree := do
  let line ← nextLine
  let id ← item
  let asName ← if ← takeWord "as" then some <$> name else pure none
  node (.alias id asName) line []

def importStatement (line : Nat) : Reader Tree := do
  let (names, trailing) ← commaList (aliasOf dottedName) (pure true)
  if trailing then fail else node .importNames line (asParts .item names)

def importFromStatement (line : Nat) : Reader Tree := do
  let level ← loop (fun n => do
    if ← takeOp "." then return some (n + 1)
    if ← takeOp "..." then return some (n + 3)
    return none) 0
  let source ← if (← seesWord "import") && level != 0 then pure none else some <$> dottedName
  needWord "import"
  let at_ ← nextLine
  let names ← if ← takeOp "*" then do
      pure [← node (.alias "*" none) at_ []]
    else if ← takeOp "(" then do
      let (names, _) ← commaList (aliasOf name) (do return !(← seesOp ")"))
      needOp ")"
      pure names
    else do
      let (names, trailing) ← commaList (aliasOf name) (pure true)
      if trailing then fail else pure names
  node (.importFrom source level) line (asParts .item names)

def nameList : Reader (List String) := do
  let (names, _) ← commaList name (pure true)
  return names

def atEnd : Reader Bool := do
  match ← peek with
  | .newline => return true
  | .op ";" => return true
  | _ => return false

def deleteStatement (line : Nat) : Reader Tree := do
  let (items, _) ← commaList r.bitOr (do return !(← atEnd))
  let items ← items.mapM fun n => do ofOption (toTarget? .delete false ((← size) + 2) n)
  node .delete line (asParts .target items)

def simpleStatement : Reader Tree := do
  let line ← nextLine
  match ← peek with
  | .name "return" =>
    let _ ← take
    if ← atEnd then node .ret line []
    else
      node .ret line [(← r.starExpressions).as .value]
  | .name "import" => let _ ← take; importStatement line
  | .name "from" => let _ ← take; importFromStatement line
  | .name "raise" =>
    let _ ← take
    if ← atEnd then node .raise line []
    else
      let x ← r.expression
      let cause ← if ← takeWord "from" then some <$> r.expression else pure none
      node .raise line (x.as .value :: (cause.map (·.as .cause)).toList)
  | .name "pass" => let _ ← take; node .pass line []
  | .name "break" => let _ ← take; node .break line []
  | .name "continue" => let _ ← take; node .continue line []
  | .name "del" => let _ ← take; r.deleteStatement line
  | .name "assert" =>
    let _ ← take
    let test ← r.expression
    let message ← if ← takeOp "," then some <$> r.expression else pure none
    node .assert line (test.as .test :: (message.map (·.as .message)).toList)
  | .name "global" =>
    let _ ← take
    node (.global (← nameList)) line []
  | .name "nonlocal" =>
    let _ ← take
    node (.nonlocal (← nameList)) line []
  | _ => r.expressionStatement

def simpleStatements : Reader (List Tree) := do
  let first ← r.simpleStatement
  let (stmts, _) ← loop (fun (stmts, done) => do
    if done then return none
    if ← takeOp ";" then
      match ← peek with
      | .newline => return some (stmts, true)
      | _ =>
        return some ((← r.simpleStatement) :: stmts, false)
    return some (stmts, true)) ([first], false)
  needNewline
  return stmts.reverse

/-! ## Statements with blocks -/

def suite : Reader (List Tree) := do
  needOp ":"
  r.block

def elseSuite : Reader (List Tree) := do
  if ← takeWord "else" then r.suite else return []

/-- An `if` or `elif` whose word has been taken. The branches that follow are kept until the last
one is read, and are then nested from the back. -/
def ifRule : Reader Tree := do
  let line ← nextLine
  needWord "if"
  let first ← branch line
  let branches ← loop (fun bs => do
    let line ← nextLine
    if ← takeWord "elif" then
      return some ((← branch line) :: bs)
    return none) [first]
  let other ← r.elseSuite
  let last ← lastLine
  let nested := branches.foldl (fun orElse (line, test, body) =>
    [Tree.build .root .ifThen line last (test.as .test :: asParts .body body ++
      asParts .orElse orElse)]) other
  ofOption nested.head?
where
  branch (line : Nat) : Reader (Nat × Tree × List Tree) := do
    let test ← r.namedExpression
    return (line, test, ← r.suite)

def whileRule : Reader Tree := do
  let line ← nextLine
  needWord "while"
  let test ← r.namedExpression
  let body ← r.suite
  node .whileLoop line (test.as .test :: asParts .body body ++ asParts .orElse (← r.elseSuite))

def forRule (label : Label) (line : Nat)
    (fits : ∀ parts, label.Fits parts := by exact fun _ => trivial) : Reader Tree := do
  needWord "for"
  let target ← r.starTargets
  needWord "in"
  let iter ← r.starExpressions
  let body ← r.suite
  let other ← r.elseSuite
  node label line (target.as .target :: iter.as .iter :: asParts .body body ++
    asParts .orElse other) (fits _)

def withItem : Reader Tree := do
  let line ← nextLine
  let context ← r.expression
  let target ← if ← takeWord "as" then do
      some <$> asTarget (← starOr r.bitOr r.bitOr)
    else pure none
  node .withItem line (context.as .context :: (target.map (·.as .target)).toList)

/-- Items in round brackets, up to the colon. -/
def bracketedItems : Reader (List Tree) := do
  needOp "("
  let (items, _) ← commaList r.withItem (do return !(← seesOp ")"))
  needOp ")"
  needOp ":"
  return items

def plainItems : Reader (List Tree) := do
  let (items, trailing) ← commaList r.withItem (pure true)
  needOp ":"
  if trailing then fail else return items

def withRule (label : Label) (line : Nat)
    (fits : ∀ parts, label.Fits parts := by exact fun _ => trivial) : Reader Tree := do
  needWord "with"
  let items ← orElse r.bracketedItems r.plainItems
  node label line (asParts .item items ++ asParts .body (← r.block)) (fits _)

def handler : Reader (Tree × Bool) := do
  let line ← nextLine
  needWord "except"
  let star ← takeOp "*"
  if !star && (← seesOp ":") then
    let body ← r.suite
    return (← node (.exceptHandler none) line (asParts .body body), star)
  else
    let type ← r.expression
    let id ← if ← takeWord "as" then some <$> name else pure none
    let body ← r.suite
    return (← node (.exceptHandler id) line (type.as .type :: asParts .body body), star)

def tryRule : Reader Tree := do
  let line ← nextLine
  needWord "try"
  let body ← r.suite
  let handlers ← loop (fun hs => do
    if ← seesWord "except" then
      return some ((← r.handler) :: hs)
    return none) []
  let handlers := handlers.reverse
  let other ← if handlers.isEmpty then pure [] else r.elseSuite
  let final ← if ← takeWord "finally" then some <$> r.suite else pure none
  let stars := handlers.map (·.2)
  if (handlers.isEmpty && final.isNone) || (stars.contains true && stars.contains false) then fail
  else
    node (if stars.contains true then .tryStar else .tryBlock) line
      (asParts .body body ++ asParts .handler (handlers.map (·.1)) ++ asParts .orElse other ++
        asParts .final (final.getD []))
      (by split <;> exact trivial)

def functionRule (label : String → Label) (line : Nat) (decorators : List Tree)
    (fits : ∀ id parts, (label id).Fits parts := by exact fun _ _ => trivial) : Reader Tree := do
  needWord "def"
  let id ← name
  needOp "("
  let ps ← r.parameters true ")"
  needOp ")"
  let returns ← if ← takeOp "->" then some <$> r.expression else pure none
  let body ← r.suite
  node (label id) line
    (ps.as .arguments :: asParts .body body ++ asParts .decorator decorators ++
      (returns.map (·.as .returns)).toList) (fits ..)

def classRule (decorators : List Tree) : Reader Tree := do
  let line ← nextLine
  needWord "class"
  let id ← name
  let as ← if ← takeOp "(" then r.arguments {} else pure {}
  let body ← r.suite
  node (.classDef id) line
    (asParts .base as.positional ++ asParts .keyword as.keywords ++ asParts .body body ++
      asParts .decorator decorators)

def definition (decorators : List Tree) : Reader Tree := do
  let line ← nextLine
  match ← peek with
  | .name "def" => r.functionRule .function line decorators
  | .name "class" => r.classRule decorators
  | .name "async" =>
    let _ ← take
    r.functionRule .asyncFunction line decorators
  | _ => fail

def decorated : Reader Tree := do
  let decorators ← loop (fun ds => do
    if ← takeOp "@" then
      let x ← r.namedExpression
      needNewline
      return some (x :: ds)
    return none) []
  r.definition decorators.reverse

def asyncRule : Reader Tree := do
  let line ← nextLine
  match ← peekSecond with
  | .name "def" => r.definition []
  | .name "for" =>
    let _ ← take
    r.forRule .asyncFor line
  | .name "with" =>
    let _ ← take
    r.withRule .asyncWith line
  | _ => fail

/-- A statement with its blocks, or a line of statements. -/
def statement : Reader (List Tree) := do
  let line ← nextLine
  match ← peek with
  | .name "def" | .name "class" => return [← r.definition []]
  | .name "if" => return [← r.ifRule]
  | .name "while" => return [← r.whileRule]
  | .name "for" => return [← r.forRule .forLoop line]
  | .name "with" => return [← r.withRule .withBlock line]
  | .name "try" => return [← r.tryRule]
  | .name "async" => return [← r.asyncRule]
  | .name "match" => orElse (do return [← r.matchRule]) r.simpleStatements
  | .op "@" => return [← r.decorated]
  | _ => r.simpleStatements

/-- The statements of a block: on the same line, or indented below it. -/
def blockRule : Reader (List Tree) := do
  match ← peek with
  | .newline =>
    needNewline
    needIndent
    let first ← r.statement
    let rest ← loop (fun stmts => do
      if ← takeDedent then return none
      return some ((← r.statement) :: stmts)) []
    return first ++ rest.reverse.flatten
  | _ => r.simpleStatements

end Rules

/-!
## Reading whole programs

Here the circle of rules is closed. A rule calls another one of the circle only after it has taken a
token, or on a text that is shorter, so a program of `n` characters needs no more than `n` rounds.
-/

def readFrom? {α : Type} (reader : Reader α) (line : Nat) (text : Chars) : Option α := do
  let tokens ← tokensFrom? line text
  (reader { rest := tokens, lastLine := line, size := tokens.length }).map (·.1)

/-- The expression in braces inside a piece of text, read as if in round brackets. -/
def readEmbedded? (expressions : Reader Tree) (line : Nat) (text : Chars) : Option Tree :=
  if text.all fun c => c = ' ' || c = '\t' || c = '\n' || c = '\x0c' then none
  else readFrom? (do
    let x ← expressions
    needNewline
    match ← peek with
    | .finish => return x
    | _ => fail) line ('(' :: text ++ [')'])

/-- The circle of rules, `n` rounds deep. -/
def rules : Nat → Rules
  | 0 => .stuck
  | n + 1 =>
    let r := rules n
    { expression := r.expressionRule
      inversion := r.inversionRule
      factor := r.factorRule
      starExpressions := r.starExpressionsRule
      pattern := r.patternRule
      block := r.blockRule
      embedded := readEmbedded? r.starExpressionsRule }

def program (r : Rules) : Reader Tree := do
  let stmts ← loop (fun stmts => do
    match ← peek with
    | .finish => return none
    | _ =>
      return some ((← r.statement) :: stmts)) []
  node .module 0 (asParts .body stmts.reverse.flatten)

def parseTree? (text : Chars) : Option Tree :=
  readFrom? (program (rules (text.length + 10))) 1 text

def parse? (text : Chars) : Option Node := (parseTree? text).map (·.node)

theorem parse?_wellFormed {text : Chars} {root : Node} (h : parse? text = some root) :
    root.WellFormed := by
  obtain ⟨tree, _, rfl⟩ := Option.map_eq_some_iff.mp h
  exact tree.wellFormed

/-! ## What is said about a text that is no program -/

/-- A message, and the line and the column that it is about, unless there is none. -/
structure Complaint where
  message : String := "<message>"
  line : Option Nat := some 0
  column : Option Nat := some 0

/-- A text with a zero character is not read at all, so there is no line to complain about. -/
def complaint (said : Chars → Complaint) (text : Chars) : Complaint :=
  if '\x00' ∈ text then ⟨"source code string cannot contain null bytes", none, none⟩
  else said text

/-! ## The text that documents a function or class

A text that is the first statement of a body documents it. It is shown without the margin of its
lines and without empty lines at its ends.
-/

/-- Tabs become blanks up to the next column that is a multiple of eight. -/
def expandTabs : Nat → Chars → Chars
  | _, [] => []
  | column, c :: r =>
    if c = '\t' then
      let n := 8 - column % 8
      List.replicate n ' ' ++ expandTabs (column + n) r
    else c :: expandTabs (if c = '\n' || c = '\r' then 0 else column + 1) r

/-- The least indent of the lines that are not blank. -/
def margin? (ls : List Chars) : Option Nat :=
  ls.foldl (fun m l =>
    let content := Text.trimStart l
    if content.isEmpty then m
    else
      let indent := l.length - content.length
      some (match m with
        | some k => min k indent
        | none => indent)) none

def cleanDoc (cs : Chars) : Chars :=
  match Text.rows (expandTabs 0 cs) with
  | [] => []
  | first :: rest =>
    let rest := match margin? rest with
      | some m => rest.map (·.drop m)
      | none => rest
    let kept :=
      ((Text.trimStart first :: rest).reverse.dropWhile (·.isEmpty)).reverse.dropWhile (·.isEmpty)
    ['\n'].intercalate kept

def rawDocstring? (n : Node) : Option Chars :=
  match n.part? .body with
  | some (.mk _ .exprStmt _ _ [value]) =>
    match value.label with
    | .constant (.text s _) => some s
    | _ => none
  | _ => none

def docstring? (n : Node) : Option String := (rawDocstring? n).map fun s => .ofList (cleanDoc s)

end ReviewDesk.Source
