import ReviewDesk.Source.Token

/-!
# Reading expressions

The levels of binding, from conditionals down to atoms. A node made of several parts begins on the
line of its first token, an opening bracket included.
-/

namespace ReviewDesk.Source

open Reader

namespace Rules

variable (r : Rules)

/-! ## Targets -/

/-- The expression as something that is assigned to (or deleted, by `use`). -/
def toTarget? (use : Use) (stars : Bool) : Nat → Tree → Option Tree
  | 0, _ => none
  | fuel + 1, t =>
    let made (label : Label) (parts : List Tree)
        (fits : label.Fits (parts.map (·.node)) := by exact trivial) : Tree :=
      .build t.node.role label t.node.line t.node.endLine parts fits
    match t.label with
    | .name id _ => some (made (.name id use) t.parts)
    | .attribute _ | .subscript => some t
    | .tuple => return made .tuple (← t.parts.mapM (toTarget? use stars fuel))
    | .list => return made .list (← t.parts.mapM (toTarget? use stars fuel))
    | .starred =>
      if stars then do
        let parts ← t.parts.mapM fun c => match c.label with
          | .starred => none
          | _ => toTarget? use stars fuel c
        return made .starred parts
      else none
    | _ => none

def asTarget (n : Tree) : Reader Tree := do ofOption (toTarget? .store true ((← size) + 2) n)

/-- A name, an attribute or an item: what an operator can be combined with. -/
def asSingleTarget (n : Tree) : Reader Tree :=
  match n.label with
  | .name .. | .attribute _ | .subscript => asTarget n
  | _ => fail

/-! ## Binary operators -/

/-- A chain of operators of one level, grouped to the left. -/
def leftChain (ops : List (String × BinaryOp)) (sub : Reader Tree) : Reader Tree := do
  let line ← nextLine
  let first ← sub
  loop (fun left => do
    match ← peek with
    | .op o =>
      match ops.lookup o with
      | some op =>
        let _ ← take
        let right ← sub
        return some (← node (.binOp op) line [left.as .left, right.as .right])
      | none => return none
    | _ => return none) first

def term : Reader Tree :=
  leftChain [("*", .mult), ("/", .div), ("//", .floorDiv), ("%", .mod), ("@", .matMult)] r.factor

def sum : Reader Tree := leftChain [("+", .add), ("-", .sub)] r.term

def shift : Reader Tree := leftChain [("<<", .shiftLeft), (">>", .shiftRight)] r.sum

def bitAnd : Reader Tree := leftChain [("&", .bitAnd)] r.shift

def bitXor : Reader Tree := leftChain [("^", .bitXor)] r.bitAnd

def bitOr : Reader Tree := leftChain [("|", .bitOr)] r.bitXor

/-! ## Comparisons and conditions -/

def compareOp? : Reader (Option CompareOp) := do
  match ← peek with
  | .op "==" => let _ ← take; return some .eq
  | .op "!=" => let _ ← take; return some .notEq
  | .op "<" => let _ ← take; return some .less
  | .op "<=" => let _ ← take; return some .lessEq
  | .op ">" => let _ ← take; return some .greater
  | .op ">=" => let _ ← take; return some .greaterEq
  | .name "in" => let _ ← take; return some .within
  | .name "is" =>
    let _ ← take
    if ← takeWord "not" then return some .notSame else return some .same
  | .name "not" =>
    match ← peekSecond with
    | .name "in" => let _ ← take; let _ ← take; return some .notWithin
    | _ => return none
  | _ => return none

def comparison : Reader Tree := do
  let line ← nextLine
  let first ← r.bitOr
  let (ops, rights) ← loop (fun (ops, rights) => do
    match ← compareOp? with
    | some op =>
      return some (op :: ops, (← r.bitOr) :: rights)
    | none => return none) ([], [])
  if ops.isEmpty then return first
  node (.compare ops.reverse) line (first.as .left :: asParts .right rights.reverse)

def inversionRule : Reader Tree := do
  let line ← nextLine
  if ← takeWord "not" then
    node (.unaryOp .not) line [(← r.inversion).as .operand]
  else r.comparison

/-- Operands joined by a word, as one node if there are several. -/
def wordChain (w : String) (op : BoolOp) (sub : Reader Tree) : Reader Tree := do
  let line ← nextLine
  let first ← sub
  let rest ← loop (fun xs => do
    if ← takeWord w then
      return some ((← sub) :: xs)
    return none) []
  match rest.reverse with
  | [] => return first
  | second :: more =>
    node (.boolOp op) line (asParts .value (first :: second :: more)) (fits_boolOp ..)

def conjunction : Reader Tree := wordChain "and" .and r.inversionRule

def disjunction : Reader Tree := wordChain "or" .or r.conjunction

/-! ## Functions without name -/

structure Param where
  name : String
  line : Nat
  endLine : Nat
  typeHint : Option Tree
  default : Option Tree

def Param.node (p : Param) (role : Role) : Tree :=
  .build role (.arg p.name) p.line p.endLine ((p.typeHint.map (·.as .typeHint)).toList)

structure Params where
  posOnly : List Param := []
  plain : List Param := []
  star : Option Param := none
  /-- A star was read, with or without a name. -/
  starred : Bool := false
  kwOnly : List Param := []
  double : Option Param := none

/-- A parameter; `typed` says whether it can have a type, `starType` whether the type can be
unpacked. -/
def param (typed starType defaulted : Bool) : Reader Param := do
  let line ← nextLine
  let id ← name
  let typeHint ← if typed then do
      if ← takeOp ":" then
        let at_ ← nextLine
        if starType then
          if ← takeOp "*" then
            some <$> node .starred at_ [(← r.bitOr).as .value]
          else some <$> r.expression
        else some <$> r.expression
      else pure none
    else pure none
  let endLine ← lastLine
  let default ← if defaulted then do
      if ← takeOp "=" then some <$> r.expression else pure none
    else pure none
  return ⟨id, line, endLine, typeHint, default⟩

/-- One more parameter, or one of the marks between them. -/
def paramStep (typed : Bool) (ps : Params) : Reader Params := do
  if ps.double.isSome then fail
  else if ← takeOp "**" then
    let p ← r.param typed false false
    return { ps with double := some p }
  else if ← takeOp "*" then
    if ps.starred then fail
    else if ← seesOp "," then return { ps with starred := true }
    else
      let p ← r.param typed true false
      return { ps with starred := true, star := some p }
  else if ← takeOp "/" then
    if ps.starred || !ps.posOnly.isEmpty || ps.plain.isEmpty then fail
    else return { ps with posOnly := ps.plain, plain := [] }
  else
    let p ← r.param typed false true
    if ps.starred then return { ps with kwOnly := ps.kwOnly ++ [p] }
    else if p.default.isNone && (ps.posOnly ++ ps.plain).any (·.default.isSome) then fail
    else return { ps with plain := ps.plain ++ [p] }

/-- The parameters up to the token `close`, which is not taken. -/
def parameters (typed : Bool) (close : String) : Reader Tree := do
  let line ← nextLine
  let ps ← if ← seesOp close then pure {}
    else do
      let first ← r.paramStep typed {}
      let (ps, _) ← loop (fun (ps, done) => do
        if done then return none
        if ← takeOp "," then
          if ← seesOp close then return some (ps, true)
          return some (← r.paramStep typed ps, false)
        return some (ps, true)) (first, false)
      pure ps
  if ps.starred && ps.star.isNone && ps.kwOnly.isEmpty then fail
  else
    let defaults := (ps.posOnly ++ ps.plain).filterMap (·.default)
    node (.arguments (ps.kwOnly.map (·.default.isSome))) line
      (ps.posOnly.map (·.node .posOnly) ++ ps.plain.map (·.node .arg) ++
        (ps.star.map (·.node .varArg)).toList ++ ps.kwOnly.map (·.node .kwOnly) ++
        asParts .kwDefault (ps.kwOnly.filterMap (·.default)) ++
          (ps.double.map (·.node .kwArg)).toList ++
        asParts .default defaults)

def lambdaRule : Reader Tree := do
  let line ← nextLine
  needWord "lambda"
  let ps ← r.parameters false ":"
  needOp ":"
  node .lambda line [ps.as .arguments, (← r.expression).as .body]

def expressionRule : Reader Tree := do
  let line ← nextLine
  if ← seesWord "lambda" then r.lambdaRule
  else
    let body ← r.disjunction
    if ← takeWord "if" then
      let test ← r.disjunction
      needWord "else"
      node .ifExp line [test.as .test, body.as .body, (← r.expression).as .orElse]
    else return body

/-! ## Lists of expressions -/

/-- What follows is a name that is given its value. -/
def seesNamed : Reader Bool := do
  match ← peekSecond with
  | .op ":=" => return true
  | _ => return false

/-- An expression, or a name that is given its value. -/
def namedExpression : Reader Tree := do
  let line ← nextLine
  match ← peek, ← peekSecond with
  | .name _, .op ":=" =>
    let id ← name
    let target ← node (.name id .store) line []
    let _ ← take
    node .namedExpr line [target.as .target, (← r.expression).as .value]
  | _, _ => r.expression

/-- `*` and an operand read by `sub`, or else an item. -/
def starOr (sub item : Reader Tree) : Reader Tree := do
  let line ← nextLine
  if ← takeOp "*" then
    node .starred line [(← sub).as .value]
  else item

def starNamedExpression : Reader Tree := starOr r.bitOr r.namedExpression

def starExpression : Reader Tree := starOr r.bitOr r.expression

def startsExpression : Reader Bool := do
  match ← peek with
  | .name id =>
    return !isKeyword id || ["False", "None", "True", "await", "lambda", "not"].contains id
  | .number _ | .text _ => return true
  | .op o => return ["(", "[", "\x7b", "-", "+", "~", "...", "*"].contains o
  | _ => return false

/-- Expressions separated by commas, as a tuple unless there is one without a comma. -/
def starExpressionsRule : Reader Tree := do
  let line ← nextLine
  let (items, trailing) ← commaList r.starExpression startsExpression
  match items, trailing with
  | [x], false => return x
  | _, _ => node .tuple line (asParts .item items)

def yieldExpression : Reader Tree := do
  let line ← nextLine
  needWord "yield"
  if ← takeWord "from" then
    node .yieldFrom line [(← r.expression).as .value]
  else if ← startsExpression then
    node .yield line [(← r.starExpressions).as .value]
  else node .yield line []

def yieldOrExpressions : Reader Tree := do
  if ← seesWord "yield" then r.yieldExpression else r.starExpressions

/-! ## Comprehensions -/

def starTargets : Reader Tree := do
  let line ← nextLine
  let (items, trailing) ← commaList (starOr r.bitOr r.bitOr) startsExpression
  let items ← items.mapM asTarget
  match items, trailing with
  | [x], false => return x
  | _, _ => node .tuple line (asParts .item items)

def startsClause : Reader Bool := do
  if ← seesWord "for" then return true
  if ← seesWord "async" then
    match ← peekSecond with
    | .name "for" => return true
    | _ => return false
  return false

def clause : Reader Tree := do
  let line ← nextLine
  let isAsync ← takeWord "async"
  needWord "for"
  let target ← r.starTargets
  needWord "in"
  let iter ← r.disjunction
  let conditions ← loop (fun xs => do
    if ← takeWord "if" then
      return some ((← r.disjunction) :: xs)
    return none) []
  node (.comprehension isAsync) line
    (target.as .target :: iter.as .iter :: asParts .condition conditions.reverse)

def clauses : Reader (List Tree) := do
  let first ← r.clause
  let rest ← loop (fun xs => do
    if ← startsClause then
      return some ((← r.clause) :: xs)
    return none) []
  return asParts .generator (first :: rest.reverse)

def isStarred (n : Tree) : Bool :=
  match n.label with
  | .starred => true
  | _ => false

/-! ## Calls and items -/

structure Arguments where
  positional : List Tree := []
  keywords : List Tree := []
  /-- 0 while positional ones may follow, 1 after a keyword, 2 after an unpacked dictionary. -/
  phase : Nat := 0

def argumentStep (as : Arguments) : Reader Arguments := do
  let line ← nextLine
  if ← takeOp "**" then
    let x ← r.expression
    let k ← node (.keyword none) line [x.as .value]
    return { as with keywords := as.keywords ++ [k], phase := 2 }
  else if ← takeOp "*" then
    if as.phase = 2 then fail
    else
      let x ← r.expression
      let s ← node .starred line [x.as .value]
      return { as with positional := as.positional ++ [s] }
  else
    match ← peek, ← peekSecond with
    | .name _, .op "=" =>
      let id ← name
      let _ ← take
      let x ← r.expression
      let k ← node (.keyword (some id)) line [x.as .value]
      return { as with keywords := as.keywords ++ [k], phase := max as.phase 1 }
    | _, _ =>
      if as.phase != 0 then fail
      else
        let x ← r.namedExpression
        return { as with positional := as.positional ++ [x] }

/-- The arguments up to a closing bracket, which is taken. -/
def arguments (as : Arguments) : Reader Arguments := do
  let (as, _) ← loop (fun (as, done) => do
    if done then return none
    if ← takeOp ")" then return some (as, true)
    let as ← r.argumentStep as
    if ← takeOp "," then return some (as, false)
    needOp ")"
    return some (as, true)) (as, false)
  return as

def callArguments : Reader (List Tree × List Tree) := do
  let line ← nextLine
  needOp "("
  let bare ← (match ← peek, ← peekSecond with
    | .op "*", _ | .op "**", _ | .op ")", _ | .name _, .op "=" => pure false
    | _, _ => pure true : Reader Bool)
  if bare then
    let first ← r.namedExpression
    if ← startsClause then
      let cs ← r.clauses
      needOp ")"
      return ([← node .generatorExp line (first.as .item :: cs)], [])
    else
      let as ← if ← takeOp "," then r.arguments { positional := [first] }
        else do
          needOp ")"
          pure { positional := [first] }
      return (as.positional, as.keywords)
  else
    let as ← r.arguments {}
    return (as.positional, as.keywords)

def sliceBound : Reader (Option Tree) := do
  if (← seesOp ":") || (← seesOp ",") || (← seesOp "]") then return none
  some <$> r.expression

def sliceItem : Reader Tree := do
  let line ← nextLine
  if ← takeOp "*" then
    node .starred line [(← r.expression).as .value]
  else
    let named ← seesNamed
    let first ← if ← seesOp ":" then pure none else some <$> r.namedExpression
    if (← seesOp ":") && !named then ranged line first
    else match first with
      | some x => return x
      | none => fail
where
  /-- A range whose lower bound has been read. -/
  ranged (line : Nat) (first : Option Tree) : Reader Tree := do
    needOp ":"
    let upper ← r.sliceBound
    let step ← if ← takeOp ":" then r.sliceBound else pure none
    node .slice line ((first.map (·.as .lower)).toList ++ (upper.map (·.as .upper)).toList ++
      (step.map (·.as .step)).toList)

def slices : Reader Tree := do
  let line ← nextLine
  let (items, trailing) ← commaList r.sliceItem (do return !(← seesOp "]"))
  match items, trailing with
  | [x], false => if isStarred x then node .tuple line [x.as .item] else return x
  | _, _ => node .tuple line (asParts .item items)

/-! ## Displays in brackets -/

def group : Reader Tree := do
  let line ← nextLine
  needOp "("
  if ← takeOp ")" then node .tuple line []
  else if ← seesWord "yield" then
    let x ← r.yieldExpression
    needOp ")"
    return x
  else
    let first ← r.starNamedExpression
    if ← startsClause then
      if isStarred first then fail
      else
        let cs ← r.clauses
        needOp ")"
        node .generatorExp line (first.as .item :: cs)
    else if ← seesOp "," then
      let (items, _) ← restOf first ")"
      needOp ")"
      node .tuple line (asParts .item items)
    else if isStarred first then fail
    else
      needOp ")"
      return first
where
  /-- The items after the first one, up to `close`. -/
  restOf (first : Tree) (close : String) : Reader (List Tree × Bool) := do
    let (items, _) ← loop (fun (items, done) => do
      if done then return none
      if ← takeOp "," then
        if ← seesOp close then return some (items, true)
        return some ((← r.starNamedExpression) :: items, false)
      return some (items, true)) ([first], false)
    return (items.reverse, true)

def listDisplay : Reader Tree := do
  let line ← nextLine
  needOp "["
  if ← takeOp "]" then node .list line []
  else
    let first ← r.starNamedExpression
    if ← startsClause then
      if isStarred first then fail
      else
        let cs ← r.clauses
        needOp "]"
        node .listComp line (first.as .item :: cs)
    else
      let (items, _) ← group.restOf r first "]"
      needOp "]"
      node .list line (asParts .item items)

def entry : Reader (Option Tree × Tree) := do
  if ← takeOp "**" then
    return (none, ← r.bitOr)
  else
    let k ← r.expression
    needOp ":"
    return (some k, ← r.expression)

def dictNode (line : Nat) (entries : List (Option Tree × Tree)) : Reader Tree :=
  node (.dict (entries.map (·.1.isNone))) line
    (asParts .key (entries.filterMap (·.1)) ++ asParts .value (entries.map (·.2)))

/-- The entries after the first one, and the closing brace. -/
def restOfDict (line : Nat) (first : Option Tree × Tree) : Reader Tree := do
  let (entries, _) ← loop (fun (entries, done) => do
    if done then return none
    if ← takeOp "," then
      if ← seesOp "\x7d" then return some (entries, true)
      return some ((← r.entry) :: entries, false)
    return some (entries, true)) ([first], false)
  needOp "\x7d"
  dictNode line entries.reverse

def braces : Reader Tree := do
  let line ← nextLine
  needOp "\x7b"
  if ← takeOp "\x7d" then node (.dict []) line []
  else if ← seesOp "**" then
    r.restOfDict line (← r.entry)
  else
    let named ← seesNamed
    let first ← r.starNamedExpression
    if (← seesOp ":") && !named && !isStarred first then
      needOp ":"
      let value ← r.expression
      if ← startsClause then
        let cs ← r.clauses
        needOp "\x7d"
        node .dictComp line (first.as .key :: value.as .value :: cs)
      else r.restOfDict line (some first, value)
    else if ← startsClause then
      if isStarred first then fail
      else
        let cs ← r.clauses
        needOp "\x7d"
        node .setComp line (first.as .item :: cs)
    else
      let (items, _) ← group.restOf r first "\x7d"
      needOp "\x7d"
      node .set line (asParts .item items)

/-! ## Atoms -/

def texts : Reader Tree := do
  let line ← nextLine
  let pieces ← loop (fun ps => do
    let at_ ← nextLine
    match ← peek with
    | .text p =>
      let _ ← take
      return some ((p, at_) :: ps)
    | _ => return none) []
  ofOption (textNode? r.embedded line (← lastLine) pieces.reverse)

def atom : Reader Tree := do
  let line ← nextLine
  match ← peek with
  | .name "None" => let _ ← take; node (.constant .none) line []
  | .name "True" => let _ ← take; node (.constant (.bool true)) line []
  | .name "False" => let _ ← take; node (.constant (.bool false)) line []
  | .name _ =>
    node (.name (← name) .load) line []
  | .number v => let _ ← take; node (.constant v) line []
  | .text _ => r.texts
  | .op "..." => let _ ← take; node (.constant .ellipsis) line []
  | .op "(" => r.group
  | .op "[" => r.listDisplay
  | .op "\x7b" => r.braces
  | _ => fail

def primary : Reader Tree := do
  let line ← nextLine
  let first ← r.atom
  loop (fun x => do
    match ← peek with
    | .op "." =>
      let _ ← take
      let id ← name
      return some (← node (.attribute id) line [x.as .value])
    | .op "(" =>
      let (positional, keywords) ← r.callArguments
      return some (← node .call line (x.as .func :: asParts .arg positional ++
        asParts .keyword keywords))
    | .op "[" =>
      let _ ← take
      let i ← r.slices
      needOp "]"
      return some (← node .subscript line [x.as .value, i.as .index])
    | _ => return none) first

def awaited : Reader Tree := do
  let line ← nextLine
  if ← takeWord "await" then
    node .await line [(← r.primary).as .value]
  else r.primary

def power : Reader Tree := do
  let line ← nextLine
  let base ← r.awaited
  if ← takeOp "**" then
    node (.binOp .pow) line [base.as .left, (← r.factor).as .right]
  else return base

def factorRule : Reader Tree := do
  let line ← nextLine
  match ← peek with
  | .op "+" => signed line .plus
  | .op "-" => signed line .minus
  | .op "~" => signed line .invert
  | _ => r.power
where
  signed (line : Nat) (op : UnaryOp) : Reader Tree := do
    let _ ← take
    node (.unaryOp op) line [(← r.factor).as .operand]

end Rules

end ReviewDesk.Source
