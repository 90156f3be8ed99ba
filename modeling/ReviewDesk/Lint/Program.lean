import ReviewDesk.Pattern.Basic
import ReviewDesk.Severity
import ReviewDesk.Source.Stmt
import ReviewDesk.Source.Render

/-!
# Rules for Python programs

Six passes over the nodes of a program: complexity, smells, practices, bugs, performance, security.
Each pass looks at one node at a time and at the tree below it.
-/

namespace ReviewDesk.Lint

/-! ## Conventions for names

Functions are written in snake case, classes in Pascal case. `toSnake` and `toPascal` suggest a name
in the wanted form.
-/

open Pattern

def isSnake (cs : Chars) : Bool := Text.isLowerCase cs

/-- Nothing for the empty name. -/
def isPascal? : Chars → Option Bool
  | [] => none
  | c :: r => some (Text.isUpperLetter c && !(c :: r).contains '_')

/-- The same, with a fault for an empty name. -/
def isPascal (cs : Chars) : Outcome Bool :=
  match isPascal? cs with
  | some b => .ok b
  | none => .error (.outOfRange "an empty name has no first letter")

def isCapital (c : Char) : Bool := 'A' ≤ c && c ≤ 'Z'

def isSmall (c : Char) : Bool := 'a' ≤ c && c ≤ 'z'

def isSmallOrDigit (c : Char) : Bool := isSmall c || ('0' ≤ c && c ≤ '9')

/-- A capital that begins a word after another character. -/
def wordStart : Pattern := one isInLine ++ (one isCapital ++ run isSmall 1 true)

/-- A capital right after a small letter or a digit. -/
def hump : Pattern := one isSmallOrDigit ++ one isCapital

/-- Puts an underscore behind the first character of every match. -/
def underscored (p : Pattern) (cs : Chars) : Chars :=
  p.replace (fun m => m.text.take 1 ++ '_' :: m.text.drop 1) cs

def toSnake (cs : Chars) : Chars := Text.lower (underscored hump (underscored wordStart cs))

def toPascal (cs : Chars) : Chars := (Text.splitAtText ['_'] cs).flatMap Text.capitalize

/-! ## Findings

What the rules say about a program: each finding names its rule, the line it is about and what to
do.
-/

structure Finding where
  title : String
  description : String
  severity : Severity
  ruleId : String
  line : Nat
  fix : String
  deriving DecidableEq

def Finding.brief (f : Finding) : Fields :=
  [("title", .text f.title), ("description", .text f.description),
   ("severity", .text f.severity.name), ("rule_id", .text f.ruleId), ("line_number", .ofNat f.line),
   ("suggested_fix", .text f.fix)]

def Finding.report (f : Finding) : Value := .object
  (f.brief ++ [("line_end", .ofNat f.line), ("code_snippet", .text ""), ("confidence", .real 0.8)])

open Source

/-! ## Measures of a node -/

variable (n : Node)

/-- How much a node adds to the complexity of the function around it. -/
def branchWeight : Nat :=
  match n.label with
  | .ifThen | .whileLoop | .forLoop | .asyncFor | .withBlock | .asyncWith => 1
  | .exceptHandler _ | .assert | .comprehension _ => 1
  | .boolOp _ => (n.parts .value).length - 1
  | _ => 0

def complexity : Nat := 1 + Tally.sumOf branchWeight n.walk

def functionName? : Option String :=
  match n.label with
  | .function name => some name
  | _ => none

def paramCount : Nat := ((n.part? .arguments).map fun a => (a.parts .arg).length).getD 0

def calledName? : Option String :=
  match n.label, (n.part? .func).map Node.label with
  | .call, some (.name id _) => some id
  | _, _ => none

def calledAttribute? : Option String :=
  match n.label, (n.part? .func).map Node.label with
  | .call, some (.attribute id) => some id
  | _, _ => none

def isDocumented : Bool := ((docstring? n).map (!·.isEmpty)).getD false

/-! ## Complexity -/

def complexityOf : List Finding :=
  match n.label with
  | .function name =>
    let c := complexity n
    let length := n.endLine - n.line
    let params := paramCount n
    (if 10 < c then
      [⟨"High Cyclomatic Complexity",
        s!"Function '{name}' has high cyclomatic complexity ({c}). Consider breaking it into smaller functions.",
        .medium, "high_complexity", n.line,
        "Break down the function into smaller, more focused functions"⟩]
    else []) ++
    (if 50 < length then
      [⟨"Long Function", s!"Function '{name}' is {length} lines long. Consider breaking it down.",
        .low,
        "long_function", n.line, "Split into smaller, single-purpose functions"⟩]
    else []) ++
    (if 5 < params then
      [⟨"Too Many Parameters",
        s!"Function '{name}' has {params} parameters. Consider using a configuration object.", .low,
        "too_many_params", n.line, "Use a dictionary or dataclass for parameters"⟩]
    else [])
  | .classDef name =>
    let methods := (n.parts .body).countP fun m => (functionName? m).isSome
    if 20 < methods then
      [⟨"Large Class",
        s!"Class '{name}' has {methods} methods. Consider splitting responsibilities.", .medium,
        "large_class", n.line, "Apply Single Responsibility Principle"⟩]
    else []
  | _ => []

/-! ## Smells -/

def mayFollowReturn : Label → Bool
  | .function _ | .classDef _ | .ifThen | .tryBlock => true
  | _ => false

/-- The statements that stand right after a `return`. -/
def unreachable : List Node → List Finding
  | a :: b :: r =>
    (match a.label with
    | .ret =>
      if mayFollowReturn b.label then []
      else [⟨"Unreachable Code", "Code after return statement is unreachable", .medium,
        "unreachable_code", b.line,
        "Remove unreachable code or restructure logic"⟩]
    | _ => []) ++ unreachable (b :: r)
  | _ => []

/-- The text of a number that should have a name. -/
def magicNumber? : Literal → Option String
  | .int n => if n = 0 || n = 1 then none else some (Value.intText n)
  | .real x => if x == 0 || x == 1 then none else some (Decimal.floatText x)
  | _ => none

def smellsOf : List Finding :=
  match n.label with
  | .function name =>
    let params := paramCount n
    (if 7 < params then
      [⟨"Long Parameter List", s!"Function '{name}' has too many parameters ({params})", .medium,
        "long_parameter_list", n.line, "Use parameter objects or builder pattern"⟩]
    else []) ++ unreachable (n.parts .body)
  | .constant v =>
    match magicNumber? v with
    | some shown =>
      [⟨"Magic Number", s!"Magic number {shown} should be replaced with a named constant", .low,
        "magic_number",
        n.line, s!"Define as constant: SOME_CONSTANT = {shown}"⟩]
    | none => []
  | _ => []

/-! ## Practices -/

def isMutable : Bool :=
  match n.label with
  | .list | .dict _ | .set => true
  | _ => false

def practicesOf : List Finding :=
  match n.label with
  | .function name =>
    let cs := name.toList
    let suggested := String.ofList (toSnake cs)
    (if !isDocumented n && !Text.begins name "_" then
      [⟨"Missing Docstring", s!"Public function '{name}' lacks documentation", .low,
        "missing_docstring", n.line,
        "Add docstring explaining function purpose, parameters, and return value"⟩]
    else []) ++
    (if !isSnake cs && !Text.begins name "__" then
      [⟨"Naming Convention Violation", s!"Function '{name}' should use snake_case naming", .low,
        "function_naming",
        n.line, s!"Rename to: {suggested}"⟩]
    else []) ++
    (((n.part? .arguments).map fun a => (a.parts .default).filter isMutable).getD []).map fun _ =>
      ⟨"Mutable Default Argument", s!"Function '{name}' has mutable default argument", .high,
        "mutable_default",
        n.line, "Use None as default and create mutable object inside function"⟩
  | .classDef name =>
    let cs := name.toList
    let suggested := String.ofList (toPascal cs)
    (if !isDocumented n then
      [⟨"Missing Class Docstring", s!"Class '{name}' lacks documentation", .low,
        "missing_class_docstring", n.line,
        "Add class docstring explaining purpose and usage"⟩]
    else []) ++
    (if (isPascal? cs).getD false then []
    else [⟨"Class Naming Convention", s!"Class '{name}' should use PascalCase naming", .low,
      "class_naming", n.line,
      s!"Rename to: {suggested}"⟩])
  | _ => []

/-! ## Bugs -/

def assignedNames : List String :=
  match n.label with
  | .assign => (n.parts .target).filterMap fun t => match t.label with
    | .name id _ => some id
    | _ => none
  | _ => []

def readNames : List String :=
  match n.label with
  | .name id .load => [id]
  | _ => []

/-- The variables of a function that are set and never read, in the order of their names. -/
def unusedVariables : List String :=
  let nodes := n.walk
  let used := nodes.flatMap readNames
  let unused := (nodes.flatMap assignedNames).eraseDups.filter fun v =>
    !used.contains v && !Text.begins v "_" && v != "self" && v != "cls"
  unused.mergeSort (· ≤ ·)

def isNone : Bool :=
  match n.label with
  | .constant .none => true
  | _ => false

def bugsOf : List Finding :=
  match n.label with
  | .function _ => (unusedVariables n).map fun v =>
    ⟨"Unused Variable", s!"Variable '{v}' is assigned but never used", .low, "unused_variable",
      n.line,
      s!"Remove unused variable '{v}' or prefix with '_'"⟩
  | .compare ops =>
    if ops.any fun o => o = .eq || o = .notEq then
      ((n.parts .right).filter isNone).map fun _ =>
        ⟨"Incorrect None Comparison", "Use 'is' or 'is not' for None comparisons", .medium,
          "none_comparison", n.line,
          "Use 'is None' or 'is not None'"⟩
    else []
  | .exceptHandler _ =>
    if (n.part? .type).isNone then
      [⟨"Bare Except Clause", "Catching all exceptions with bare 'except:' is dangerous", .high,
        "bare_except", n.line,
        "Specify exception types or use 'except Exception:'"⟩]
    else []
  | .binOp .mod =>
    match (n.part? .left).map Node.label with
    | some (.constant (.text s _)) =>
      if s.contains '%' then
        [⟨"Old-style String Formatting",
          "Consider using f-strings or .format() instead of % formatting", .low,
          "old_string_format", n.line, "Use f-strings: f'text \x7bvariable\x7d'"⟩]
      else []
    | _ => []
  | _ => []

/-! ## Performance -/

def isAppending : Bool :=
  match n.label, (n.part? .target).map Node.label with
  | .augAssign .add, some (.name _ _) => true
  | _, _ => false

def performanceOf : List Finding :=
  match n.label with
  | .forLoop =>
    let nodes := n.walk
    (if nodes.countP (fun c => calledAttribute? c = some "append") = 1 then
      [⟨"Loop Could Be List Comprehension",
        "Consider using list comprehension for better performance", .low,
        "inefficient_loop", n.line, "Use list comprehension: [item for item in iterable]"⟩]
    else []) ++
    (nodes.filter isAppending).map fun _ =>
      ⟨"String Concatenation in Loop", "String concatenation in loops is inefficient", .medium,
        "string_concat_loop",
        n.line, "Use list and join() method or f-strings"⟩
  | .global names => names.map fun name =>
    ⟨"Global Variable Usage",
      s!"Global variable '{name}' usage affects performance and maintainability", .low,
      "global_usage", n.line, "Pass as parameter or use class attributes"⟩
  | _ => []

/-! ## Security -/

def secretWords : List String := ["password", "secret", "key", "token"]

def looksSecret (name : String) : Bool :=
  let low := Text.lowered name
  secretWords.any (Text.contains low)

def securityOf : List Finding :=
  match n.label with
  | .call =>
    match calledName? n with
    | some "eval" =>
      [⟨"Dangerous eval() Usage", "eval() can execute arbitrary code and is a security risk",
        .critical, "eval_usage",
        n.line, "Use ast.literal_eval() for safe evaluation or avoid eval()"⟩]
    | some "exec" =>
      [⟨"Dangerous exec() Usage", "exec() can execute arbitrary code and is a security risk",
        .critical, "exec_usage",
        n.line, "Avoid exec() or use safer alternatives"⟩]
    | _ => []
  | .assign =>
    match (n.part? .value).map Node.label with
    | some (.constant (.text s _)) =>
      if 8 < s.length then
        ((assignedNames n).filter looksSecret).map fun name =>
          ⟨"Hardcoded Credential", s!"Variable '{name}' appears to contain hardcoded credentials",
            .high,
            "hardcoded_credential", n.line, "Use environment variables or secure configuration"⟩
      else []
    | _ => []
  | _ => []

/-! ## The whole program -/

/-- A number too long to be written. -/
def isUnwritable : Bool :=
  match n.label with
  | .constant (.int v) => (intDigits? v).isNone
  | _ => false

def passes : List (Node → List Finding) :=
  [complexityOf, smellsOf, practicesOf, bugsOf, performanceOf, securityOf]

/-- The findings of all passes, pass by pass; none at all if the program holds a number that cannot
be written. -/
def findings (tree : Node) : List Finding :=
  let nodes := tree.walk
  if nodes.any isUnwritable then [] else passes.flatMap fun pass => nodes.flatMap pass

/-! ## Texts built from parts -/

def sumArguments : List Node :=
  (n.parts .arg).filter fun a => match a.label with
    | .binOp .add => true
    | _ => false

def queryCalls : List String := ["execute", "executemany", "query"]

def sqlFindings (tree : Node) : List Finding :=
  tree.walk.flatMap fun n =>
    if (calledAttribute? n).any queryCalls.contains then
      (sumArguments n).map fun _ =>
        ⟨"Potential SQL Injection", "String concatenation in SQL query may lead to injection",
          .critical,
          "sql_injection", n.line, "Use parameterized queries instead"⟩
    else []

def pathFindings (tree : Node) : List Finding :=
  tree.walk.flatMap fun n =>
    if calledName? n = some "open" then
      (sumArguments n).map fun _ =>
        ⟨"Potential Path Traversal", "File path construction may allow path traversal attacks",
          .high,
          "path_traversal", n.line, "Validate and sanitize file paths"⟩
    else []

def reports (source : Value) : Outcome Fields :=
  match source with
  | .text s =>
    match Source.parse? s.toList with
    | some tree =>
      .ok [("issues", .list ((findings tree).map (·.report))),
        ("sql", .list ((sqlFindings tree).map fun f => .object f.brief)),
        ("path", .list ((pathFindings tree).map fun f => .object f.brief))]
    | none => .error .badSource
  | _ => .error (.mistyped "a program must be a text")

end ReviewDesk.Lint
