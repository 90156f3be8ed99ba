import ReviewDesk.Pattern.Basic
import ReviewDesk.Source.Render
import ReviewDesk.Source.Stmt

/-!
# The outline of a file

The language of a file decides how its text is read. A language that is not known has an outline
without entries, and so has anything that is no text.
-/

namespace ReviewDesk.Outline

open Source

/-!
## Outlines of Python programs

The functions, classes, imports and variables of a program in the order of `Node.walk`. The
complexity of a function is one more than the number of places where it can branch.
-/

def isBranch : Label → Bool
  | .ifThen | .whileLoop | .forLoop | .asyncFor | .withBlock | .asyncWith => true
  | .exceptHandler _ | .boolOp _ | .comprehension _ => true
  | _ => false

variable (n : Node)

def complexity : Nat := 1 + n.walk.countP fun m => isBranch m.label

/-- What an expression is called in the grammar of the language. -/
def kindName : Label → String
  | .boolOp _ => "BoolOp"
  | .namedExpr => "NamedExpr"
  | .binOp _ => "BinOp"
  | .unaryOp _ => "UnaryOp"
  | .lambda => "Lambda"
  | .ifExp => "IfExp"
  | .dict _ => "Dict"
  | .set => "Set"
  | .listComp => "ListComp"
  | .setComp => "SetComp"
  | .dictComp => "DictComp"
  | .generatorExp => "GeneratorExp"
  | .await => "Await"
  | .yield => "Yield"
  | .yieldFrom => "YieldFrom"
  | .compare _ => "Compare"
  | .call => "Call"
  | .formattedValue _ => "FormattedValue"
  | .joinedText => "JoinedStr"
  | .constant _ => "Constant"
  | .attribute _ => "Attribute"
  | .subscript => "Subscript"
  | .starred => "Starred"
  | .name _ _ => "Name"
  | .list => "List"
  | .tuple => "Tuple"
  | .slice => "Slice"
  | _ => "AST"

def reference : String :=
  match n.label with
  | .name id _ => id
  | l => "<ast." ++ kindName l ++ " object>"

def literalType : Literal → String
  | .none => "NoneType"
  | .bool _ => "bool"
  | .int _ => "int"
  | .real _ => "float"
  | .imaginary _ => "complex"
  | .text .. => "str"
  | .bytes _ => "bytes"
  | .ellipsis => "ellipsis"

/-- The type of a variable as far as the expression it is set to shows it. -/
def inferredType : String :=
  match n.label with
  | .constant v => literalType v
  | .list => "list"
  | .dict _ => "dict"
  | .set => "set"
  | .tuple => "tuple"
  | .call =>
    match (n.part? .func).map Node.label with
    | some (.name id _) => "call_" ++ id
    | _ => "call"
  | _ => "unknown"

structure Function where
  name : String
  lineStart : Nat
  lineEnd : Nat
  args : List String
  docstring : Option String
  decorators : List String
  complexity : Nat

structure Class where
  name : String
  lineStart : Nat
  lineEnd : Nat
  methods : List String
  docstring : Option String
  bases : List String
  decorators : List String

structure Import where
  module : Option String
  /-- The name that is taken from the module, if not the module itself. -/
  name : Option String
  asName : Option String
  line : Nat

structure Variable where
  name : String
  line : Nat
  type : String

structure Program where
  functions : List Function
  classes : List Class
  imports : List Import
  assigned : List Variable

def argNames : List String :=
  ((n.part? .arguments).map fun a => (a.parts .arg).filterMap fun p => match p.label with
    | .arg id => some id
    | _ => none).getD []

def function? : Option Function :=
  match n.label with
  | .function name =>
    some ⟨name, n.line, n.endLine, argNames n, docstring? n, (n.parts .decorator).map reference,
      complexity n⟩
  | _ => none

def class? : Option Class :=
  match n.label with
  | .classDef name =>
    let methods := (n.parts .body).filterMap fun m => match m.label with
      | .function id => some id
      | _ => none
    some ⟨name, n.line, n.endLine, methods, docstring? n, (n.parts .base).map reference,
      (n.parts .decorator).map reference⟩
  | _ => none

def importsOf : List Import :=
  match n.label with
  | .importNames => n.children.filterMap fun c => match c.label with
    | .alias id asName => some ⟨some id, none, asName, n.line⟩
    | _ => none
  | .importFrom module _ => n.children.filterMap fun c => match c.label with
    | .alias id asName => some ⟨module, some id, asName, n.line⟩
    | _ => none
  | _ => []

def variablesOf : List Variable :=
  match n.label with
  | .assign =>
    let type := ((n.part? .value).map inferredType).getD "unknown"
    (n.parts .target).filterMap fun t => match t.label with
      | .name id _ => some ⟨id, n.line, type⟩
      | _ => none
  | _ => []

def Program.ofTree (tree : Node) : Program :=
  let nodes := tree.walk
  ⟨nodes.filterMap function?, nodes.filterMap class?, nodes.flatMap importsOf, nodes.flatMap
  variablesOf⟩

def Program.meanComplexity (p : Program) : Float :=
  let total := Tally.sumOf (·.complexity) p.functions
  total.toFloat / (max p.functions.length 1).toFloat

/-! ## Reports -/

def Function.report (f : Function) : Value := .object
  [("name", .text f.name), ("line_start", .ofNat f.lineStart), ("line_end", .ofNat f.lineEnd),
   ("args", .ofTexts f.args), ("docstring", .ofText? f.docstring),
   ("decorators", .ofTexts f.decorators), ("complexity", .ofNat f.complexity)]

def Class.report (c : Class) : Value := .object
  [("name", .text c.name), ("line_start", .ofNat c.lineStart), ("line_end", .ofNat c.lineEnd),
   ("methods", .ofTexts c.methods), ("docstring", .ofText? c.docstring),
   ("bases", .ofTexts c.bases), ("decorators", .ofTexts c.decorators)]

def Import.report (i : Import) : Value :=
  match i.name with
  | none => .object
    [("module", .ofText? i.module), ("alias", .ofText? i.asName), ("line", .ofNat i.line),
     ("type", .text "import")]
  | some name => .object
    [("module", .ofText? i.module), ("name", .text name), ("alias", .ofText? i.asName),
     ("line", .ofNat i.line), ("type", .text "from_import")]

def Variable.report (v : Variable) : Value :=
  .object [("name", .text v.name), ("line", .ofNat v.line), ("type", .text v.type)]

def Program.report (p : Program) (lines : Nat) : Value := .object
  [("language", .text "python"), ("functions", .list (p.functions.map (·.report))),
    ("classes", .list (p.classes.map (·.report))), ("imports", .list (p.imports.map (·.report))),
    ("variables", .list (p.assigned.map (·.report))),
    ("metrics", .object [("lines_of_code", .ofNat lines),
      ("function_count", .ofNat p.functions.length), ("class_count", .ofNat p.classes.length),
      ("import_count", .ofNat p.imports.length),
      ("avg_function_complexity", .real p.meanComplexity)])]

/-! ## Functions with their text -/

structure Body where
  name : String
  lineStart : Nat
  lineEnd : Nat
  body : String
  args : List String
  returns : Option String
  docstring : Option String
  complexity : Nat

def linesBetween (lines : List String) (first last : Nat) : String :=
  "\n".intercalate ((lines.take last).drop (first - 1))

/-- Gives nothing if the type it returns cannot be written. -/
def body? (lines : List String) (n : Node) (name : String) : Option Body := do
  let returns ← match n.part? .returns with
    | some t => (render? t).map some
    | none => some none
  return ⟨name, n.line, n.endLine, linesBetween lines n.line n.endLine, argNames n, returns,
  docstring? n,
    complexity n⟩

def bodiesOf? (lines : List String) (tree : Node) : Option (List Body) :=
  (tree.walk.filterMap fun n => match n.label with
    | .function name => some (n, name)
    | _ => none).mapM fun (n, name) => body? lines n name

def Body.report (b : Body) : Value := .object
  [("name", .text b.name), ("line_start", .ofNat b.lineStart), ("line_end", .ofNat b.lineEnd),
    ("body", .text b.body), ("args", .ofTexts b.args), ("returns", .ofText? b.returns),
    ("docstring", .ofText? b.docstring), ("complexity", .ofNat b.complexity)]

/-- The functions of a program with their text; none for other languages and for what is no program.
-/
def bodies (content language : Value) : List Body :=
  match language, content with
  | .text "python", .text s =>
    ((parse? s.toList).bind (bodiesOf? (Text.textLines s))).getD []
  | _, _ => []

open Pattern

/-!
## Declarations found by patterns

For JavaScript, TypeScript, Java, C++ and C the outline lists the declarations that patterns find in
the text, each with the line on which its match begins.
-/

inductive Kind where
  | function
  | method
  | classDecl
  | interface
  | struct
  | import
  | include
  deriving DecidableEq

structure Declaration where
  kind : Kind
  name : String
  line : Nat
  related : List (String × Option String)

variable (text : Chars)

structure Form where
  kind : Kind
  pattern : Pattern
  name : Nat := 1
  related : List (String × Nat) := []

def Form.declaration (f : Form) (text : Chars) (m : Match) : Declaration :=
  ⟨f.kind, m.groupText f.name, Text.lineAt text m.start,
    f.related.map fun (k, n) => (k, m.groupText? n)⟩

def Form.all (f : Form) (text : Chars) : List Declaration :=
  (f.pattern.all text).map (f.declaration text)

/-! ## Pieces of patterns -/

def open_ : Pattern := blanks ++ char '\x7b'

/-- Round brackets with anything but a closing bracket inside. -/
def brackets : Pattern := char '(' ++ without ")" 0 ++ char ')'

def inQuotes (n : Nat) : Pattern := quoteMark ++ capture n (without "'\"" 1) ++ quoteMark

def name1 : Pattern := capture 1 word

/-! ## JavaScript and TypeScript -/

def scriptFunctions : List Form :=
  [⟨.function, lit "function" ++ gap ++ name1 ++ blanks ++ brackets ++ open_, 1, []⟩,
    ⟨.function, name1 ++ blanks ++ char ':' ++ blanks ++ lit "function" ++ blanks ++ brackets ++
      open_, 1, []⟩,
    ⟨.function, name1 ++ blanks ++ char '=' ++ blanks ++ lit "function" ++ blanks ++ brackets ++
      open_, 1, []⟩,
    ⟨.function, name1 ++ blanks ++ char '=' ++ blanks ++ brackets ++ blanks ++ lit "=>" ++ open_,
      1, []⟩]

def scriptClasses : Form :=
  ⟨.classDecl, lit "class" ++ gap ++ name1 ++ optional (gap ++ lit "extends" ++ gap ++
    capture 2 word) ++ open_, 1,
    [("extends", 2)]⟩

def scriptImports : List Form :=
  [⟨.import, lit "import" ++ gap ++ name1 ++ gap ++ lit "from" ++ gap ++ inQuotes 2, 2, []⟩,
    ⟨.import, lit "import" ++ gap ++ char '\x7b' ++ capture 1 (without "\x7d" 1) ++ char '\x7d' ++
      gap ++
      lit "from" ++ gap ++ inQuotes 2, 2, []⟩,
    ⟨.import, lit "import" ++ gap ++ inQuotes 1, 1, []⟩]

def scriptInterfaces : Form := ⟨.interface, lit "interface" ++ gap ++ name1 ++ open_, 1, []⟩

/-! ## Java -/

def javaClasses : Form :=
  ⟨.classDecl, optional (oneOfTexts lit ["public", "private", "protected"]) ++ blanks ++
    lit "class" ++ gap ++ name1 ++
    optional (gap ++ lit "extends" ++ gap ++ capture 2 word) ++
    optional (gap ++ lit "implements" ++ gap ++ capture 3 (without "\x7b" 1)) ++ open_, 1,
    [("extends", 2), ("implements", 3)]⟩

def javaMethods : Form :=
  ⟨.method, oneOfTexts lit ["public", "private", "protected", "static"] ++ lineLazy ++ gap ++
    name1 ++ blanks ++
    brackets ++ open_, 1, []⟩

def javaImports : Form :=
  ⟨.import, lit "import" ++ gap ++ optional (lit "static" ++ gap) ++ capture 1 (without ";" 1) ++
    char ';', 1, []⟩

/-! ## C++ and C -/

def cppFunctions : Form :=
  ⟨.function, optional (lit "inline" ++ gap) ++ optional (lit "static" ++ gap) ++
    optional (lit "virtual" ++ gap) ++
    (word ++ optional (either (blanks ++ char '*') (blanks ++ char '&'))) ++ gap ++ name1 ++
      blanks ++ brackets ++
    blanks ++ optional (lit "const" ++ blanks) ++ optional (lit "override" ++ blanks) ++
    optional (lit "final" ++ blanks) ++ char '\x7b', 1, []⟩

def cppClasses : Form :=
  ⟨.classDecl, lit "class" ++ gap ++ name1 ++ optional (blanks ++ char ':' ++ blanks ++
    oneOfTexts lit ["public", "private", "protected"] ++ gap ++ capture 2 word) ++ open_, 1,
    [("inherits", 2)]⟩

def includes : Form :=
  ⟨.include, lit "#include" ++ blanks ++ one (among "<\"") ++ capture 1 (without ">\"" 1) ++
    one (among ">\""), 1, []⟩

def cFunctions : Form :=
  ⟨.function, optional (lit "static" ++ gap) ++ optional (lit "inline" ++ gap) ++
    (word ++ optional (blanks ++ char '*')) ++ gap ++ name1 ++ blanks ++ brackets ++ open_, 1, []⟩

def cStructs : Form :=
  ⟨.struct, optional (lit "typedef" ++ gap) ++ lit "struct" ++ gap ++ optional name1 ++ open_,
    1, []⟩

/-! ## Reports -/

def Kind.word : Kind → String
  | .function => "function"
  | .method => "method"
  | .classDecl => "class"
  | .interface => "interface"
  | .struct => "struct"
  | .import => "import"
  | .include => "include"

def Declaration.report (d : Declaration) : Value :=
  let (nameField, lineField) := match d.kind with
    | .import => ("module", "line")
    | .include => ("header", "line")
    | _ => ("name", "line_start")
  .object ([(nameField, .text d.name), (lineField, .ofNat d.line), ("type", .text d.kind.word)] ++
    d.related.map fun (k, v) => (k, .ofText? v))

/-- The lists of an outline, each under its name, with the name of the count that goes with it. -/
structure Section where
  name : String
  count : String
  entries : List Declaration

def Section.field (s : Section) : String × Value := (s.name, .list (s.entries.map (·.report)))

def sectionsReport (language : String) (sections : List Section) (lines : Nat) : Value :=
  .object (("language", .text language) :: sections.map (·.field) ++
    [("variables", .list []),
      ("metrics", .object (("lines_of_code", .ofNat lines) ::
        sections.map fun s => (s.count, .ofNat s.entries.length)))])

def scriptSections : List Section :=
  [⟨"functions", "function_count", scriptFunctions.flatMap (·.all text)⟩,
    ⟨"classes", "class_count", scriptClasses.all text⟩,
    ⟨"imports", "import_count", scriptImports.flatMap (·.all text)⟩]

def typedScriptSections : List Section :=
  scriptSections text ++ [⟨"interfaces", "interface_count", scriptInterfaces.all text⟩]

/-- Blanks around the name of a package are dropped. -/
def javaSections : List Section :=
  [⟨"functions", "function_count", javaMethods.all text⟩,
    ⟨"classes", "class_count", javaClasses.all text⟩,
    ⟨"imports", "import_count", (javaImports.all text).map fun d =>
      { d with name := Text.trimmed d.name }⟩]

def cppSections : List Section :=
  [⟨"functions", "function_count", cppFunctions.all text⟩,
    ⟨"classes", "class_count", cppClasses.all text⟩,
    ⟨"includes", "include_count", includes.all text⟩]

/-- A structure without name is called anonymous. -/
def cSections : List Section :=
  [⟨"functions", "function_count", cFunctions.all text⟩,
    ⟨"structs", "struct_count", (cStructs.all text).map fun d =>
      if d.name.isEmpty then { d with name := "anonymous" } else d⟩,
    ⟨"includes", "include_count", includes.all text⟩]

/-! ## The outline of a file -/

/-- An outline without entries, of a file with `lines` lines. -/
def unknownFields (lines : Nat) : Fields :=
  [("language", .text "unknown"), ("functions", .list []), ("classes", .list []),
   ("imports", .list []),
    ("variables", .list []),
    ("metrics", .object [("lines_of_code", .ofNat lines), ("function_count", .int 0),
      ("class_count", .int 0), ("import_count", .int 0)])]

def empty : Value := .object (unknownFields 0)

def unreadable (error : String) : Value := .object (unknownFields 0 ++ [("error", .text error)])

def pythonOutline (said : Chars → Source.Complaint) (s : String) (lines : Nat) : Value :=
  match Source.parse? s.toList with
  | some tree => (Program.ofTree tree).report lines
  | none => unreadable (Source.complaint said s.toList).message

def ofText (said : Chars → Source.Complaint) (language : Value) (s : String) : Value :=
  let lines := (Text.textLines s).length
  let text := s.toList
  match language with
  | .text "python" => pythonOutline said s lines
  | .text "javascript" => sectionsReport "javascript" (scriptSections text) lines
  | .text "typescript" => sectionsReport "typescript" (typedScriptSections text) lines
  | .text "java" => sectionsReport "java" (javaSections text) lines
  | .text "cpp" => sectionsReport "cpp" (cppSections text) lines
  | .text "c" => sectionsReport "c" (cSections text) lines
  | .list _ | .object _ => empty
  | _ => .object (unknownFields lines)

/-- The outline of a file, with what is said about one that cannot be read. -/
def ofFile (content language : Value)
    (said : Chars → Source.Complaint := fun _ => { message := "<parse error>" }) : Value :=
  match content, language with
  | .text s, _ => ofText said language s
  | _, .text "python" => unreadable "compile() arg 1 must be a string, bytes or AST object"
  | _, _ => empty

end ReviewDesk.Outline
