import ReviewDesk.Analysis.Score
import ReviewDesk.Lint.Program
import ReviewDesk.Security.File

/-!
# Analysis of a file

The stages run one after the other: the rules for programs, the security rules, the classifier, the
chat client, and the rules that were asked for. Their issues are put together, without duplicates
and by priority.
-/

namespace ReviewDesk.Analysis

/-!
## Analysis by a chat client

A file is sent with a prompt, cut down if it is too long. The issues are read from the first opening
to the last closing square bracket of the reply.
-/

structure Project where
  name : Value
  language : Value
  description : Value

def context (project : Project) (path : Value) (language : Value) (text : Chars) : Value :=
  .object
    [("repository_info", .object [("name", project.name), ("language", project.language),
        ("description", project.description)]),
      ("file_info", .object [("path", path), ("language", language),
        ("lines", .ofNat (Text.rows text).length)])]

def prompt (path language : Value) (text : String) (context : Value) : String :=
  let l := language.plain
  let p := path.plain
  let c := ((context.get? "repository_info").getD (.text "N/A")).plain
  "\n".intercalate
    ["", s!"Analyze the following {l} code file for issues:", "", s!"File: {p}", s!"Language: {l}",
      s!"Repository Context: {c}", "", "Code:", text, "",
      "Please identify and return issues in the following JSON format:", "[", "  \x7b",
      "    \"title\": \"Issue title\",", "    \"description\": \"Detailed description\",",
      "    \"category\": \"security|performance|maintainability|style|bug\",",
      "    \"severity\": \"critical|high|medium|low\",", "    \"line_number\": 123,",
      "    \"code_snippet\": \"problematic code\",", "    \"suggested_fix\": \"how to fix\",",
      "    \"explanation\": \"why this is an issue\"", "  \x7d", "]", "", "Focus on:",
      "1. Security vulnerabilities", "2. Performance bottlenecks  ", "3. Potential bugs",
      "4. Code maintainability issues", "5. Best practice violations", ""]

/-- The text cut to a number of tokens, each a character; a negative number leaves out that many at
the end. -/
def truncate (text : Chars) (most : Int) : Chars :=
  if (text.length : Int) ≤ most then text
  else if most < 0 then text.take (text.length - most.natAbs)
  else text.take most.toNat

/-! ## Requests and replies -/

structure ChatRequest where
  prompt : String

def ChatRequest.report (r : ChatRequest) : Value :=
  .object [("model", .text "gpt-4"),
    ("messages", .list
      [.object [("role", .text "system"),
          ("content", .text (
            "You are an expert code reviewer. Analyze the provided code for issues, bugs, " ++
            "security vulnerabilities, performance problems, and style violations. " ++
            "Return your findings as a JSON array."))],
        .object [("role", .text "user"), ("content", .text r.prompt)]]),
    ("temperature", .real 0.1), ("max_tokens", .int 1500)]

/-- The longest prompt that is sent as it is, and the number of characters of a file that is cut. -/
def mostPrompt : Nat := 3000

def cutText : Nat := 2000

def chatRequest (project : Project) (path language : Value) (text : Chars) : ChatRequest :=
  let c := context project path language text
  let whole := prompt path language (.ofList text) c
  if mostPrompt < whole.length then ⟨prompt path language (.ofList (truncate text cutText)) c⟩
  else ⟨whole⟩

inductive Reply where
  | text (s : String)
  | fails

/-- From the first opening to the last closing square bracket. -/
def bracketed? (cs : Chars) : Option Chars :=
  let rest := cs.dropWhile (· != '[')
  let kept := (rest.reverse.dropWhile (· != ']')).reverse
  if kept.isEmpty then none else some kept

/-- The issue of one element of a reply; nothing if it is no object or its severity is a list or
object. -/
def replyIssue? (path element : Value) : Option Issue :=
  match element with
  | .object fs =>
    let field (key : String) (default : Value) : Value := (Fields.get? fs key).getD default
    let build (s : Severity) : Issue := Core.issue
      { title := field "title" (.text "AI Detected Issue")
        description := field "description" (.text "")
        category := field "category" (.text "general")
        severity := s
        ruleId := "ai_analysis"
        path
        lineStart := field "line_number" (.int 1)
        confidence := .real 0.75 }
      [("code_snippet", field "code_snippet" (.text "")),
       ("suggested_fix", field "suggested_fix" (.text "")),
       ("ai_explanation", field "explanation" (.text ""))]
    match field "severity" (.text "medium") with
    | .list _ | .object _ => none
    | .text s => some (build ((Severity.ofName? s).getD .medium))
    | _ => some (build .medium)
  | _ => none

/-- The issues of the elements up to the first one that gives none. -/
def replyIssuesOf (path : Value) : List Value → List Issue
  | [] => []
  | v :: vs =>
    match replyIssue? path v with
    | some i => i :: replyIssuesOf path vs
    | none => []

def replyIssues (path : Value) (reply : Chars) : List Issue :=
  match bracketed? reply with
  | some cs =>
    match Json.read cs with
    | .ok (.list vs) => replyIssuesOf path vs
    | _ => []
  | none => []

def Reply.issues (path : Value) : Reply → List Issue
  | .text s => replyIssues path s.toList
  | .fails => []

def promptReport (project : Project) (path language content : Value) : Fields :=
  let text := content.text?.getD ""
  let c := context project path language text.toList
  [("context", c), ("prompt", .text (prompt path language text c)),
    ("bare_prompt", .text (prompt path language text (.object [])))]

def issuesInReply (path reply : Value) : List Issue :=
  match reply with
  | .text s => replyIssues path s.toList
  | _ => []

def truncateValue (content most : Value) : Outcome String :=
  match content, most with
  | .text s, .int n => .ok (.ofList (truncate s.toList n))
  | _, _ => .error (.mistyped "a text and a whole number are needed")

/-! ## Languages of files -/

def languages : List (String × String) :=
  [(".py", "python"), (".js", "javascript"), (".ts", "typescript"), (".jsx", "javascript"),
   (".tsx", "typescript"), (".java", "java"), (".cpp", "cpp"), (".c", "c"), (".cs", "csharp"),
   (".php", "php"), (".rb", "ruby"), (".go", "go"), (".rs", "rust")]

def languageOf (p : Path) : String := (languages.lookup (Text.lowered p.suffix)).getD "unknown"

def codeSuffixes : List String :=
  [".py", ".js", ".ts", ".jsx", ".tsx", ".java", ".cpp", ".c", ".cs", ".php", ".rb", ".go", ".rs",
   ".kt", ".swift", ".dart"]

def mostCharacters : Nat := 1024 * 1024

/-- A file worth analysing: neither blank nor too large, and with the suffix of a language. -/
def isCodeFile (p : Path) (text : Chars) : Bool :=
  text.any (!Text.isBlank ·) && text.length ≤ mostCharacters &&
    codeSuffixes.contains (Text.lowered p.suffix)

def pathOf (v : Value) : Outcome Path :=
  match v with
  | .text s => .ok (.ofText s)
  | _ => .error (.mistyped "a path must be a text")

def languageOfValue (path : Value) : Outcome String := do return languageOf (← pathOf path)

/-- Whether a file is worth an analysis. The text is looked at first. -/
def isCodeValue (path content : Value) : Outcome Bool := do
  let text ← content.textOf "encode"
  return isCodeFile (← pathOf path) text.toList

/-! ## Deeply nested control flow

A syntax tree as a parser of any language gives it. A node of control flow below eleven or more
others is reported.
-/

inductive SyntaxNode where
  | mk (type : String) (start stop : Int) (children : List SyntaxNode)
  deriving Inhabited

def flowTypes : List String :=
  ["if_statement", "while_statement", "for_statement", "try_statement", "except_clause",
   "with_statement", "and", "or", "conditional_expression"]

def deepIssue (path : Value) (depth : Nat) (start stop : Int) : Issue :=
  Core.issue
    { title := .text "High Cyclomatic Complexity"
      description := .text s!"Complex control flow detected (depth: {depth})"
      category := .text "maintainability"
      severity := .medium
      ruleId := "high_complexity"
      path
      lineStart := .int (start + 1)
      confidence := .real 0.9 }
    [("line_end", .int (stop + 1))]

mutual

/-- The issues of a node with `depth` nodes of control flow above it, in preorder. -/
def nestingIssues (path : Value) (depth : Nat) : SyntaxNode → List Issue
  | .mk type start stop children =>
    let isFlow := flowTypes.contains type
    (if isFlow && 10 < depth then [deepIssue path depth start stop] else []) ++
      nestingIssuesOf path (if isFlow then depth + 1 else depth) children

def nestingIssuesOf (path : Value) (depth : Nat) : List SyntaxNode → List Issue
  | [] => []
  | n :: ns => nestingIssues path depth n ++ nestingIssuesOf path depth ns

end

/-! ## Quality by a classifier

The rows of a file are given to a classifier twenty at a time. A chunk that it calls bad with enough
confidence becomes an issue.
-/

/-- Groups of `n` elements, the last one possibly shorter; `n` is not zero. -/
def groupsOf {α : Type} (n : Nat) : Nat → List α → List (List α)
  | 0, _ => []
  | _, [] => []
  | fuel + 1, xs => xs.take n :: groupsOf n fuel (xs.drop n)

/-- The chunks of `size` rows; a negative size gives none. -/
def chunks (text : Chars) (size : Int) : Outcome (List Chars) :=
  if size = 0 then .error (.invalid "range() arg 3 must not be zero")
  else if size < 0 then .ok []
  else
    let rows := Text.rows text
    .ok ((groupsOf size.toNat rows.length rows).map fun g => ['\n'].intercalate g)

inductive Verdict where
  | result (v : Value)
  | fails

def badLabels : List String := ["poor", "bad", "low_quality"]

variable (path : Value)

def qualityIssue? (i : Nat) (answer : Verdict) : Option Issue :=
  match answer with
  | .fails => none
  | .result (.list (first :: _)) =>
    match first.get? "label", first.get? "score" with
    | some (.text label), some score =>
      match Value.less (.real 0.7) score with
      | .ok true =>
        if badLabels.contains (Text.lowered label) then
          some (Core.issue
            { title := .text "Code Quality Issue"
              description := .text s!"Code quality concern detected: {label}"
              category := .text "code_quality"
              severity := .medium
              ruleId := "ml_quality_check"
              path
              lineStart := .ofNat (i * 20 + 1)
              confidence := score }
            [("line_end", .ofNat ((i + 1) * 20))])
        else none
      | _ => none
    | _, _ => none
  | .result _ => none

/-- Answers that are missing are empty. -/
def qualityIssues (answers : List Verdict) (text : Chars) : List Issue :=
  let count := ((chunks text 20).getD []).length
  ((answers.take count).zipIdx).filterMap fun (a, i) => qualityIssue? path i a

/-- The chunks of a text that can be any value, of a size that can be any value. -/
def chunksOf (content size : Value) : Outcome (List Value) := do
  let text ← content.textOf "split"
  match size with
  | .int n => return (← chunks text.toList n).map fun c => .text (.ofList c)
  | _ => throw (.mistyped "a size must be a whole number")

/-! ## Rules that a review can ask for -/

open Pattern

def setToText (name : String) : Pattern :=
  letters name ++ blanks ++ char '=' ++ blanks ++ quoteMark ++ without "\"'" 1 ++ quoteMark

def ruleBook : List (String × List (String × Pattern)) :=
  [("no_hardcoded_secrets",
      [("password\\s*=\\s*[\"\\'][^\"\\']+[\"\\']", setToText "password"),
        ("api_key\\s*=\\s*[\"\\'][^\"\\']+[\"\\']", setToText "api_key"),
        ("secret\\s*=\\s*[\"\\'][^\"\\']+[\"\\']", setToText "secret")]),
    ("no_debug_prints",
      [("print\\s*\\(", letters "print" ++ blanks ++ char '('),
        ("console\\.log\\s*\\(", letters "console.log" ++ blanks ++ char '(')]),
    ("no_todo_comments",
      [("#\\s*TODO", char '#' ++ blanks ++ letters "todo"),
        ("//\\s*TODO", lit "//" ++ blanks ++ letters "todo"),
        ("/\\*\\s*TODO", lit "/*" ++ blanks ++ letters "todo")])]

def ruleIssue (rule shown : String) (text : Chars) (m : Match) : Issue :=
  Core.issue
    { title := .text s!"Rule Violation: {rule}"
      description := .text s!"Pattern \"{shown}\" found in code"
      category := .text "style"
      severity := .low
      ruleId := rule
      path
      lineStart := .ofNat (Text.lineAt text m.start)
      confidence := .real 0.9 }
    [("code_snippet", .text (.ofList m.text))]

/-- The issues of one rule; a rule that is not in the book has none. -/
def issuesOfRule (text : Chars) (rule : String) : List Issue :=
  ((ruleBook.lookup rule).getD []).flatMap fun (shown, p) =>
    (p.all text).map (ruleIssue path rule shown text)

def issuesOfRuleValue (path content rule : Value) : Outcome (List Issue) :=
  match rule, content with
  | .list _, _ => .error (.mistyped "a list is no name of a rule")
  | .object _, _ => .error (.mistyped "an object is no name of a rule")
  | .text r, .text s => .ok (issuesOfRule path s.toList r)
  | .text r, _ =>
    if (ruleBook.lookup r).isSome then .error (.mistyped "rules are for texts") else .ok []
  | _, _ => .ok []

def ruleIssues (path content rules : Value) : Outcome (List Issue) := do
  return (← (← rules.items).mapM (issuesOfRuleValue path content)).flatten

/-! ## Duplicates and priorities

Of several issues with the same title, file, line and category only the first is kept. Issues are
then ordered by severity and confidence, the highest first; equal ones keep their order.
-/

def asKeyPart (v : Value) : Outcome Value :=
  match v with
  | .list _ => .error (.mistyped "a list is no key")
  | .object _ => .error (.mistyped "an object is no key")
  | v => .ok v

def Issue.key (i : Issue) : Outcome (List Value) := do
  (← ["title", "file_path", "line_start", "category"].mapM i.get).mapM asKeyPart

/-- The elements whose key is not among `seen` and differs from the keys before. -/
def firstOfEach {α : Type} (seen : List (List Value)) : List (List Value × α) → List α
  | [] => []
  | (k, a) :: rest =>
    if seen.any (Value.sameList k) then firstOfEach seen rest else a :: firstOfEach (k :: seen) rest

def dedupe (issues : List Issue) : Outcome (List Issue) := do
  let keyed ← issues.mapM fun i => do return (← i.key, i)
  return firstOfEach [] keyed

/-! ## Priorities -/

/-- The rank of a severity; what is no severity ranks as low. -/
def severityRank (v : Value) : Nat :=
  match v.text?.bind Severity.ofName? with
  | some .critical => 4
  | some .high => 3
  | some .medium => 2
  | _ => 1

structure Priority where
  rank : Nat
  confidence : Value

def Issue.priority (i : Issue) : Outcome Priority := do
  let severity ← asKeyPart (← i.get "severity")
  return ⟨severityRank severity, (i.find? "confidence_score").getD (.real 0.5)⟩

/-- Whether `p` comes after `q`. Confidences are compared only if they decide. -/
def Priority.lower (p q : Priority) : Outcome Bool :=
  if p.rank != q.rank then .ok (p.rank < q.rank)
  else if p.confidence.same q.confidence then .ok false
  else p.confidence.less q.confidence

/-- Puts an issue before the first one that is lower. -/
def insertByPriority (x : Priority × Issue) :
    List (Priority × Issue) → Outcome (List (Priority × Issue))
  | [] => .ok [x]
  | y :: ys => do
    if ← y.1.lower x.1 then return x :: y :: ys
    else return y :: (← insertByPriority x ys)

def prioritize (issues : List Issue) : Outcome (List Issue) := do
  let keyed ← issues.mapM fun i => do return (← i.priority, i)
  let sorted ← keyed.foldlM (fun acc x => insertByPriority x acc) []
  return sorted.map (·.2)

/-- What the stages ask. What the reader of programs says about a text that is none is up to it. -/
structure Tools where
  complaint : Chars → Source.Complaint := fun _ => {}
  chat : Option Reply := none
  classifier : Option (List Verdict) := none
  tree : Option SyntaxNode := none

/-! ## Stages -/

def lintIssue (f : Lint.Finding) : Issue :=
  Core.issue
    { title := .text f.title
      description := .text f.description
      category := .text "code_quality"
      severity := f.severity
      ruleId := f.ruleId
      path
      lineStart := .ofNat f.line
      confidence := .real 0.8 }
    [("line_end", .ofNat f.line), ("column_start", .null), ("column_end", .null),
     ("code_snippet", .text ""), ("suggested_fix", .text f.fix)]

def syntaxIssue (c : Source.Complaint) : Issue :=
  Core.issue
    { title := .text "Syntax Error"
      description := .text ("Syntax error in code: " ++ c.message)
      category := .text "syntax"
      severity := .high
      ruleId := "syntax_error"
      path
      lineStart := .ofOption .ofNat c.line
      confidence := .real 1 }
    [("line_end", .ofOption .ofNat c.line), ("column_start", .ofOption .ofNat c.column)]

variable (tools : Tools) (project : Project)

/-- The rules for programs; a syntax tree is looked at only if the program can be read. -/
def programStage (path : Value) (text : Chars) (language : String) : List Issue :=
  if language = "python" then
    match Source.parse? text with
    | some tree =>
      (Lint.findings tree).map (lintIssue path) ++ (tools.tree.map (nestingIssues path 0)).getD []
    | none => [syntaxIssue path (Source.complaint tools.complaint text)]
  else []

def securityIssue (i : Security.Issue) : Issue :=
  Core.issue
    { title := .text i.title
      description := .text i.description
      category := .text "security"
      severity := i.severity
      ruleId := i.ruleId
      path
      lineStart := .ofNat i.line
      confidence := .real i.confidence }
    [("line_end", .null), ("code_snippet", .ofText? i.snippet), ("suggested_fix", .ofText? i.fix)]

def securityStage (path : Path) (pathValue : Value) (text : Chars) (language : String) :
    List Issue :=
  (Security.issues (some path) text (some language)).map (securityIssue pathValue)

def qualityStage (path : Value) (text : Chars) : List Issue :=
  (tools.classifier.map fun answers => qualityIssues path answers text).getD []

def chatStage (path language : Value) (text : Chars) : List Issue × List ChatRequest :=
  match tools.chat with
  | some reply => (reply.issues path, [chatRequest project path language text])
  | none => ([], [])

def ruleStage (path content rules : Value) : Outcome (List Issue) :=
  if rules.truthy then ruleIssues path content rules else .ok []

/-! ## All stages -/

/-- The issues of all stages in the order of the stages, and the requests to the chat client. -/
def stages (path : String) (text : String) (rules : Value) :
    Outcome (List Issue) × List ChatRequest :=
  let p := Path.ofText path
  let cs := text.toList
  let language := languageOf p
  let (chatIssues, asked) := chatStage tools project (.text path) (.text language) cs
  let before :=
    programStage tools (.text path) cs language ++ securityStage p (.text path) cs language ++
    qualityStage tools (.text path) cs ++ chatIssues
  ((ruleStage (.text path) (.text text) rules).map (before ++ ·), asked)

/-- The issues of a file and the requests that were made; none for a file that is not worth it. -/
def analyzeText (path text : String) (rules : Value) : List Issue × List ChatRequest :=
  if isCodeFile (.ofText path) text.toList then
    let (found, asked) := stages tools project path text rules
    (Outcome.getD (do prioritize (← dedupe (← found))) [], asked)
  else ([], [])

def analyze (path content rules : Value) : List Issue × List ChatRequest :=
  match path, content with
  | .text p, .text s => analyzeText tools project p s rules
  | _, _ => ([], [])

def programIssues (path content language : Value) : List Issue :=
  match content, language with
  | .text s, .text l => programStage tools path s.toList l
  | _, _ => []

def qualityIssuesOf (path content : Value) : List Issue :=
  match content with
  | .text s => qualityStage tools path s.toList
  | _ => []

def chatIssues (path language content : Value) : List Issue × List ChatRequest :=
  match content with
  | .text s => chatStage tools project path language s.toList
  | _ => ([], [])

/-! ## Setting up -/

/-- What the tools are made from: a key for the chat client, a parser library, and a model library
with the number of the pipeline that fails (0 for none). -/
structure Parts where
  apiKey : Value
  parser : Bool
  models : Option Int

structure Setup where
  client : Bool
  parsers : List String
  pipelines : Option (Nat × Nat)
  made : List Value

def pipelineMade (kind : String) : Value :=
  .object [("kind", .text kind), ("model", .text "microsoft/codebert-base"), ("device", .int (-1))]

/-- The pipelines that were tried, and whether both work. -/
def pipelinesMade (fails : Int) : List Value × Bool :=
  let first := pipelineMade "text-classification"
  let second := pipelineMade "token-classification"
  if fails = 1 then ([first], false) else ([first, second], fails != 2)

def Setup.ofParts (p : Parts) : Setup :=
  let client := p.apiKey.truthy
  let (tried, work) := (p.models.map pipelinesMade).getD ([], false)
  { client
    parsers := if p.parser then ["py", "python"] else []
    pipelines := if work then some (1, 2) else none
    made := (if client then [.object [("client", .object [("api_key", p.apiKey)])]] else []) ++
      (if p.parser then [.object [("language", .text "python")]] else []) ++ tried }

def Setup.report (s : Setup) : Value :=
  .object [("client", if s.client then .text "client" else .null), ("parsers", .ofTexts s.parsers),
    ("classifier", .ofOption (fun p => .ofNat p.1) s.pipelines),
    ("detector", .ofOption (fun p => .ofNat p.2) s.pipelines), ("made", .list s.made)]

end ReviewDesk.Analysis
