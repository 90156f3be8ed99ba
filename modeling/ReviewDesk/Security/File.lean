import ReviewDesk.Files.Tree
import ReviewDesk.Pattern.Basic
import ReviewDesk.Severity
import ReviewDesk.Source.Stmt

/-!
# Security issues of a file

Besides the rules of its language, a file is looked at by what its path says it is: configuration,
tests, or a list of dependencies.
-/

namespace ReviewDesk.Security

/-!
## Security rules for the text of a file

For Python, JavaScript and Java there are rules whose patterns are looked for in the whole text. A
match is reported with its line and the lines around it.
-/

structure Issue where
  title : String
  description : String
  severity : Severity
  ruleId : String
  line : Nat
  snippet : Option String
  context : Option String
  /-- The number of the weakness in the common list. -/
  weakness : Option String
  confidence : Float
  fix : Option String

/-- Fields that do not apply are left out, but a rule without a fix says so. -/
def Issue.report (i : Issue) : Value :=
  let optional (key : String) : Option String → Fields
    | some s => [(key, .text s)]
    | none => []
  .object ([("title", .text i.title), ("description", .text i.description),
            ("severity", .text i.severity.name), ("rule_id", .text i.ruleId),
            ("line_number", .ofNat i.line), ("confidence", .real i.confidence),
            ("suggested_fix", .ofText? i.fix)] ++
    optional "code_snippet" i.snippet ++ optional "context" i.context ++ optional "cwe" i.weakness)

def fixes : List (String × String) :=
  [("hardcoded_password", "Use environment variables or secure configuration management"),
    ("sql_injection", "Use parameterized queries or prepared statements"),
    ("command_injection", "Validate and sanitize all inputs, avoid shell=True"),
    ("weak_crypto", "Use SHA-256 or stronger cryptographic hash functions"),
    ("insecure_random", "Use secrets module for cryptographically secure random values"),
    ("eval_usage", "Avoid eval(), use safer alternatives like ast.literal_eval"),
    ("pickle_usage", "Use JSON or other safe serialization formats"),
    ("debug_mode", "Disable debug mode in production environments"),
    ("innerHTML_xss", "Sanitize user input or use textContent instead of innerHTML"),
    ("document_write", "Use DOM manipulation methods instead of document.write"),
    ("assert_in_production", "Use proper error handling instead of assert statements"),
    ("except_pass", "Log errors or handle them appropriately, avoid silent failures"),
    ("shell_true", "Use shell=False and validate inputs, or use safer alternatives")]

def fix? (ruleId : String) : Option String := fixes.lookup ruleId

open Pattern

structure Rule where
  id : String
  pattern : Pattern
  severity : Severity
  title : String
  description : String
  weakness : String

def quotedRun (least : Nat) : Pattern := quoteMark ++ without "\"'" least ++ quoteMark

def pythonRules : List Rule :=
  [⟨"hardcoded_password", letters "password" ++ blanks ++ char '=' ++ blanks ++ quotedRun 8,
    .critical,
      "Hardcoded Password", "Hardcoded password found in source code", "CWE-798"⟩,
    ⟨"sql_injection", letters ".execute" ++ blanks ++ char '(' ++ blanks ++ quoteMark ++ line ++
      char '%' ++ line ++
      quoteMark ++ line ++ char '%', .high, "Potential SQL Injection",
      "String formatting in SQL query may lead to injection", "CWE-89"⟩,
    ⟨"command_injection", either (oneOfTexts letters ["subprocess", "os.system", "os.popen"] ++
      blanks ++ char '(' ++
      without ")" 0 ++ char '+') (char '%'), .high, "Command Injection Risk",
      "Dynamic command construction may allow injection", "CWE-78"⟩,
    ⟨"weak_crypto", letters "hashlib." ++ oneOfTexts letters ["md5", "sha1"] ++ char '(', .medium,
      "Weak Cryptographic Hash", "MD5/SHA1 are cryptographically weak", "CWE-327"⟩,
    ⟨"insecure_random", letters "random." ++ oneOfTexts letters ["random", "randint", "choice"],
      .medium,
      "Insecure Random Generator", "Use secrets module for security-sensitive random values",
      "CWE-330"⟩,
    ⟨"eval_usage", wordEdge ++ letters "eval" ++ blanks ++ char '(', .high,
      "Dangerous eval() Usage",
      "eval() can execute arbitrary code", "CWE-94"⟩,
    ⟨"pickle_usage", letters "pickle.load" ++ optional (letters "s") ++ blanks ++ char '(', .high,
      "Unsafe Deserialization", "pickle.load can execute arbitrary code", "CWE-502"⟩,
    ⟨"debug_mode", letters "debug" ++ blanks ++ char '=' ++ blanks ++ letters "true", .medium,
      "Debug Mode Enabled",
      "Debug mode should not be enabled in production", "CWE-489"⟩]

def scriptRules : List Rule :=
  [⟨"eval_usage", wordEdge ++ letters "eval" ++ blanks ++ char '(', .high, "Dangerous eval() Usage",
      "eval() can execute arbitrary code", "CWE-94"⟩,
    ⟨"innerHTML_xss", letters ".innerhtml" ++ blanks ++ char '=' ++ line ++ char '+', .high,
      "Potential XSS via innerHTML", "Dynamic content in innerHTML may allow XSS", "CWE-79"⟩,
    ⟨"document_write", letters "document.write" ++ blanks ++ char '(', .medium,
      "document.write Usage",
      "document.write can be exploited for XSS", "CWE-79"⟩,
    ⟨"insecure_random", letters "math.random" ++ blanks ++ char '(', .medium,
      "Insecure Random Generator",
      "Math.random is not cryptographically secure", "CWE-330"⟩]

def javaRules : List Rule :=
  [⟨"sql_injection", letters "statement" ++ line ++ letters "executequery" ++ blanks ++ char '(' ++
    without "?" 0 ++
      char '+', .high, "SQL Injection Vulnerability", "String concatenation in SQL query",
      "CWE-89"⟩,
    ⟨"path_traversal", letters "new" ++ gap ++ letters "file" ++ blanks ++ char '(' ++
      without ")" 0 ++ char '+', .high,
      "Path Traversal Risk", "Dynamic file path construction", "CWE-22"⟩,
    ⟨"weak_crypto", either (letters "messagedigest.getinstance" ++ blanks ++ char '(' ++ blanks ++
      quoteMark ++
      letters "md5") (letters "sha1" ++ quoteMark), .medium, "Weak Cryptographic Hash",
      "MD5/SHA1 are cryptographically weak", "CWE-327"⟩]

def rulesFor (language : String) : List Rule :=
  match language with
  | "python" => pythonRules
  | "javascript" => scriptRules
  | "java" => javaRules
  | _ => []

variable (text : Chars)

/-- The row `line` with the one before and the one after it. -/
def around (rows : List Chars) (line : Nat) : Chars :=
  ['\n'].intercalate ((rows.take (line + 1)).drop (line - 2))

def Rule.issue (r : Rule) (text : Chars) (rows : List Chars) (m : Match) : Issue :=
  let line := Text.lineAt text m.start
  { title := r.title
    description := r.description
    severity := r.severity
    ruleId := r.id
    line
    snippet := some (.ofList m.text)
    context := some (.ofList (around rows line))
    weakness := some r.weakness
    confidence := 0.8
    fix := fix? r.id }

def Rule.issues (r : Rule) (text : Chars) : List Issue :=
  (r.pattern.all text).map (r.issue text (Text.rows text))

def patternIssues (language : String) (text : Chars) : List Issue :=
  (rulesFor language).flatMap (·.issues text)

/-! ## Security rules for Python programs -/

open Source

/-- The row of a number counted from 1, without blanks around it; zero stands for the last row. -/
def rowText (line : Int) : String :=
  let rows := Text.rows text
  let i := line - 1
  let at_ := if i < 0 then i + rows.length else i
  if (rows.length : Int) < line || at_ < 0 then ""
  else .ofList (Text.trim (rows.getD at_.toNat []))

def turnsShellOn (k : Node) : Bool :=
  match k.label, (k.part? .value).map Node.label with
  | .keyword (some "shell"), some (.constant (.bool true)) => true
  | _, _ => false

def startsProcess (n : Node) : Bool :=
  match (n.part? .func).map Node.label with
  | some (.attribute id) => ["call", "run", "Popen"].contains id
  | _ => false

def isPass (n : Node) : Bool :=
  match n.label with
  | .pass => true
  | _ => false

def nodeIssue (n : Node) (id : String) (severity : Severity) (title description : String) : Issue :=
  { title, description, severity
    ruleId := id
    line := n.line
    snippet := some (rowText text n.line)
    context := none
    weakness := none
    confidence := 0.9
    fix := fix? id }

def nodeIssues (n : Node) : List Issue :=
  match n.label with
  | .assert =>
    [nodeIssue text n "assert_in_production" .low "Assert Statement in Production Code"
      "Assert statements are ignored when optimization is enabled"]
  | .exceptHandler _ =>
    match n.parts .body with
    | [s] =>
      if isPass s then
        [nodeIssue text n "except_pass" .medium "Empty Exception Handler"
          "Empty except blocks can hide errors"]
      else []
    | _ => []
  | .call =>
    if startsProcess n && (n.parts .keyword).any turnsShellOn then
      [nodeIssue text n "shell_true" .high "Subprocess with shell=True"
        "shell=True can lead to command injection"]
    else []
  | _ => []

def programIssues : List Issue :=
  match parse? text with
  | some tree => tree.walk.flatMap (nodeIssues text)
  | none => []

def programIssuesOf (content : Value) : List Issue :=
  match content with
  | .text s => programIssues s.toList
  | _ => []

def rowOf (content line : Value) : String :=
  match content, line with
  | .text s, .int n => rowText s.toList n
  | .text s, .bool b => rowText s.toList (if b then 1 else 0)
  | _, _ => ""

open Pattern

def isConfigFile (p : Path) : Bool :=
  [".ini", ".conf", ".config", ".cfg", ".toml", ".yaml", ".yml", ".json"].contains
    (Text.lowered p.suffix) ||
    ["config", "settings", ".env", "environment"].contains (Text.lowered p.name) ||
      Text.begins p.name ".env"

def isTestFile (p : Path) : Bool :=
  Text.contains (Text.lowered p.name) "test" || p.parts.contains "test"

def isDependencyFile (p : Path) : Bool :=
  ["requirements.txt", "requirements-dev.txt", "setup.py", "pyproject.toml", "Pipfile",
   "package.json", "package-lock.json", "yarn.lock", "Gemfile", "Gemfile.lock", "composer.json",
   "composer.lock"].contains p.name

/-! ## Configuration -/

def assigned (least : Nat) : Pattern := blanks ++ one (among "=:") ++ blanks ++ quotedRun least

def secretPatterns : List (Pattern × String) :=
  [(letters "password" ++ assigned 4, "Password in config file"),
    (letters "api" ++ optional (one (among "_-")) ++ letters "key" ++ assigned 10,
      "API key in config file"),
    (letters "secret" ++ optional (one (among "_-")) ++ letters "key" ++ assigned 10,
      "Secret key in config file"),
    (letters "token" ++ assigned 10, "Token in config file")]

def configIssues : List Issue :=
  secretPatterns.flatMap fun (p, title) => (p.all text).map fun m =>
    { title
      description := "Sensitive information should not be stored in config files"
      severity := .high
      ruleId := "config_secrets"
      line := Text.lineAt text m.start
      snippet := some (.ofList m.text)
      context := none
      weakness := none
      confidence := 0.9
      fix := some "Use environment variables or secure configuration management" }

/-! ## Tests -/

def credential : Pattern := letters "password" ++ line ++ char '=' ++ line ++ quotedRun 8

def testIssues : List Issue :=
  if credential.occursIn text then
    [{ title := "Hardcoded Credentials in Tests"
       description := "Test files should not contain real credentials"
       severity := .medium
       ruleId := "test_credentials"
       line := 1
       snippet := none
       context := none
       weakness := none
       confidence := 0.7
       fix := some "Use mock credentials or environment variables for testing" }]
  else []

/-! ## Dependencies -/

def vulnerable : List (String × List String) :=
  [("requests", ["2.25.0", "2.25.1"]), ("flask", ["1.0.0", "1.0.1"]),
   ("django", ["2.2.0", "2.2.1"])]

/-- A package, comparison signs and one of the versions. -/
def requirement (package : String) (versions : List String) : Pattern :=
  lit package ++ blanks ++ run (among "=><~!") 1 true ++ blanks ++ oneOfTexts lit versions

def dependencyIssues : List Issue :=
  vulnerable.flatMap fun (package, versions) =>
    if (requirement package versions).occursIn text then
      [{ title := s!"Vulnerable Dependency: {package}"
         description := s!"Package {package} has known security vulnerabilities"
         severity := .high
         ruleId := "vulnerable_dependency"
         line := 1
         snippet := none
         context := none
         weakness := none
         confidence := 0.8
         fix := some s!"Update {package} to a secure version" }]
    else []

/-! ## All of it -/

def pathIssues (path : Path) (text : Chars) : List Issue :=
  (if isConfigFile path then configIssues text else []) ++
    (if isTestFile path then testIssues text else []) ++
    (if isDependencyFile path then dependencyIssues text else [])

def issues (path : Option Path) (text : Chars) (language : Option String) : List Issue :=
  let language := language.getD ""
  patternIssues language text ++ (if language = "python" then programIssues text else []) ++
    (path.map fun p => pathIssues p text).getD []

def issuesOf (path content language : Value) : List Issue :=
  match content, language with
  | _, .list _ | _, .object _ => []
  | .text s, _ => issues (path.text?.map Path.ofText) s.toList language.text?
  | _, _ => []

def kindsOf (path : Value) : List (String × Outcome Bool) :=
  let kind (f : Path → Bool) : Outcome Bool :=
    match path with
    | .text s => .ok (f (.ofText s))
    | _ => .error (.mistyped "a path must be a text")
  [("config", kind isConfigFile), ("test", kind isTestFile), ("dependency", kind isDependencyFile)]

end ReviewDesk.Security
