import ReviewDesk.Pattern.Basic
import ReviewDesk.Value.Basic

/-!
# Patches

A diff is cut into parts at the rows that name a file. A part whose header names no file is left
out.
-/

namespace ReviewDesk.Diff

open Text

/-! ## Hunks

A hunk begins with a header `@@ -start,count +start,count @@` and goes on to the next line that
begins with `@@`. Its lines are added, removed or kept; other lines do not belong to it.
-/

abbrev Row := List Char

structure NumberedLine where
  number : Nat
  content : Row
  deriving DecidableEq, Repr

structure Hunk where
  oldStart : Nat
  oldCount : Nat
  newStart : Nat
  newCount : Nat
  /-- What stands in the header after the numbers. -/
  heading : Row
  added : List NumberedLine := []
  removed : List NumberedLine := []
  kept : List NumberedLine := []
  /-- The hunk says that the file does not end with a line feed. -/
  noNewline : Bool := false
  deriving DecidableEq, Repr

/-! ## Headers -/

def mostDigits : Nat := 4300

/-- The number that decimal digits of any script stand for. -/
def digitsNumber (cs : Chars) : Nat := cs.foldl (fun n c => 10 * n + (digit? c).getD 0) 0

def number? (cs : Row) : Option (Nat × Row) :=
  let digits := cs.takeWhile isDecimal
  if digits.isEmpty || mostDigits < digits.length then none
  else some (digitsNumber digits, cs.dropWhile isDecimal)

/-- A start and, after a comma, a count; without a comma the count is one. -/
def range? (cs : Row) : Option (Nat × Nat × Row) :=
  match number? cs with
  | some (start, ',' :: r) =>
    match number? r with
    | some (count, r') => some (start, count, r')
    | none => none
  | some (start, r) => some (start, 1, r)
  | none => none

def after? (p : String) (cs : Row) : Option Row :=
  if startsWith p.toList cs then some (cs.drop p.length) else none

variable (row : Row)

def hunkHeader? : Option Hunk := do
  let r ← after? "@@ -" row
  let (oldStart, oldCount, r) ← range? r
  let r ← after? " +" r
  let (newStart, newCount, r) ← range? r
  let r ← after? " @@" r
  return { oldStart, oldCount, newStart, newCount, heading := trim (r.takeWhile (· != '\n')) }

/-! ## Lines -/

def Hunk.add (h : Hunk) (row : Row) : Hunk :=
  match row with
  | '+' :: r =>
    if startsWith ['+', '+'] r then h
    else { h with added := h.added ++ [⟨h.newStart + h.added.length, r⟩] }
  | '-' :: r =>
    if startsWith ['-', '-'] r then h
    else { h with removed := h.removed ++ [⟨h.oldStart + h.removed.length, r⟩] }
  | ' ' :: r => { h with kept := h.kept ++ [⟨h.oldStart + h.kept.length, r⟩] }
  | '\\' :: _ => { h with noNewline := true }
  | _ => h

def beginsHunk : Bool := startsWith ['@', '@'] row

/-- The hunks of the rows, after the hunk that is open. -/
def hunksFrom : Option Hunk → List Row → List Hunk
  | open_, [] => open_.toList
  | open_, row :: rows =>
    if beginsHunk row then open_.toList ++ hunksFrom (hunkHeader? row) rows
    else hunksFrom (open_.map (·.add row)) rows

def hunks (rows : List Row) : List Hunk := hunksFrom none rows

/-! ## File headers

The first lines of the part of a diff that belongs to one file say which file it is and what
happened to it.
-/

inductive Change where
  | added
  | removed
  | modified
  deriving DecidableEq, Repr

structure FileHeader where
  path : Option Row := none
  oldFile : Option Row := none
  newFile : Option Row := none
  change : Change := .modified
  isBinary : Bool := false
  mode : Option Row := none
  hashes : Option (Row × Row) := none
  deriving DecidableEq, Repr

def cutAt? (p : Chars) : Row → Option (Row × Row)
  | [] => if p.isEmpty then some ([], []) else none
  | c :: r =>
    if startsWith p (c :: r) then some ([], (c :: r).drop p.length)
    else (cutAt? p r).map fun (a, b) => (c :: a, b)

def gitPaths? : Option (Row × Row) := do
  let r ← after? "diff --git a/" row
  cutAt? " b/".toList (r.takeWhile (· != '\n'))

def lastWord : Option Row := (words row).getLast?

def isHexDigit (c : Char) : Bool := ('a' ≤ c && c ≤ 'f') || ('0' ≤ c && c ≤ '9')

def indexHashes? : Option (Row × Row) := do
  let r ← after? "index " row
  let old := r.takeWhile isHexDigit
  let new := (← after? ".." (r.dropWhile isHexDigit)).takeWhile isHexDigit
  if old.isEmpty || new.isEmpty then none else some (old, new)

/-- The path of a row `--- a/path` or `+++ b/path`: all leading slashes and letters `side` are
dropped. The empty file has none. -/
def sidePath? (side : Char) (row : Row) : Option Row :=
  let path := trim (row.drop 4)
  if path = "/dev/null".toList then none else some (path.dropWhile fun c => c = side || c = '/')

def hasPath (path : Option Row) : Bool := (path.map (!·.isEmpty)).getD false

def FileHeader.read (h : FileHeader) (row : Row) : FileHeader :=
  let begins (p : String) : Bool := startsWith p.toList row
  if begins "diff --git" then
    match gitPaths? row with
    | some (old, new) => { h with oldFile := some old, newFile := some new, path := some new }
    | none => h
  else if begins "new file mode" then { h with change := .added, mode := lastWord row }
  else if begins "deleted file mode" then { h with change := .removed, mode := lastWord row }
  else if occurs "Binary files".toList row && occurs "differ".toList row then
    { h with isBinary := true }
  else if begins "index" then
    match indexHashes? row with
    | some hashes => { h with hashes := some hashes }
    | none => h
  else if begins "---" then
    match sidePath? 'a' row with
    | some old => { h with oldFile := some old }
    | none => h
  else if begins "+++" then
    match sidePath? 'b' row with
    | some new =>
      { h with newFile := some new, path := if hasPath h.path then h.path else some new }
    | none => h
  else h

/-- What the first ten rows say; nothing if they name no file. -/
def fileHeader? (rows : List Row) : Option FileHeader :=
  let h := (rows.take 10).foldl FileHeader.read {}
  if hasPath h.path then some h else none

structure FilePatch where
  path : Row
  oldFile : Option Row
  newFile : Option Row
  change : Change
  isBinary : Bool
  mode : Option Row
  hunks : List Hunk
  deriving DecidableEq, Repr

def FilePatch.additions (f : FilePatch) : Nat := Tally.sumOf (·.added.length) f.hunks

def FilePatch.deletions (f : FilePatch) : Nat := Tally.sumOf (·.removed.length) f.hunks

def FilePatch.changes (f : FilePatch) : Nat := f.additions + f.deletions

structure Patch where
  files : List FilePatch
  deriving DecidableEq, Repr

namespace Patch

def empty : Patch := ⟨[]⟩

def additions (p : Patch) : Nat := Tally.sumOf (·.additions) p.files

def deletions (p : Patch) : Nat := Tally.sumOf (·.deletions) p.files

def changes (p : Patch) : Nat := Tally.sumOf (·.changes) p.files

end Patch

/-! ## Cutting at file headers -/

/-- The part of a row before a file header that stands in it, and the header. -/
def headerIn? : Option (Row × Row) :=
  match cutAt? "diff --git a/".toList row with
  | some (before, rest) =>
    if occurs " b/".toList rest then some (before, "diff --git a/".toList ++ rest) else none
  | none => none

/-- The text before the first header, and each header with the text after it. A header is a row that
ends with a line feed. -/
def cutRows : List Row → Row × List (Row × Row)
  | [] => ([], [])
  | [last] => (last, [])
  | row :: rows =>
    let (text, parts) := cutRows rows
    match headerIn? row with
    | some (before, header) => (before, (header ++ ['\n'], text) :: parts)
    | none => (row ++ '\n' :: text, parts)

/-- Puts the headers before the texts, in order; texts that are left stay alone. -/
def joinHeaders : List Row → List Row → List Row
  | h :: hs, t :: ts => (h ++ t) :: joinHeaders hs ts
  | [], ts => ts
  | _, [] => []

/-- The parts of a diff. A text before the first header counts as the first text unless it is blank,
and the headers are then given to the texts in order. -/
def fileParts (text : Chars) : List Row :=
  let (first, parts) := cutRows (rows text)
  let texts := first :: parts.map (·.2)
  let texts := if (trim first).isEmpty then texts.drop 1 else texts
  joinHeaders (parts.map (·.1)) texts

/-! ## Reading -/

def filePatch? (text : Chars) : Option FilePatch :=
  let rows := rows text
  match fileHeader? rows with
  | some h =>
    some ⟨h.path.getD [], h.oldFile, h.newFile, h.change, h.isBinary, h.mode, hunks rows⟩
  | none => none

def parse (text : Chars) : Patch :=
  if (trim text).isEmpty then .empty else ⟨(fileParts text).filterMap filePatch?⟩

/-- The subject line of a mail, or the line that names a commit. -/
def commitMessage? (text : Chars) : Option Row :=
  match (rows text).find? fun r => startsWith "Subject:".toList r ||
    startsWith "commit ".toList r with
  | some row =>
    match cutAt? [':'] row with
    | some (_, rest) => some (trim rest)
    | none => some row
  | none => none

/-!
## Reports on a patch

Figures, risky changes, patterns among the changed lines, and a summary.
-/

/-! ## Functions that a patch touches

A function is found by its definition among the added and removed lines of a hunk.
-/

open Pattern

structure ChangedFunction where
  name : Row
  line : Nat
  definition : Row

def pythonDefinition : Pattern := lit "def" ++ gap ++ capture 1 word ++ blanks ++ char '('

def scriptDefinitions : List Pattern :=
  [lit "function" ++ gap ++ capture 1 word ++ blanks ++ char '(',
    capture 1 word ++ blanks ++ char ':' ++ blanks ++ lit "function" ++ blanks ++ char '(',
    capture 1 word ++ blanks ++ char '=' ++ blanks ++ lit "function" ++ blanks ++ char '(',
    capture 1 word ++ blanks ++ char '=' ++ blanks ++ char '(' ++ without ")" 0 ++ char ')' ++
      blanks ++ lit "=>" ++
      blanks ++ char '\x7b']

def javaDefinition : Pattern :=
  oneOfTexts lit ["public", "private", "protected"] ++ lineLazy ++ gap ++ word ++ blanks ++ char '('

def javaName : Pattern := gap ++ capture 1 word ++ blanks ++ char '('

def definedName? (language : String) (content : Row) : Option Row :=
  match language with
  | "python" =>
    if startsWith "def ".toList content then
      (pythonDefinition.matchStart content).bind (·.group? 1)
    else none
  | "javascript" | "typescript" =>
    (scriptDefinitions.findSome? fun p => p.search content).bind (·.group? 1)
  | "java" =>
    if javaDefinition.occursIn content then (javaName.search content).bind (·.group? 1) else none
  | _ => none

def changedFunctions (f : FilePatch) (language : String) : List ChangedFunction :=
  f.hunks.flatMap fun h => (h.added ++ h.removed).filterMap fun l =>
    let content := trim l.content
    (definedName? language content).map fun name => ⟨name, l.number, content⟩

def rowText (r : Row) : Value := .text (.ofList r)

def rowText? : Option Row → Value
  | some r => rowText r
  | none => .null

/-! ## Figures -/

def extension (path : Row) : Row :=
  if path.contains '.' then (path.reverse.takeWhile (· != '.')).reverse else "no_extension".toList

structure TypeCount where
  extension : Row
  count : Nat
  additions : Nat
  deletions : Nat
  deriving DecidableEq, Repr

def countFile (counts : List TypeCount) (f : FilePatch) : List TypeCount :=
  let e := extension f.path
  if counts.any (·.extension = e) then
    counts.map fun t => if t.extension = e then
      { t with count := t.count + 1, additions := t.additions + f.additions,
               deletions := t.deletions + f.deletions }
    else t
  else counts ++ [⟨e, 1, f.additions, f.deletions⟩]

variable (p : Patch)

def filesByType : List TypeCount := p.files.foldl countFile []

/-- The files with the most changes first; files with as many keep their order. -/
def byChanges : List FilePatch := p.files.mergeSort fun a b => b.changes ≤ a.changes

def largest : List FilePatch := (byChanges p).take 5

/-- Between 0 and 10: how many files and lines a patch touches, each counting up to a half. -/
def complexityScore (files changes : Float) : Float :=
  let least (x : Float) : Float := if (1 : Float) < x then 1 else x
  Decimal.roundPlaces ((least (files / 10) + least (changes / 500)) * 5) 2

/-! ## Risks -/

inductive RiskKind where
  | large (changes : Nat)
  | binary
  /-- The path fits the given pattern. -/
  | critical (pattern : String)
  | newFile
  | deletion
  deriving DecidableEq, Repr

structure Risk where
  path : Row
  kind : RiskKind
  deriving DecidableEq, Repr

/-- Anything in the line around a word. -/
def around (word : String) : Pattern := line ++ letters word ++ line

def criticalPaths : List (String × Pattern) :=
  [(".*config.*", around "config"), (".*\\.env.*", around ".env"),
   (".*security.*", around "security"), (".*auth.*", around "auth"),
   (".*password.*", around "password"), (".*secret.*", around "secret"), (".*key.*", around "key"),
   ("requirements\\.txt", letters "requirements.txt"), ("package\\.json", letters "package.json"),
   ("Dockerfile", letters "dockerfile"), (".*\\.sql", line ++ letters ".sql")]

def criticalPath? (path : Row) : Option String :=
  (criticalPaths.find? fun (_, p) => (p.matchStart path).isSome).map (·.1)

def risksOf (f : FilePatch) : List Risk :=
  (if 100 < f.changes then [⟨f.path, .large f.changes⟩] else []) ++
    (if f.isBinary then [⟨f.path, .binary⟩] else []) ++
    (match criticalPath? f.path with
      | some p => [⟨f.path, .critical p⟩]
      | none => []) ++
    (match f.change with
      | .added => [⟨f.path, .newFile⟩]
      | .removed => [⟨f.path, .deletion⟩]
      | .modified => [])

def risks : List Risk := p.files.flatMap risksOf

/-- How a risk is reported; `changes` is the number of changes as it is shown. -/
def riskFields (path : String) (kind : RiskKind) : Fields :=
  let row (type severity description : String) : Fields :=
    [("type", .text type), ("severity", .text severity), ("file_path", .text path),
     ("description", .text description)]
  match kind with
  | .large n =>
    row "large_change" "medium" s!"Large change ({n} lines) in {path}" ++ [("changes", .ofNat n)]
  | .binary => row "binary_change" "low" s!"Binary file change in {path}"
  | .critical pattern =>
    row "critical_file" "high" s!"Change in critical file: {path}" ++ [("pattern", .text pattern)]
  | .newFile => row "new_file" "low" s!"New file added: {path}"
  | .deletion => row "file_deletion" "medium" s!"File deleted: {path}"

/-! ## Patterns among the changed lines -/

structure LinePatterns where
  imports : Nat := 0
  functionAdditions : Nat := 0
  functionDeletions : Nat := 0
  comments : Nat := 0
  tests : Nat := 0
  documentation : Nat := 0
  deriving DecidableEq, Repr

inductive LineKind where
  | import
  | definition
  | comment
  | other
  deriving DecidableEq, Repr

def lineKind (content : Row) : LineKind :=
  let begins (ps : List String) : Bool := ps.any fun p => startsWith p.toList content
  if begins ["import ", "from ", "#include", "require("] then .import
  else if begins ["def ", "function ", "class "] then .definition
  else if begins ["#", "//", "/*", "*"] then .comment
  else .other

def isTestPath (path : Row) : Bool := occurs "test".toList (lower path)

def isDocumentPath (path : Row) : Bool :=
  let low := lower path
  [".md", ".rst", ".txt", "readme", "doc"].any fun w => occurs w.toList low

/-- Counts a line; a definition that also stands among the added lines counts as added. -/
def LinePatterns.count (p : LinePatterns) (h : Hunk) (l : NumberedLine) : LinePatterns :=
  match lineKind (trim l.content) with
  | .import => { p with imports := p.imports + 1 }
  | .definition =>
    if h.added.contains l then { p with functionAdditions := p.functionAdditions + 1 }
    else { p with functionDeletions := p.functionDeletions + 1 }
  | .comment => { p with comments := p.comments + 1 }
  | .other => p

def LinePatterns.countHunk (p : LinePatterns) (h : Hunk) : LinePatterns :=
  (h.added ++ h.removed).foldl (fun q l => q.count h l) p

def LinePatterns.countFile (p : LinePatterns) (f : FilePatch) : LinePatterns :=
  let p := if isTestPath f.path then { p with tests := p.tests + f.changes } else p
  let p :=
    if isDocumentPath f.path then { p with documentation := p.documentation + f.changes } else p
  f.hunks.foldl LinePatterns.countHunk p

def linePatterns : LinePatterns := p.files.foldl LinePatterns.countFile {}

/-! ## Summary -/

def summaryText (files additions deletions : String) (named : List (String × String)) : String :=
  "\n".intercalate ([s!"Changed {files} file(s)", s!"{additions} additions",
    s!"{deletions} deletions",
    "Most changed files:"] ++ named.map fun (path, changes) => s!"  - {path}: {changes} changes")

def noChanges : String := "No changes detected."

def summary : String :=
  if p.files.isEmpty then noChanges
  else summaryText (toString p.files.length) (toString p.additions) (toString p.deletions)
    (((byChanges p).take 3).map fun f => (.ofList f.path, toString f.changes))

/-! ## As values -/

def NumberedLine.report (l : NumberedLine) : Value :=
  .object [("line_number", .ofNat l.number), ("content", rowText l.content)]

def Hunk.report (h : Hunk) : Value :=
  let rows (ls : List NumberedLine) : Value := .list (ls.map (·.report))
  .object [("old_start", .ofNat h.oldStart), ("old_count", .ofNat h.oldCount),
           ("new_start", .ofNat h.newStart), ("new_count", .ofNat h.newCount),
           ("context", rowText h.heading), ("added_lines", rows h.added),
           ("removed_lines", rows h.removed), ("context_lines", rows h.kept),
           ("no_newline", .bool h.noNewline)]

def Change.word : Change → String
  | .added => "added"
  | .removed => "removed"
  | .modified => "modified"

def FileHeader.report (h : FileHeader) : Value :=
  .object ([("file_path", rowText? h.path), ("old_file", rowText? h.oldFile),
            ("new_file", rowText? h.newFile), ("change_type", .text h.change.word),
            ("is_binary", .bool h.isBinary), ("mode_change", rowText? h.mode)] ++
    match h.hashes with
    | some (old, new) => [("old_hash", rowText old), ("new_hash", rowText new)]
    | none => [])

def FilePatch.report (f : FilePatch) : Value :=
  .object [("file_path", rowText f.path), ("old_file", rowText? f.oldFile),
           ("new_file", rowText? f.newFile), ("change_type", .text f.change.word),
           ("is_binary", .bool f.isBinary), ("hunks", .list (f.hunks.map (·.report))),
           ("additions", .ofNat f.additions), ("deletions", .ofNat f.deletions),
           ("changes", .ofNat f.changes), ("file_mode_change", rowText? f.mode)]

def Patch.report : Value :=
  .object [("files", .list (p.files.map (·.report))), ("total_files", .ofNat p.files.length),
    ("total_additions", .ofNat p.additions), ("total_deletions", .ofNat p.deletions),
    ("total_changes", .ofNat p.changes)]

def ChangedFunction.report (f : ChangedFunction) (language : String) : Value :=
  .object [("name", rowText f.name), ("line_number", .ofNat f.line),
           ("definition", rowText f.definition), ("language", .text language)]

def TypeCount.report (t : TypeCount) : String × Value :=
  (.ofList t.extension,
    .object [("count", .ofNat t.count), ("additions", .ofNat t.additions),
             ("deletions", .ofNat t.deletions)])

def metricsReport : Value :=
  .object [("total_files_changed", .ofNat p.files.length),
           ("total_lines_changed", .ofNat p.changes),
    ("additions", .ofNat p.additions), ("deletions", .ofNat p.deletions),
    ("files_by_type", .object ((filesByType p).map (·.report))),
    ("largest_file_changes", .list ((largest p).map fun f => .object [("file_path", rowText f.path),
      ("changes", .ofNat f.changes), ("additions", .ofNat f.additions),
      ("deletions", .ofNat f.deletions)])),
    ("complexity_score", .real (complexityScore p.files.length.toFloat p.changes.toFloat))]

def LinePatterns.report (p : LinePatterns) : Value :=
  .object [("import_changes", .ofNat p.imports), ("function_additions", .ofNat p.functionAdditions),
    ("function_deletions", .ofNat p.functionDeletions), ("comment_changes", .ofNat p.comments),
    ("test_changes", .ofNat p.tests), ("documentation_changes", .ofNat p.documentation)]

def reports : Value :=
  .object [("metrics", metricsReport p),
    ("risky", .list ((risks p).map fun r => .object (riskFields (.ofList r.path) r.kind))),
    ("patterns", (linePatterns p).report), ("summary", .text (summary p))]

/-! ## Patches that can be any values -/

/-- The patch of a text; anything else is an empty one. -/
def Patch.ofValue (v : Value) : Patch := (v.text?.map fun s => parse s.toList).getD .empty

/-- The rows of a list, if all that are looked at are texts. -/
def rowsOf? (v : Value) (most : Option Nat) : Option (List Row) :=
  v.list?.bind fun vs => ((most.map vs.take).getD vs).mapM fun x => x.text?.map (·.toList)

def headerOf (rows : Value) : Value :=
  .ofOption (·.report) ((rowsOf? rows (some 10)).bind fileHeader?)

def hunksOf (rows : Value) : Value :=
  .list (((rowsOf? rows none).map fun rs => (hunks rs).map (·.report)).getD [])

def hunkHeaderOf (row : Value) : Value :=
  .ofOption (·.report) (row.text?.bind fun s => hunkHeader? s.toList)

def functionsOf (text language : Value) : Value :=
  match text.text?.bind fun s => filePatch? s.toList, language with
  | some f, .text l => .list ((changedFunctions f l).map (·.report l))
  | _, _ => .list []

def messageOf (text : Value) : Value := rowText? (text.text?.bind fun s => commitMessage? s.toList)

end ReviewDesk.Diff
