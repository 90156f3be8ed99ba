import ReviewDesk.Value.Basic

/-!
# Files

The files and empty folders below a root, each by the names on the way to it. A folder exists if it
was made or if something lies in it.
-/

namespace ReviewDesk

/-!
## Paths

A path is a root (empty for a relative path) and the names below it. Empty names and single dots
vanish; two dots stay.
-/

structure Path where
  root : String
  names : List String
  deriving DecidableEq, Repr, Inhabited

namespace Path

/-- Exactly two leading slashes are a root of their own. -/
def rootOf (s : String) : String :=
  let slashes := (s.toList.takeWhile (· = '/')).length
  if slashes = 0 then "" else if slashes = 2 then "//" else "/"

def ofText (s : String) : Path :=
  ⟨rootOf s, (Text.splitText s "/").filter fun p => p != "" && p != "."⟩

def name (p : Path) : String := p.names.getLast?.getD ""

def parts (p : Path) : List String := if p.root = "" then p.names else p.root :: p.names

/-- The last dot of a name and what follows it, if something does and something stands before. -/
def suffixOf (name : String) : String :=
  let cs := name.toList
  let tail := (cs.reverse.takeWhile (· != '.')).reverse
  let stem := cs.length - tail.length - 1
  if tail.isEmpty || tail.length = cs.length || stem = 0 then "" else .ofList ('.' :: tail)

def suffix (p : Path) : String := suffixOf p.name

def text (p : Path) : String :=
  let body := "/".intercalate p.names
  if p.root = "" && p.names.isEmpty then "." else p.root ++ body

/-- The path `q` below `p`; a path with a root of its own stays as it is. -/
def join (p q : Path) : Path := if q.root = "" then ⟨p.root, p.names ++ q.names⟩ else q

/-- Where one name leads from a folder; two dots lead one folder up. -/
def follow (here : List String) (n : String) : List String :=
  if n = ".." then here.dropLast else here ++ [n]

/-- The names from the top to where a path leads, without two dots. -/
def normal (p : Path) : List String := p.names.foldl follow []

end Path

/-! ## Files -/

inductive Entry where
  | file (bytes : List UInt8)
  | folder

structure Tree where
  entries : List (List String × Entry)

namespace Tree

def empty : Tree := ⟨[]⟩

variable (t : Tree)

def file? (names : List String) : Option (List UInt8) :=
  match t.entries.lookup names with
  | some (.file bytes) => some bytes
  | _ => none

def isFolder (names : List String) : Bool :=
  names.isEmpty || t.entries.any fun (n, e) =>
    (names.isPrefixOf n && names.length < n.length) || (n == names && match e with
      | .folder => true
      | .file _ => false)

/-- Where a way from a folder leads, if all folders on it exist. -/
def walk (t : Tree) (here : List String) : List String → Option (List String)
  | [] => some here
  | n :: rest => if t.isFolder here then walk t (Path.follow here n) rest else none

def read? (p : Path) : Option (List UInt8) := (t.walk [] p.names).bind t.file?

def filesBelow (root : List String) : List (List String) :=
  t.entries.filterMap fun (n, e) =>
    match e with
    | .file _ =>
      if root.isPrefixOf n && root.length < n.length then some (n.drop root.length) else none
    | .folder => none

/-- The files below the folder that a path leads to. -/
def filesUnder (p : Path) : List (List String) := (t.walk [] p.names).elim [] t.filesBelow

def remove (root : List String) : Tree :=
  ⟨t.entries.filter fun e => !root.isPrefixOf e.1⟩

end Tree

namespace Files

/-! ## Reading a file -/

def mostBytes : Nat := 1024 * 1024

/-- All line ends become line feeds. -/
def feedsOnly (acc : Chars) : Chars → Chars
  | [] => acc.reverse
  | '\r' :: '\n' :: rest => feedsOnly ('\n' :: acc) rest
  | '\r' :: rest => feedsOnly ('\n' :: acc) rest
  | c :: rest => feedsOnly (c :: acc) rest

def textOf (bytes : List UInt8) : Chars := feedsOnly [] (Text.ofUtf8Loose bytes)

/-- The text of a file below a folder; empty if there is no such file or it is too large. -/
def read (t : Tree) (root path : Path) : Chars :=
  match t.read? (root.join path) with
  | some bytes => if mostBytes < bytes.length then [] else textOf bytes
  | none => []

/-! ## Listing files -/

/-- A list that is looked into: of any values, or a text that is looked into for parts. -/
inductive Choice where
  | among (values : List Value)
  | within (text : String)

def Choice.has (c : Choice) (s : String) : Bool :=
  match c with
  | among vs => vs.any (·.same (.text s))
  | within t => Text.contains t s

def Choice.texts : Choice → List String
  | among vs => vs.filterMap Value.text?
  | within t => t.toList.map fun c => .ofList [c]

def Choice.isEmpty : Choice → Bool
  | among vs => vs.isEmpty
  | within t => t.isEmpty

/-- The choice that a value stands for, if it can be looked into. -/
def Choice.of? : Value → Option Choice
  | .list vs => some (among vs)
  | .object fs => some (among (fs.map fun f => .text f.1))
  | .text s => some (within s)
  | _ => none

def usualSuffixes : Choice :=
  .among ([".py", ".js", ".ts", ".jsx", ".tsx", ".java", ".cpp", ".c", ".cs", ".php", ".rb", ".go",
           ".rs"].map .text)

def usualExclusions : Choice :=
  .among ([".git", "node_modules", "__pycache__", ".pytest_cache", "venv", ".venv"].map .text)

/-- A file is listed if no part of its whole path is excluded and its suffix is chosen. An empty
choice of suffixes admits all. -/
def listed (suffixes excluded : Choice) (p : Path) : Bool :=
  !excluded.texts.any p.parts.contains && (suffixes.isEmpty || suffixes.has (Text.lowered p.suffix))

def list (t : Tree) (root : Path) (suffixes excluded : Choice) : List Path :=
  (t.filesUnder root).filterMap fun names =>
    if listed suffixes excluded ⟨root.root, root.names ++ names⟩ then some ⟨"", names⟩ else none

/-- The same for choices that can be any values: null stands for the usual one, and nothing is
listed by a value that cannot be looked into. -/
def listBy (t : Tree) (root : Path) (suffixes excluded : Value) : List Path :=
  let chosen := if suffixes.isNull then some usualSuffixes
    else if suffixes.truthy then Choice.of? suffixes else some (.among [])
  let left := if excluded.isNull then some usualExclusions else Choice.of? excluded
  match chosen, left with
  | some a, some b => list t root a b
  | _, _ => []

end Files

end ReviewDesk
