import ReviewDesk.Files.Tree
import ReviewDesk.Time.Moment

/-!
# Repositories and their history
-/

namespace ReviewDesk.Git

def isFolderChar (c : Char) : Bool := c.isAlphanum || c = '_' || c = '-'

/-- The name of the repository at an address: its last part, without the usual ending. -/
def repositoryName (url : String) : String :=
  let cs := url.toList
  let body := if Text.ends url ".git" then cs.take (cs.length - 4) else cs
  let last := (body.reverse.takeWhile (· != '/')).reverse
  .ofList (last.map fun c => if isFolderChar c then c else '_')

def unknownName : String := "unknown_repo"

/-! ## Suffixes -/

def languages : List (String × String) :=
  [(".py", "Python"), (".js", "JavaScript"), (".ts", "TypeScript"), (".jsx", "JavaScript"),
   (".tsx", "TypeScript"), (".java", "Java"), (".cpp", "C++"), (".c", "C"), (".cs", "C#"),
   (".php", "PHP"), (".rb", "Ruby"), (".go", "Go"), (".rs", "Rust"), (".kt", "Kotlin"),
   (".swift", "Swift"), (".dart", "Dart"), (".scala", "Scala"), (".clj", "Clojure"),
   (".hs", "Haskell"), (".ml", "OCaml"), (".elm", "Elm"), (".ex", "Elixir"), (".erl", "Erlang"),
   (".lua", "Lua"), (".pl", "Perl"), (".r", "R"), (".jl", "Julia"), (".nim", "Nim")]

def languageOf? (suffix : String) : Option String := languages.lookup (Text.lowered suffix)

/-- Suffixes of files whose lines are counted, besides those of the languages. -/
def otherCodeSuffixes : List String :=
  [".sh", ".bash", ".zsh", ".fish", ".ps1", ".bat", ".sql", ".html", ".css", ".scss", ".sass",
   ".less", ".xml", ".json", ".yaml", ".yml", ".toml", ".ini", ".conf"]

def isCodeSuffix (suffix : String) : Bool :=
  let s := Text.lowered suffix
  (languages.lookup s).isSome || otherCodeSuffixes.contains s

/-! ## Patches -/

/-- The numbers of added and deleted lines of a patch; lines that name files do not count. -/
def changedLines (patch : Chars) : Nat × Nat :=
  let rows := Text.rows patch
  let count (c : Char) : Nat :=
    rows.countP fun r => r.head? = some c && !Text.startsWith [c, c, c] r
  (count '+', count '-')

inductive ChangeType where
  | added
  | deleted
  | renamed
  | modified
  deriving DecidableEq, Repr

def ChangeType.name : ChangeType → String
  | added => "added"
  | deleted => "deleted"
  | renamed => "renamed"
  | modified => "modified"

def changeType (new deleted renamed : Bool) : ChangeType :=
  if new then .added else if deleted then .deleted else if renamed then .renamed else .modified

/-- The same for the fields of a record, which are looked at only as far as needed. -/
def changeTypeOf (fields : Fields) : Outcome ChangeType := do
  let flag (key : String) : Outcome Bool :=
    match Fields.get? fields key with
    | some v => .ok v.truthy
    | none => .error (.noAttribute s!"no attribute '{key}'")
  if ← flag "new_file" then return .added
  if ← flag "deleted_file" then return .deleted
  if ← flag "renamed_file" then return .renamed
  return .modified

/-! ## Settings of the command -/

def configuration : List (String × String) :=
  [("user.name", "AI Code Review Bot"), ("user.email", "bot@ai-code-review.local"),
   ("init.defaultBranch", "main"), ("core.autocrlf", "false"), ("core.filemode", "false")]

/-- The commands that set the configuration, up to the first that cannot even be started. -/
def configurationCommands (crashes : String → Bool) : List (List String) :=
  let (before, after) := configuration.span fun c => !crashes c.1
  (before ++ after.take 1).map fun (key, value) => ["git", "config", "--global", key, value]

def workspaceFolder : String := "ai_code_review_repos"

/-!
## Repositories on disk

A workspace holds a folder for each repository that was fetched. To prepare a repository means to
clone it, or to bring its folder up to date, and then to go to a commit.
-/

inductive Command where
  | clone (url branch : Value) (depth : Option Value)
  | fetch
  | checkout (branch : String)
  | createHead (branch source : String)
  | track (branch source : String)
  | pull
  | checkoutCommit (sha : Value)

def Command.report : Command → Value
  | clone url branch depth =>
    .list [.text "clone",
           .object ([("url", url), ("branch", branch), ("single_branch", .bool true)] ++
      (depth.map fun d => [("depth", d)]).getD [])]
  | fetch => .list [.text "fetch"]
  | checkout branch => .ofTexts ["checkout", branch]
  | createHead branch source => .ofTexts ["create_head", branch, source]
  | track branch source => .ofTexts ["track", branch, source]
  | pull => .list [.text "pull"]
  | checkoutCommit sha => .list [.text "checkout_commit", sha]

/-- How the repositories behave that commands are given to. -/
structure Remote where
  /-- A folder that exists can be opened as a repository. -/
  opens : Bool := true
  hasOrigin : Bool := true
  heads : List String := []
  refs : List String := []
  cloneFails : Bool := false
  pullFails : Bool := false
  badCommits : List String := []
  /-- A clone has a folder of its own data. -/
  complete : Bool := true

/-- The folders of a workspace, each with the address that was cloned into it. -/
abbrev Workspace := List (String × String)

def Workspace.has (w : Workspace) (folder : String) : Bool := (w.lookup folder).isSome

def Workspace.remove (w : Workspace) (folder : String) : Workspace := w.filter (·.1 != folder)

structure Request where
  url : Value
  branch : Value := .text "main"
  commit : Value := .null
  depth : Value := .null
  fresh : Bool := false

/-- The folder of a repository: its name, and a number that depends on the whole address. -/
def folderOf (number : Value → Nat) (url : Value) : String :=
  let name := (url.text?.map repositoryName).getD unknownName
  let n := number url % 10000
  s!"{name}_{n}"

/-- The commands so far and whether they all worked. -/
abbrev Run := List Command × Outcome Unit

def Run.andThen (r : Run) (next : Run) : Run :=
  match r with
  | (cs, .ok _) => (cs ++ next.1, next.2)
  | (cs, .error f) => (cs, .error f)

def notARepository : Fault := .notARepository "not a repository"

def clone (remote : Remote) (r : Request) : Run :=
  ([.clone r.url r.branch (if r.depth.truthy then some r.depth else none)],
    if remote.cloneFails then .error (.gitCommand "clone failed")
    else if !remote.complete then
      .error (.notARepository s!"Failed to clone repository: {r.url.plain}")
    else .ok ())

/-- Goes to a branch: to the head of that name, or to a new head that follows the remote branch. -/
def switch (remote : Remote) (branch : String) : List Command :=
  if remote.heads.contains branch then [.checkout branch]
  else
    let source := s!"origin/{branch}"
    if remote.refs.contains source then [.createHead branch source, .track branch source, .checkout
    branch] else []

def update (remote : Remote) (branch : Value) : Run :=
  if !remote.opens then ([], .error notARepository)
  else if !remote.hasOrigin then ([], .error (.noAttribute "no remote origin"))
  else (.fetch :: switch remote branch.plain ++ [.pull],
    if remote.pullFails then .error (.gitCommand "pull failed") else .ok ())

def goToCommit (remote : Remote) (sha : Value) : Run :=
  if !sha.truthy then ([], .ok ())
  else if !remote.opens then ([], .error notARepository)
  else ([.checkoutCommit sha],
    if remote.badCommits.contains sha.plain then .error (.gitCommand "checkout failed") else .ok ())

structure Prepared where
  workspace : Workspace
  commands : List Command
  folder : Outcome String

/-- Prepares a repository and gives its folder. A folder that is no repository is made anew. -/
def prepare (number : Value → Nat) (remote : Remote) (w : Workspace) (r : Request) : Prepared :=
  let folder := folderOf number r.url
  let w := if r.fresh || (w.has folder && !remote.opens) then w.remove folder else w
  let cloned := !w.has folder
  let first := if cloned then clone remote r else update remote r.branch
  let (commands, result) := first.andThen (goToCommit remote r.commit)
  let w := match cloned, first.2 with
    | true, .ok _ => (folder, r.url.plain) :: w
    | _, _ => w
  { workspace := w, commands, folder := result.map fun _ => folder }

/-!
## The history of a repository

Commits, branches and the differences between commits, and what is reported about them. A report on
something that does not exist is empty.
-/

structure Person where
  name : Value
  email : Value

structure Commit where
  sha : String
  author : Person
  committer : Person
  message : String
  date : ZonedMoment
  authored : ZonedMoment
  parents : List String := []
  files : Fields := []

structure Branch where
  name : String
  commit : String
  tracking : Option String := none

structure Delta where
  before : Option String
  after : Option String
  change : ChangeType
  patch : Option String

structure Repository where
  commits : List Commit := []
  branches : List Branch := []
  active : Option String := none
  head : Option String := none
  tags : List String := []
  /-- The deltas from one state to another, by a key. -/
  deltas : List (String × List Delta) := []

namespace Repository

def commit? (r : Repository) (sha : String) : Option Commit := r.commits.find? (·.sha == sha)

def delta (r : Repository) (a b : String) : List Delta := (r.deltas.lookup (a ++ ".." ++ b)).getD []

def deltaOf (r : Repository) (c : Commit) : Option (List Delta) :=
  match c.parents with
  | p :: _ => (r.commit? p).map fun parent => r.delta parent.sha c.sha
  | [] => some (r.delta c.sha "NULL_TREE")

end Repository

/-! ## Reports -/

def personFields (p : Person) : Fields := [("name", p.name), ("email", p.email)]

def Commit.title (c : Commit) : String := Text.trimmed c.message

/-- A commit in short, its message cut off after a hundred characters. -/
def Commit.brief (c : Commit) : Value :=
  .object [("sha", .text c.sha), ("date", .text c.date.iso), ("author", c.author.name),
    ("message", .text (Text.takeText c.title 100))]

def Commit.summary (c : Commit) : Value :=
  .object [("sha", .text c.sha), ("date", .text c.date.iso), ("author", c.author.name),
           ("message", .text c.title)]

variable (r : Repository)

def branchReport (b : Branch) : Option Value := do
  let c ← r.commit? b.commit
  return .object ([("name", .text b.name), ("is_current", .bool (r.active == some b.name)),
    ("commit", c.brief)] ++
    (b.tracking.map fun t => [("tracking", .text t)]).getD [])

/-- All branches; none if one of them leads to no commit. -/
def branches : List Value := (r.branches.mapM (branchReport r)).getD []

def namesOf (ds : List Delta) : List String :=
  (ds.flatMap fun d => (d.before.toList ++ d.after.toList).filter (· != "")).eraseDups

def changedFiles (commit base : Option String) : List String :=
  let found : Option (List Delta) := match commit, base with
    | some c, some b => do
      let older ← r.commit? b
      return r.delta older.sha (← r.commit? c).sha
    | some c, none => (r.commit? c).bind r.deltaOf
    | none, _ => (r.head.bind r.commit?).map fun c => r.delta c.sha "WORK"
  namesOf (found.getD [])

/-- The commits that changed a file, at most `limit`. -/
def fileHistory (path : String) (limit : Nat) : List Value :=
  ((r.commits.filter fun c => Fields.has c.files path).take limit).map fun c =>
    .object [("sha", .text c.sha), ("author", .object (personFields c.author)),
             ("committer", .object (personFields c.committer)), ("message", .text c.title),
             ("date", .text c.date.iso), ("stats", (Fields.get? c.files path).getD (.object []))]

def lineCount (record : Value) (key : String) : Value := (record.get? key).getD (.int 0)

def totalOf (files : Fields) (key : String) : Int :=
  files.foldr (fun f total => match lineCount f.2 key with
    | .int n => n + total
    | _ => total) 0

def deltaPath (d : Delta) : Option String := (d.after.filter (· != "")).or d.before

def commitInfo (sha : String) : Fields :=
  (do
    let c ← r.commit? sha
    let parents ← c.parents.mapM r.commit?
    let ds ← r.deltaOf c
    let modified := ds.map fun d =>
      let record := (deltaPath d).bind (Fields.get? c.files)
      .object [("file_path", .ofText? (deltaPath d)), ("change_type", .text d.change.name),
        ("additions", (record.map (lineCount · "insertions")).getD (.int 0)),
        ("deletions", (record.map (lineCount · "deletions")).getD (.int 0))]
    return [("sha", .text c.sha), ("short_sha", .text (Text.takeText c.sha 8)),
      ("author", .object (personFields c.author ++ [("date", .text c.authored.iso)])),
      ("committer", .object (personFields c.committer ++ [("date", .text c.date.iso)])),
      ("message", .text c.title),
      ("parents", .ofTexts (parents.map (·.sha))),
      ("stats", .object [("total_files", .ofNat c.files.length),
        ("total_insertions", .int (totalOf c.files "insertions")),
        ("total_deletions", .int (totalOf c.files "deletions")), ("files", .object c.files)]),
      ("modified_files", .list modified)] : Option Fields).getD []

def patchName (d : Delta) : String :=
  "<patch " ++ d.before.getD "None" ++ " " ++ d.after.getD "None" ++ ">"

def deltaReport (d : Delta) : Value :=
  let patch := d.patch.filter (· != "")
  let (added, deleted) := (patch.map fun p => changedLines p.toList).getD (0, 0)
  .object [("file_path", .ofText? (deltaPath d)), ("old_file", .ofText? d.before),
           ("new_file", .ofText? d.after), ("change_type", .text d.change.name),
           ("additions", .ofNat added), ("deletions", .ofNat deleted),
           ("patch", .ofText? (patch.map fun _ => patchName d))]

def diffBetween (a b : String) (path : Option String) : Fields :=
  (do
    let older ← r.commit? a
    let newer ← r.commit? b
    let ds := r.delta older.sha newer.sha
    let ds := match path with
      | some p => ds.filter fun (d : Delta) => d.before == some p || d.after == some p
      | none => ds
    return [("commit1", older.summary), ("commit2", newer.summary),
            ("files", .list (ds.map deltaReport))] :
    Option Fields).getD []

/-! ## Statistics -/

def tally (counts : List (String × Nat)) (name : String) : List (String × Nat) :=
  if (counts.lookup name).isSome then counts.map fun c => if c.1 = name then (c.1, c.2 + 1) else c
  else counts ++ [(name, 1)]

def tallies (names : List String) : List (String × Nat) := names.foldl tally []

def talliesValue (counts : List (String × Nat)) : Value :=
  .object (counts.map fun c => (c.1, .ofNat c.2))

structure Contributor where
  email : Value
  name : Value
  commits : Nat
  first : ZonedMoment
  last : ZonedMoment

/-- Counts a commit for its author. The dates of an author stay those of the commit met first. -/
def addContribution (cs : List Contributor) (c : Commit) : List Contributor :=
  if cs.any (·.email.same c.author.email) then
    cs.map fun x => if x.email.same c.author.email then { x with commits := x.commits + 1 } else x
  else cs ++ [{ email := c.author.email, name := c.author.name, commits := 1, first := c.date,
                last := c.date }]

def contributors (commits : List Commit) : List Contributor := commits.foldl addContribution []

def Commit.month (c : Commit) : String :=
  let d := c.date.moment.date
  Value.intText d.year ++ "-" ++ Moment.padded 2 d.month

def activity (commits : List Commit) : List (String × Nat) := tallies (commits.map Commit.month)

def contributorValue (c : Contributor) : Value :=
  .object [("name", c.name), ("commits", .ofNat c.commits), ("first_commit", .text c.first.iso),
    ("last_commit", .text c.last.iso)]

def totalLines (t : Tree) (root : Path) (files : List Path) : Nat :=
  Tally.sumOf (fun f => (Text.rows (Files.read t root f)).length)
    (files.filter fun f => isCodeSuffix f.suffix)

def statistics (t : Tree) (root : Path) : Fields :=
  let files := Files.list t root Files.usualSuffixes Files.usualExclusions
  let suffixes := (files.map fun f => Text.lowered f.suffix).filter (· != "")
  [("total_commits", .ofNat r.commits.length), ("total_files", .ofNat files.length),
    ("total_lines", .ofNat (totalLines t root files)),
    ("languages", talliesValue (tallies (suffixes.filterMap languageOf?))),
    ("contributors", .object ((contributors r.commits).map fun c => (c.email.plain,
      contributorValue c))),
    ("branches", .ofTexts (r.branches.map (·.name))), ("tags", .ofTexts r.tags),
    ("last_commit", .ofOption Commit.brief r.commits.head?),
    ("first_commit", .ofOption Commit.brief r.commits.getLast?),
    ("activity_by_month", talliesValue (activity r.commits)),
    ("file_types", talliesValue (tallies suffixes))]

end ReviewDesk.Git
