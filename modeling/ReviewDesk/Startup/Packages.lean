import ReviewDesk.Files.Tree

/-!
# Folders of the program

Every folder of the program holds a file that marks it as a package. Missing folders and files are
made; a file that is there is left as it is.
-/

namespace ReviewDesk.Startup

/-- The folders of the program, each after those that it lies in. -/
def packages : List (List String) :=
  [["app"], ["app", "api"], ["app", "api", "middlewares"], ["app", "api", "v1"],
   ["app", "api", "dependencies"], ["app", "core"], ["app", "models"], ["app", "models", "ai"],
   ["app", "models", "database"], ["app", "models", "schemas"], ["app", "services"],
   ["app", "utils"], ["app", "utils", "helpers"], ["app", "utils", "parsers"],
   ["app", "utils", "validators"], ["app", "workers"], ["app", "integrations"],
   ["app", "integrations", "github"], ["app", "integrations", "gitlab"],
   ["app", "integrations", "bitbucket"], ["app", "integrations", "jira"]]

def marker (names : List String) : String :=
  "\"\"\"$" ++ ".".intercalate names ++ " package.\"\"\"\n"

def markerName : String := "__init__.py"

/-- The files after some packages were made, and the markers that were missing. -/
structure Made where
  tree : Tree
  markers : List (List String) := []
  fault : Option Fault := none

/-- Makes one package. A file in the place of the folder stops the work. -/
def makePackage (m : Made) (names : List String) : Made :=
  if m.fault.isSome then m
  else if (m.tree.file? names).isSome then
    { m with fault := some (.alreadyThere ("/".intercalate names)) }
  else
    let tree := if m.tree.isFolder names then m.tree else ⟨m.tree.entries ++ [(names, .folder)]⟩
    let file := names ++ [markerName]
    if (tree.file? file).isSome || tree.isFolder file then { m with tree }
    else
      { m with tree := ⟨tree.entries ++ [(file, .file (Text.utf8 (marker names).toList))]⟩
               markers := m.markers ++ [file] }

def Made.texts (m : Made) : Fields :=
  (m.tree.filesBelow []).map fun names =>
    ("/".intercalate names, .text (.ofList (Text.ofUtf8Marked ((m.tree.file? names).getD []))))

def Made.lines (m : Made) (root : String) : List String :=
  m.markers.map fun names => "Created: " ++ root ++ "/" ++ "/".intercalate names

def makePackages (t : Tree) : Made := packages.foldl makePackage { tree := t }

end ReviewDesk.Startup
