import ReviewDesk.Http.Record
import ReviewDesk.Http.Site
import ReviewDesk.Startup.Packages

/-!
# Command line

`serve` answers requests that stand one in a line on standard input, each as an object with the
fields `method`, `path`, `headers`, `json`, `data` or `content`, `client` and `at`, the moment of
the request. `packages` makes the missing folders of the program below the current one.
-/

open ReviewDesk

namespace ReviewDesk.Main

def answerLine (s : Http.Site) (line : String) : Http.Site × String :=
  match Json.readText line with
  | .error e => (s, Json.write (.object [("error", .text (e.message line.toList))]))
  | .ok v =>
    let moment := (v.getD "at").text?.bind fun t => ZonedMoment.ofText? t.toList
    let now := (moment.map (·.moment)).getD s.desk.now
    let (s, r) := { s with desk := { s.desk with now } }.serve (.ofRecord v)
    (s, Json.write r.report)

partial def serve (s : Http.Site) : IO Unit := do
  let line ← (← IO.getStdin).getLine
  if line != "" then
    let (s, answer) := answerLine s line
    IO.println answer
    (← IO.getStdout).flush
    serve s

def makePackages : IO Unit := do
  for names in Startup.packages do
    let folder := "/".intercalate names
    IO.FS.createDirAll folder
    let marker := folder ++ "/" ++ Startup.markerName
    let there ← (IO.FS.withFile marker .read fun _ => pure true) <|> pure false
    if !there then
      IO.FS.writeFile marker (Startup.marker names)
      IO.println ("Created: " ++ marker)

end ReviewDesk.Main

def main (args : List String) : IO UInt32 := do
  match args with
  | ["serve"] =>
    Main.serve { desk := { now := ⟨0⟩ } }
    return 0
  | ["packages"] =>
    Main.makePackages
    return 0
  | _ =>
    IO.eprintln "usage: reviewdesk (serve | packages)"
    return 2
