import ReviewDesk.Diff.Patch

/-!
# Reports on a patch given as a record

The reports of a patch whose record may lack fields or hold values of any kind. Where a report
cannot go on, the figures are reduced to a score of zero, no risks are listed, the patterns are
those counted so far, and the summary says that it failed.
-/

namespace ReviewDesk.Diff.Record

open ReviewDesk.Value

/-- The extension of a path: a text, or a list or object without a dot among its items. -/
def extensionOf (path : Value) : Outcome String :=
  match path with
  | .text s => .ok (.ofList (extension s.toList))
  | .list xs =>
    if xs.any (same (.text ".")) then .error (.noAttribute "split") else .ok "no_extension"
  | .object fs => if Fields.has fs "." then .error (.noAttribute "split") else .ok "no_extension"
  | _ => .error (.mistyped "nothing is in a value of this kind")

def countFile (counts : Fields) (f : Value) : Outcome Fields := do
  let e ← extensionOf (← f.item "file_path")
  let old :=
    (Fields.get? counts e).getD (.object [("count", .int 0), ("additions", .int 0),
      ("deletions", .int 0)])
  let count ← plus (old.getD "count") (.int 1)
  let additions ← plus (old.getD "additions") (← f.item "additions")
  let deletions ← plus (old.getD "deletions") (← f.item "deletions")
  return Fields.set counts e (.object [("count", count), ("additions", additions),
    ("deletions", deletions)])

def insertByChanges (f : Value × Value) : List (Value × Value) → Outcome (List (Value × Value))
  | [] => .ok [f]
  | g :: gs => do
    if ← less g.1 f.1 then return f :: g :: gs
    else return g :: (← insertByChanges f gs)

def byChanges (files : List Value) : Outcome (List Value) := do
  let keyed ← files.mapM fun f => do return (← f.item "changes", f)
  let sorted ← keyed.foldlM (fun acc f => insertByChanges f acc) []
  return sorted.map (·.2)

def quotient (v : Value) (n : Nat) : Outcome Float :=
  match v.number? with
  | some x => .ok (x.toFloat / n.toFloat)
  | none => .error (.mistyped s!"unsupported operand type(s) for /: '{v.kindName}' and 'int'")

def metrics (p : Value) : Outcome Value := do
  let files ← p.item "total_files"
  let changes ← p.item "total_changes"
  let additions ← p.item "total_additions"
  let deletions ← p.item "total_deletions"
  let list ← (← p.item "files").items
  let counts ← list.foldlM countFile []
  let largest ← ((← byChanges list).take 5).mapM fun f => do
    return Value.object [("file_path", ← f.item "file_path"), ("changes", ← f.item "changes"),
      ("additions", ← f.item "additions"), ("deletions", ← f.item "deletions")]
  let share ← quotient files 1
  let lines ← quotient changes 1
  return .object [("total_files_changed", files), ("total_lines_changed", changes),
    ("additions", additions), ("deletions", deletions), ("files_by_type", .object counts),
    ("largest_file_changes", .list largest),
    ("complexity_score", .real (complexityScore share lines))]

def shownIn (v : Value) : String := v.plain

def risksOf (f : Value) : Outcome (List Value) := do
  let path ← f.item "file_path"
  let changes ← f.item "changes"
  let large ← less (.int 100) changes
  let binary ← f.item "is_binary"
  let path ← match path with
    | .text s => .ok s
    | _ => .error (.mistyped "a pattern is for texts")
  let change ← f.item "change_type"
  let row (k : RiskKind) : Value := .object (riskFields path k)
  let shownChanges := shownIn changes
  return (if large then
      [Value.object [("type", .text "large_change"), ("severity", .text "medium"),
        ("file_path", .text path),
        ("description", .text s!"Large change ({shownChanges} lines) in {path}"),
        ("changes", changes)]]
    else []) ++
    (if binary.truthy then [row .binary] else []) ++
    (match criticalPath? path.toList with
      | some p => [row (.critical p)]
      | none => []) ++
    (match change with
      | .text "added" => [row .newFile]
      | .text "removed" => [row .deletion]
      | _ => [])

def risks (p : Value) : Outcome (List Value) := do
  return (← (← (← p.item "files").items).mapM risksOf).flatten

/-! ## Patterns among the changed lines -/

/-- Counts that are kept when the counting stops. -/
structure Tally where
  counts : Fields
  stopped : Bool

namespace Tally

def start : Tally :=
  ⟨[("import_changes", .int 0), ("function_additions", .int 0), ("function_deletions", .int 0),
    ("comment_changes", .int 0), ("test_changes", .int 0), ("documentation_changes", .int 0)],
    false⟩

def add (t : Tally) (key : String) (n : Outcome Value) : Tally :=
  match n.bind fun v => plus ((Fields.get? t.counts key).getD (.int 0)) v with
  | .ok v => ⟨Fields.set t.counts key v, t.stopped⟩
  | .error _ => { t with stopped := true }

def goOn (t : Tally) (f : Tally → Tally) : Tally := if t.stopped then t else f t

def each (t : Tally) (v : Outcome (List Value)) (f : Tally → Value → Tally) : Tally :=
  match v with
  | .ok xs => xs.foldl (fun t x => t.goOn (f · x)) t
  | .error _ => { t with stopped := true }

end Tally

def countLine (added : List Value) (t : Tally) (l : Value) : Tally :=
  match (l.item "content").bind (textOf · "strip") with
  | .ok s =>
    let one (key : String) : Tally := t.add key (.ok (.int 1))
    match lineKind (Text.trim s.toList) with
    | .import => one "import_changes"
    | .definition => one (if added.any (same l) then "function_additions" else "function_deletions")
    | .comment => one "comment_changes"
    | .other => t
  | .error _ => { t with stopped := true }

def countHunk (t : Tally) (h : Value) : Tally :=
  match h.item "added_lines", h.item "removed_lines" with
  | .ok (.list added), .ok (.list removed) => t.each (.ok (added ++ removed)) (countLine added)
  | .ok (.text a), .ok (.text b) => if a.isEmpty && b.isEmpty then t else { t with stopped := true }
  | _, _ => { t with stopped := true }

def countFilePatterns (t : Tally) (f : Value) : Tally :=
  match f.item "file_path" with
  | .ok (.text path) =>
    let t := if isTestPath path.toList then t.add "test_changes" (f.item "changes") else t
    let t := t.goOn fun t =>
      if isDocumentPath path.toList then t.add "documentation_changes" (f.item "changes") else t
    t.goOn fun t => t.each ((f.item "hunks").bind items) countHunk
  | _ => { t with stopped := true }

def patterns (p : Value) : Value :=
  .object (Tally.start.each ((p.item "files").bind items) countFilePatterns).counts

/-! ## Summary -/

def summary (p : Value) : Outcome String := do
  let files ← p.item "files"
  if !files.truthy then return noChanges
  let total ← p.item "total_files"
  let additions ← p.item "total_additions"
  let deletions ← p.item "total_deletions"
  let named ← ((← byChanges (← files.items)).take 3).mapM fun f => do
    return (shownIn (← f.item "file_path"), shownIn (← f.item "changes"))
  return summaryText (shownIn total) (shownIn additions) (shownIn deletions) named

def reports (p : Value) : Value :=
  .object [("metrics", (metrics p).getD (.object [("complexity_score", .real 0)])),
    ("risky", .list ((risks p).getD [])), ("patterns", patterns p),
    ("summary", .text ((summary p).getD "Error creating summary."))]

end ReviewDesk.Diff.Record
