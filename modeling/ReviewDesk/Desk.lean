import ReviewDesk.Settings
import ReviewDesk.Store.Basic

/-!
# Work at the desk

The desk holds the store, the clock, the settings, the wire to other services and the queue of jobs.
Work at the desk is a run of statements: what a statement writes is seen by the statements after it
and becomes lasting when the work commits; a rollback goes back to what is lasting. Work that fails
leaves the desk as it was at the fault.
-/

namespace ReviewDesk

structure Job where
  name : String
  arguments : List Value := []
  options : Fields := []

structure JobReport where
  state : String
  details : Fields

/-- The troubles of the store: which statements fail, and how every commit fails. -/
structure Trouble where
  statement : Nat → Bool := fun _ => false
  commit : Option Fault := none

structure Desk where
  store : Store := {}
  /-- The store as it was at the last commit. -/
  lasting : Store := {}
  now : Moment
  settings : Settings := {}
  wire : Web.Wire := .ofReplies []
  queueUp : Bool := true
  jobs : List Job := []
  /-- What the job at work has told so far. -/
  reports : List JobReport := []
  statements : Nat := 0
  trouble : Trouble := {}
  /-- What is put after a name when no other ending is free. -/
  ending : String := "00000000"

def JobReport.report (r : JobReport) : Value :=
  .object [("state", .text r.state), ("meta", .object r.details)]

def Job.reports (jobs : List Job) : Value :=
  .object ((jobs.map (·.name)).eraseDups.map fun name =>
    (name, .list ((jobs.filter (·.name == name)).map fun j =>
      .object [("args", .list j.arguments), ("kwargs", .object j.options)])))

def Desk.outgoing (d : Desk) : Fields :=
  (if d.wire.asked.isEmpty then [] else [("asked", d.wire.report)]) ++
    if d.jobs.isEmpty then [] else [("queued", Job.reports d.jobs)]

abbrev Work := ExceptT Fault (StateM Desk)

namespace Work

def run {α : Type} (x : Work α) (d : Desk) : Outcome α × Desk := StateT.run (ExceptT.run x) d

def ofOutcome {α : Type} (x : Outcome α) : Work α :=
  match x with
  | .ok a => pure a
  | .error f => throw f

def now : Work Moment := return (← get).now

def settings : Work Settings := return (← get).settings

/-- Counts a statement, which may be one that fails. -/
def statement : Work Unit := do
  let d ← get
  set { d with statements := d.statements + 1 }
  if d.trouble.statement (d.statements + 1) then throw (.failed "statement failed")

def query {α : Type} (q : Store → Outcome α) : Work α := do
  statement
  ofOutcome (q (← get).store)

def change (f : Store → Outcome Store) : Work Unit := do
  statement
  let d ← get
  let store ← ofOutcome (f d.store)
  set { d with store }

def commit : Work Unit := do
  let d ← get
  match d.trouble.commit with
  | some f => throw f
  | none => set { d with lasting := d.store }

def rollback : Work Unit := modify fun d => { d with store := d.lasting }

def add {α : Type} (f : Store → Outcome (α × Store)) : Work α := do
  let d ← get
  match d.trouble.commit with
  | some f => throw f
  | none =>
    let (a, store) ← ofOutcome (f d.store)
    set { d with store, lasting := store }
    return a

def orElse {α : Type} (x : Work α) (a : α) : Work α := tryCatch x fun _ => return a

/-- Work that answers whether it succeeded; what it wrote is taken back if not. -/
def succeeds (x : Work Unit) : Work Bool :=
  tryCatch (do x; return true) fun _ => do
    rollback
    return false

/-- Takes back what was written if work fails. -/
def orRollback {α : Type} (x : Work α) : Work α :=
  tryCatch x fun f => do
    rollback
    throw f

def web {α : Type} (x : Web α) : Work α := do
  let d ← get
  let (result, wire) := x.run d.wire
  set { d with wire }
  ofOutcome result

def enqueue (j : Job) : Work String := do
  let d ← get
  if d.queueUp then
    set { d with jobs := d.jobs ++ [j] }
    return "task-1"
  else throw (.failed "queue down")

def tell (state : String) (details : Fields) : Work Unit :=
  modify fun d => { d with reports := d.reports ++ [{ state, details }] }

def attempt {α : Type} (x : Work α) : Work (Option α) := orElse (some <$> x) none

end Work

end ReviewDesk
