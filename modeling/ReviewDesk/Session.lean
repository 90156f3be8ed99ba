import ReviewDesk.Desk

/-!
# Sessions

Work with the store is done in sessions. Rows that are added in a session wait until it commits.
-/

namespace ReviewDesk

/-- How a session ends that nothing has gone wrong in. -/
inductive SessionEnd where
  | commits
  | forgets
  deriving DecidableEq, Repr

namespace Session

open Work

def save (rows : List Fields) : Work Unit := do
  change (Store.seed "User" (← now) rows)
  commit

/-- A session in which users are added and perhaps committed, and which a fault may break off. -/
def addUsers (ending : SessionEnd) (rows : List Fields) (commitNow : Bool) (fault : Option Fault) :
    Work Unit :=
  orRollback do
    if commitNow then save rows
    match fault with
    | some f => throw f
    | none => if !commitNow && ending == .commits then save rows

end Session

end ReviewDesk
