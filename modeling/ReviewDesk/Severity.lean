/-!
# Severities

How much a finding matters.
-/

namespace ReviewDesk

inductive Severity where
  | critical
  | high
  | medium
  | low
  deriving DecidableEq, Repr, Inhabited

namespace Severity

def all : List Severity := [critical, high, medium, low]

def name : Severity → String
  | critical => "critical"
  | high => "high"
  | medium => "medium"
  | low => "low"

def ofName? (s : String) : Option Severity := all.find? (·.name == s)

theorem ofName?_name (s : Severity) : ofName? s.name = some s := by cases s <;> decide

end Severity

end ReviewDesk
