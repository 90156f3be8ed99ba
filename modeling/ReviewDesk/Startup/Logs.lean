import ReviewDesk.Settings

/-!
# Logs
-/

namespace ReviewDesk.Startup

structure Logs where
  level : Nat
  format : String
  /-- The levels for the messages of the store and of the server. -/
  storeLevel : Nat := 30
  serverLevel : Nat := 20
  deriving DecidableEq, Repr

def Logs.report (l : Logs) : Fields :=
  [("level", .ofNat l.level), ("formats", .ofTexts [l.format]), ("engine", .ofNat l.storeLevel),
    ("access", .ofNat l.serverLevel)]

def levels : List (String × Nat) :=
  [("CRITICAL", 50), ("FATAL", 50), ("ERROR", 40), ("WARNING", 30), ("WARN", 30), ("INFO", 20),
   ("DEBUG", 10), ("NOTSET", 0)]

/-- Names in capitals that stand for something else than a level. -/
def notLevels : List (String × Fault) :=
  [("BASIC_FORMAT", .invalid "Unknown level: '%(levelname)s:%(name)s:%(message)s'"),
    ("_STYLES", .mistyped "not a level")]

/-- The level that a name stands for. A name that stands for nothing is taken for the level of
information. -/
def levelOf (name : String) : Outcome Nat :=
  let name := Text.uppered name
  match notLevels.lookup name with
  | some fault => .error fault
  | none => .ok ((levels.lookup name).getD 20)

def jsonFormat : String :=
  "\x7b\"timestamp\": \"%(asctime)s\", \"level\": \"%(levelname)s\", \"logger\": \"%(name)s\", " ++
    "\"message\": \"%(message)s\"\x7d"

def plainFormat : String := "%(asctime)s - %(name)s - %(levelname)s - %(message)s"

def logs (s : Settings) : Outcome Logs := do
  let level ← levelOf (← s.logLevel.textOf "upper")
  return { level, format := if s.logFormat.same (.text "json") then jsonFormat else plainFormat }

/-- The name of a log. Without a name it is the log of the whole program. -/
def logName (name : Value) : Outcome String :=
  match name with
  | .text s => .ok (if s = "" then "root" else s)
  | v => if v.truthy then .error (.mistyped "the name of a log is a text") else .ok "root"

end ReviewDesk.Startup
