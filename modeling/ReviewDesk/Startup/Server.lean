import ReviewDesk.Settings

/-!
# Starting the server
-/

namespace ReviewDesk.Startup

structure Launch where
  application : String := "app.main:app"
  host : String := "0.0.0.0"
  port : Nat := 8000
  reload : Bool
  logLevel : String
  deriving DecidableEq, Repr

/-- What is given to the server: the application, and the rest by name. -/
def Launch.report (l : Launch) : Value :=
  .object [("args", .ofTexts [l.application]),
    ("kwargs", .object [("host", .text l.host), ("port", .ofNat l.port), ("reload", .bool l.reload),
      ("log_level", .text l.logLevel)])]

def isDevelopment (s : Settings) : Bool := s.environment.same (.text "development")

/-- The launch for developers, whatever the settings are. -/
def developerLaunch : Launch := { reload := true, logLevel := "info" }

def launch (s : Settings) : Outcome Launch := do
  let level ← s.logLevel.textOf "lower"
  return { reload := isDevelopment s, logLevel := Text.lowered level }

def tables : List String := ["comments", "issues", "repositories", "reviews", "users"]

/-- The tables that are there once an empty store was made ready. Only developers get them made. -/
def tablesAtStart (s : Settings) : List String := if isDevelopment s then tables else []

end ReviewDesk.Startup
