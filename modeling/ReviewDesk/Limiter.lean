import ReviewDesk.Value.Basic

/-!
# Rate limiter

Requests of each client are counted by the second. A client that has made its share of requests
within the window is refused until the oldest ones have left the window.
-/

namespace ReviewDesk

structure Limiter where
  most : Int := 100
  window : Int := 60
  /-- The number of requests of each client in each second. -/
  counts : List (String × List (Int × Nat)) := []

namespace Limiter

variable (l : Limiter)

def requests (client : String) : List (Int × Nat) := (l.counts.lookup client).getD []

def total (client : String) : Nat := Tally.sumOf (·.2) (l.requests client)

def countIn (second : Int) : List (Int × Nat) → List (Int × Nat)
  | [] => [(second, 1)]
  | (s, n) :: rest => if s = second then (s, n + 1) :: rest else (s, n) :: countIn second rest

def change (client : String) (f : List (Int × Nat) → List (Int × Nat)) :
    List (String × List (Int × Nat)) → List (String × List (Int × Nat))
  | [] => []
  | (c, rs) :: rest => if c = client then (c, f rs) :: rest else (c, rs) :: change client f rest

/-- Forgets the requests of a client that have left the window. -/
def prune (now : Int) (client : String) : Limiter :=
  { l with counts := change client (·.filter fun r => now - l.window < r.1) l.counts }

def full (client : String) : Bool := l.most ≤ l.total client

/-- Whether a client is refused now, once old requests are forgotten. -/
def check (now : Int) (client : String) : Limiter × Bool :=
  let l := l.prune now client
  (l, l.full client)

def record (now : Int) (client : String) : Limiter :=
  let counts := if (l.counts.lookup client).isSome then l.counts else l.counts ++ [(client, [])]
  { l with counts := change client (countIn now) counts }

/-- Admits and counts a request, or refuses it. The clock is read once to check and once to count.
-/
def accept (checked counted : Int) (client : String) : Limiter × Bool :=
  match l.check checked client with
  | (l, true) => (l, false)
  | (l, false) => (l.record counted client, true)

structure Quota where
  limit : Int
  remaining : Int
  /-- The second when the window will have passed. -/
  reset : Int
  deriving DecidableEq, Repr

def quota (now : Int) (client : String) : Quota :=
  { limit := l.most
    remaining := max 0 (l.most - l.total client)
    reset := now + l.window }

def Quota.headers (q : Quota) : List (String × String) :=
  [("X-RateLimit-Limit", Value.intText q.limit),
   ("X-RateLimit-Remaining", Value.intText q.remaining),
   ("X-RateLimit-Reset", Value.intText q.reset)]

def refusal : Fault :=
  .rejected 429 (.text "Rate limit exceeded. Please try again later.")
    (some [("Retry-After", .text (Value.intText l.window))])

def report : Value :=
  .object (l.counts.map fun (c, rs) => (c,
    .object (rs.map fun r => (Value.intText r.1, .ofNat r.2))))

/-! ## Clients and paths -/

/-- What a client is known by: its address, or what a proxy says about it. -/
def clientName (host forwarded real : Option String) : String :=
  match host with
  | some h => h
  | none =>
    match forwarded with
    | some f =>
      if f = "" then realName real
      else .ofList (Text.trim (f.toList.takeWhile (· != ',')))
    | none => realName real
where
  /-- The address that a proxy has seen, if it is not empty. -/
  realName (real : Option String) : String :=
    match real with
    | some r => if r = "" then "unknown" else r
    | none => "unknown"

def exempt : List String := ["/health", "/docs", "/redoc", "/openapi.json"]

end Limiter

end ReviewDesk
