import ReviewDesk.Http.Routes
import ReviewDesk.Limiter

/-!
# The site

A request passes from the outside in: the error page, the limiter, the log, the check of the host,
the sharing with other sites and the routes. Each layer can answer by itself or add to the answer of
the layers inside it. What no layer answers is answered by the error page, to which nothing is
added.
-/

namespace ReviewDesk.Http

/-! ## Requests from pages of other sites

A page of another site may read an answer only if the answer says so. Before it sends a request that
could change something it asks first with a request of its own, the preflight.
-/

structure Sharing where
  origins : List String
  allHeaders : Bool := false

namespace Sharing

variable (s : Sharing)

def isPublic : Bool := s.origins.contains "*"

def admits (origin : String) : Bool := s.isPublic || s.origins.contains origin

def methods : List String := ["DELETE", "GET", "HEAD", "OPTIONS", "PATCH", "POST", "PUT"]

/-- What is wrong with the request that a preflight asks for. -/
def objections (origin method : String) : List String :=
  (if s.admits origin then [] else ["origin"]) ++ if methods.contains method then [] else ["method"]

def preflight (origin method : String) (headers : Option String) : Response :=
  let objections := s.objections origin method
  let r :=
    if objections.isEmpty then Response.text 200 "OK"
    else Response.text 400 ("Disallowed CORS " ++ ", ".intercalate objections)
  r.withHeaders
    ([("vary", "Origin"), ("access-control-allow-methods", ", ".intercalate methods),
      ("access-control-max-age", "600"), ("access-control-allow-credentials", "true")] ++
      (if s.admits origin then [("access-control-allow-origin", origin)] else []) ++
      (headers.map fun h => [("access-control-allow-headers", h)]).getD [])

def preflight? (q : Request) : Option Response :=
  match q.header? "origin", q.header? "access-control-request-method" with
  | some origin, some method =>
    if q.method = "OPTIONS" then
      some (s.preflight origin method (q.header? "access-control-request-headers"))
    else none
  | _, _ => none

/-- Says in an answer who may read it. A client that sent a cookie is told its own site by name. -/
def mark (q : Request) (r : Response) : Response :=
  match q.header? "origin" with
  | none => r
  | some origin =>
    let r := if s.isPublic then r.withHeader "access-control-allow-origin" "*" else r
    let r := r.withHeader "access-control-allow-credentials" "true"
    let r := if s.allHeaders then r.withHeader "access-control-expose-headers" "*" else r
    let named := if s.isPublic then (q.header? "cookie").isSome else s.admits origin
    if named then (r.withHeader "access-control-allow-origin" origin).withHeader "vary" "Origin"
    else r

end Sharing

/-! ## Routes -/

mutual

/-- Whether a value can be written as JSON, which has no infinite numbers. -/
def isWritable : Value → Bool
  | .real x => !x.isNaN && !x.isInf
  | .list vs => areWritable vs
  | .object fs => fieldsWritable fs
  | _ => true

def areWritable : List Value → Bool
  | [] => true
  | v :: vs => isWritable v && areWritable vs

def fieldsWritable : List (String × Value) → Bool
  | [] => true
  | (_, v) :: fs => isWritable v && fieldsWritable fs

end

/-- A row that was changed by the request itself. The time of the change is shown with its zone. -/
def justChanged (r : Repository) : Fields :=
  match r.updatedAt with
  | some t => Fields.set r.report "updated_at" (.text (t.iso ++ "+00:00"))
  | none => r.report

def shownRepository (changed : Bool) (r : Repository) : Value :=
  .object (if changed then justChanged r else r.report)

/-- The response that shows an answer, if it can be shown. Of rows only an empty list can. -/
def Answer.response? : Answer → Option Response
  | .json v => if isWritable v then some (.json 200 v) else none
  | .redirect url => some (.redirect url)
  | .page title => some (.page title)
  | .rows (.list []) => some (.json 200 (.list []))
  | .rows _ => none
  | .about text r changed =>
    some (.json 200 (.object [("message", .text text),
      ("repository", .ofOption (shownRepository changed) r)]))

def told (e : FieldError) : Value :=
  .object ([("loc", .list e.place), ("msg", .text e.message), ("type", .text e.kind)] ++
    (e.context.map fun c => [("ctx", .object c)]).getD [])

def faulty (es : List FieldError) : Response := .detail 422 (.list (es.map told))

/-- Does what a route asks for. The body is read first, then it is found who asks, then all else is
read. -/
def Route.run (r : Route) (holes : List (String × String)) (q : Request) :
    Work (Option Response) := do
  match ← Work.ofOutcome (readPayload r.content q) with
  | .error es => return some (faulty es)
  | .ok payload =>
    match r.act with
    | .anybody f =>
      match ← Work.ofOutcome (readGiven r holes q payload) with
      | .error es => return some (faulty es)
      | .ok given => return (← f given).response?
    | .user f =>
      let user ← Api.currentUser (← Work.ofOutcome (bearer q))
      match ← Work.ofOutcome (readGiven r holes q payload) with
      | .error es => return some (faulty es)
      | .ok given => return (← f user given).response?

def dispatch (routes : List Route) (q : Request) : Work (Option Response) :=
  match destination routes q.method q.path with
  | .route r holes => tryCatch (r.run holes q) fun fault => return Response.ofFault? fault
  | .wrongMethod => return some (.detail 405 (.text "Method Not Allowed"))
  | .elsewhere path => return some (.redirect (Web.quotedUrl (q.addressOf path)))
  | .nowhere => return some (.detail 404 (.text "Not Found"))

/-! ## Layers -/

/-- What is done with a request, unless nobody answers it. -/
abbrev Layer := Request → Work (Option Response)

def shared (s : Sharing) (inner : Layer) : Layer := fun q =>
  match s.preflight? q with
  | some r => return some r
  | none => return (← inner q).map (s.mark q)

def hosts : List String := ["localhost", "127.0.0.1", "0.0.0.0"]

def Request.host (q : Request) : String :=
  .ofList (((q.header? "host").getD "").toList.takeWhile (· != ':'))

def checked (inner : Layer) : Layer := fun q =>
  if hosts.contains q.host then inner q else return some (.text 400 "Invalid host header")

/-- Notes in the answer how long it took and under which name the request was logged. -/
def logged (inner : Layer) : Layer := fun q => do
  let start ← Work.now
  let r ← inner q
  let time := Moment.secondsBetween start (← Work.now)
  return r.map (·.withHeaders [("x-process-time", (Value.real time).plain), ("x-request-id", q.id)])

def inside (s : Settings) : Layer :=
  logged (checked (shared { origins := s.origins } (dispatch routes)))

/-! ## The whole -/

/-- The desk with the counts of the limiter in front of it. -/
structure Site where
  desk : Desk
  limiter : Limiter := {}

namespace Site

/-- Hands a request to the layers inside the limiter. Afterwards only what is lasting is kept. -/
def enter (s : Site) (q : Request) : Site × Option Response :=
  let (result, d) := (inside s.desk.settings q).run s.desk
  ({ s with desk := { d with store := d.lasting } }, Outcome.getD result none)

def limitedPath (q : Request) : String :=
  .ofList (q.path.toList.takeWhile fun c => c != '?' && c != '#')

def clientOf (q : Request) : String :=
  Limiter.clientName q.client (q.header? "x-forwarded-for") (q.header? "x-real-ip")

def quotaHeaders (q : Limiter.Quota) : List (String × String) :=
  q.headers.map fun h => (Text.lowered h.1, h.2)

/-- Answers a request. A request of a client that is over its limit goes no further than the
limiter. -/
def serve (s : Site) (q : Request) : Site × Response :=
  if Limiter.exempt.contains (limitedPath q) then
    let (s, r) := s.enter q
    (s, q.sent (r.getD .errorPage))
  else
    let now := s.desk.now.seconds
    let client := clientOf q
    match s.limiter.accept now now client with
    | (l, false) => ({ s with limiter := l }, q.sent .errorPage)
    | (l, true) =>
      let (s, r) := { s with limiter := l }.enter q
      match r with
      | some r => (s, q.sent (r.withHeaders (quotaHeaders (l.quota now client))))
      | none => (s, q.sent .errorPage)

end Site

end ReviewDesk.Http
