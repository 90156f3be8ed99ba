import ReviewDesk.Desk

/-!
# Messages and routes

A route says at which path and by which method something is done, what the request has to bring, and
what is done. Routes are tried in order.
-/

namespace ReviewDesk.Http

/-!
## Requests and responses

A request has a target, of which the path is kept without escapes and the query as it was written.
Names of headers are in lower case.
-/

structure Request where
  method : String := "GET"
  path : String
  query : String := ""
  headers : List (String × String) := []
  body : String := ""
  client : Option String := none
  /-- The name that the request is logged under. -/
  id : String := ""

variable (q : Request)

def Request.header? (name : String) : Option String := q.headers.lookup name

/-! ## Targets -/

/-- Adds a segment to the segments before it: `.` stays in place and `..` goes back. -/
def step (done : List Chars) (segment : Chars) : List Chars :=
  if segment = ['.'] then done
  else if segment = ['.', '.'] then done.dropLast
  else done ++ [segment]

def withoutDots (path : Chars) : Chars :=
  let segments := path.splitOn '/'
  let kept := segments.foldl step []
  let kept := match path, kept with
    | '/' :: _, [] => [[]]
    | '/' :: _, s :: rest => if s.isEmpty then s :: rest else [] :: s :: rest
    | _, kept => kept
  let kept :=
    if segments.getLast? = some ['.'] || segments.getLast? = some ['.', '.'] then kept ++ [[]]
    else kept
  ['/'].intercalate kept

/-- A path after the name of a host, if the path starts with one. -/
def withoutHost : Chars → Chars
  | '/' :: '/' :: rest => rest.dropWhile (· != '/')
  | path => path

def splitTarget (target : String) : Chars × Chars :=
  let cs := target.toList.takeWhile (· != '#')
  let (path, query) := cs.span (· != '?')
  (withoutDots ('/' :: (withoutHost path).dropWhile (· == '/')), query.drop 1)

def Request.ofTarget (target : String) : Request :=
  let (path, query) := splitTarget target
  { path := .ofList (Web.unescaped path), query := .ofList query }

def Request.queryFields : List (String × String) := Web.formFields q.query.toList

/-- The address of another path on the host that a request was sent to. -/
def Request.addressOf (path : String) : String :=
  "http://" ++ (q.header? "host").getD "" ++ path ++ if q.query = "" then "" else "?" ++ q.query

/-! ## Responses -/

inductive Body where
  | empty
  | text (s : String)
  | json (v : Value)

structure Response where
  status : Nat
  headers : List (String × String) := []
  body : Body := .empty

namespace Response

def withHeader (r : Response) (name value : String) : Response :=
  { r with headers :=
      if r.headers.any (·.1 == name) then
        r.headers.map fun h => if h.1 == name then (name, value) else h
      else r.headers ++ [(name, value)] }

def withHeaders (r : Response) (headers : List (String × String)) : Response :=
  headers.foldl (fun r h => r.withHeader h.1 h.2) r

def json (status : Nat) (v : Value) : Response :=
  { status, headers := [("content-type", "application/json")], body := .json v }

def text (status : Nat) (s : String) : Response :=
  { status, headers := [("content-type", "text/plain; charset=utf-8")], body := .text s }

def page (title : String) : Response :=
  { status := 200, headers := [("content-type", "text/html; charset=utf-8")]
    body := .text ("<!DOCTYPE html>\n<html>\n<head>\n<title>" ++ title ++
      "</title>\n</head>\n</html>\n") }

def redirect (url : String) : Response := { status := 307, headers := [("location", url)] }

/-- What a client is told that asked for something that is not there or in a way that is not
possible. -/
def detail (status : Nat) (v : Value) : Response := json status (.object [("detail", v)])

def failure (status : Nat) (kind : String) (message : Value) : Response :=
  json status (.object [("error", .object
    [("message", message), ("type", .text kind), ("status_code", .ofNat status)])])

def errorPage : Response := failure 500 "internal_error" (.text "Internal server error")

/-- How a fault is told. Only faults that carry a status are. -/
def ofFault? : Fault → Option Response
  | .rejected status message _ => some (failure status "http_exception" message)
  | _ => none

end Response

/-- The response as it is sent: to `HEAD` there is no body. -/
def Request.sent (r : Response) : Response :=
  if q.method = "HEAD" then { r with body := .empty } else r

/-- A part of a path between two slashes: a word, or a hole that any text but none fills. -/
inductive Part where
  | word (w : String)
  | hole (name : String) (kind : Form.Kind)

/-- A value that stands in the query. One without a default must be given. -/
structure Parameter where
  name : String
  kind : Form.Kind
  default : Option Value := none

inductive Content where
  | ignored
  | object (f : Form)
  /-- The fields of a form in which somebody signs in. -/
  | login

/-- What a request brings, once it was read. -/
structure Given where
  values : Fields := []
  body : Filled := ⟨[], []⟩

def Given.get (g : Given) (name : String) : Value := (Fields.get? g.values name).getD .null

inductive Answer where
  | json (v : Value)
  | redirect (url : String)
  | page (title : String)
  /-- Rows where the interface promises objects of its own. They cannot be shown. -/
  | rows (v : Value)
  /-- A text with the repository that it is about, which the request itself may have changed. -/
  | about (text : String) (r : Option Repository) (changed : Bool)

/-- What is done, by anybody or only by a user who has signed in. -/
inductive Act where
  | anybody (f : Given → Work Answer)
  | user (f : User → Given → Work Answer)

/-- An answer as it is, whatever can be shown of it. -/
def Answer.value : Answer → Value
  | .json v | .rows v => v
  | .redirect url => .object [("status", .int 307), ("headers", .object [("location", .text url)])]
  | .page title => .text title
  | .about text r _ =>
    .object [("message", .text text), ("repository", .ofOption (fun r => .object r.report) r)]

structure Route where
  methods : List String
  parts : List Part
  query : List Parameter := []
  content : Content := .ignored
  act : Act

def Route.defaults (r : Route) : Fields := r.query.filterMap fun p => p.default.map (p.name, ·)

def Route.call (r : Route) (user : Option User) (g : Given) : Work Answer :=
  match r.act, user with
  | .anybody f, _ => f g
  | .user f, some u => f u g
  | .user _, none => throw (.noAttribute "nobody asks")

/-! ## Finding a route -/

/-- How the parts of a path fill the holes. A word that ends a path can be followed by a line end.
-/
def fill : List Part → List Chars → Option (List (String × String))
  | [], [] => some []
  | [.word w], [s] => if s = w.toList || s = w.toList ++ ['\n'] then some [] else none
  | .word w :: ps, s :: rest => if s = w.toList then fill ps rest else none
  | .hole name _ :: ps, s :: rest =>
    if s.isEmpty then none else (fill ps rest).map ((name, .ofList s) :: ·)
  | _, _ => none

def segments (path : String) : List Chars := (path.toList.splitOn '/').drop 1

def Route.fill? (r : Route) (path : String) : Option (List (String × String)) :=
  fill r.parts (segments path)

inductive Destination where
  | route (r : Route) (holes : List (String × String))
  | wrongMethod
  /-- The path with a slash added or removed leads somewhere. -/
  | elsewhere (path : String)
  | nowhere

/-- A path without the slashes at its end, or with one if it has none. -/
def otherPath (path : String) : String :=
  match path.toList.reverse with
  | '/' :: rest => .ofList (rest.dropWhile (· == '/')).reverse
  | _ => path ++ "/"

def destination (routes : List Route) (method path : String) : Destination :=
  let found := routes.findSome? fun r =>
    if r.methods.contains method then (r.fill? path).map (Destination.route r) else none
  match found with
  | some d => d
  | none =>
    if routes.any fun r => (r.fill? path).isSome then .wrongMethod
    else if path != "/" && routes.any fun r => (r.fill? (otherPath path)).isSome then .elsewhere
      (otherPath path)
    else .nowhere

/-!
## Reading what a request brings

The body is read first. What stands in the path, the query and the body is then brought to the kinds
that the route asks for, and all faults are told together.
-/

open Form (Reading)

/-- A body that was taken for what its type says. -/
inductive Payload where
  | nothing
  | value (v : Value)
  /-- Something that is no JSON. -/
  | bytes
  | fields (fs : List (String × String))

def contentType : Option String :=
  (q.header? "content-type").map fun t =>
    Text.lowered (.ofList (Text.trim (t.toList.takeWhile (· != ';'))))

/-- Whether a body says that it is JSON. One that says nothing is. -/
def isJson : Bool :=
  if (q.header? "content-type").getD "" = "" then true
  else
    match ((contentType q).getD "").splitOn "/" with
    | ["application", kind] => kind = "json" || kind.endsWith "+json"
    | _ => false

/-- The fields of a form that was sent. Fields are separated by `&`, or by `;` where no `&` follows.
A last name without a value is left out. -/
def sentFields : Nat → Chars → List (String × String)
  | 0, _ => []
  | fuel + 1, cs =>
    let cs := cs.dropWhile fun c => c = '&' || c = ';'
    if cs.isEmpty then []
    else
      let separator := if cs.contains '&' then '&' else ';'
      let (field, rest) := cs.span (· != separator)
      let (name, value) := field.span (· != '=')
      if value.isEmpty && rest.isEmpty then []
      else (Web.formText name, Web.formText (value.drop 1)) :: sentFields fuel rest

def bytesAsChars (s : String) : Chars :=
  (Text.utf8 s.toList).map fun b => Char.ofNat b.toNat

def notJson (text : Chars) (e : Json.Error) : FieldError :=
  { place := [.text "body", .ofNat e.position]
    message := e.message text
    kind := "value_error.jsondecode"
    context := some
      [("msg", .text e.problem.message), ("doc", .text (.ofList text)), ("pos", .ofNat e.position),
       ("lineno", .ofNat (Json.lineOf text e.position)),
       ("colno", .ofNat (Json.columnOf text e.position))] }

def unreadable : Fault := .denied 400 "There was an error parsing the body"

/-- The JSON value of a body. A mark of the byte order before it is skipped. -/
def readJson (body : String) : Outcome (Reading Payload) :=
  let text := match body.toList with
    | c :: rest => if c = Char.ofNat 0xFEFF then rest else c :: rest
    | [] => []
  match Json.read text with
  | .ok v => .ok (.ok (.value v))
  | .error e => if e.problem = .longNumber then .error unreadable else .ok (.error [notJson text e])

def readPayload (c : Content) (q : Request) : Outcome (Reading Payload) :=
  match c with
  | .ignored => .ok (.ok .nothing)
  | .login =>
    if contentType q = some "application/x-www-form-urlencoded" then
      .ok (.ok (.fields (sentFields (q.body.length + 1) (bytesAsChars q.body))))
    else .ok (.ok (.fields []))
  | .object _ =>
    if q.body = "" then .ok (.ok .nothing)
    else if isJson q then readJson q.body
    else .ok (.ok .bytes)

/-! ## Values -/

def readParameter (place : String) (p : Parameter) (given : Option String) : Outcome
    (Reading (String × Value)) := do
  let here : List Value := [.text place, .text p.name]
  match given, p.default with
  | none, some v => return .ok (p.name, v)
  | none, none => return .error [Form.missing here]
  | some s, _ =>
    let r ← p.kind.read here (.text s)
    return r.map fun v => (p.name, v)

def readParameters (place : String) (ps : List Parameter) (given : String → Option String) :
    Outcome (Reading Fields) := do
  let rs ← ps.mapM fun p => readParameter place p (given p.name)
  return Form.allOf rs

def holes (parts : List Part) : List Parameter :=
  parts.filterMap fun p => match p with
    | .word _ => none
    | .hole name kind => some { name, kind }

def lastValue? (fs : List (String × String)) (name : String) : Option String :=
  fs.reverse.lookup name

/-- How somebody wants to sign in, if it is said, is by a password. -/
def checkGrant (grant : Option String) : Reading Unit :=
  match grant with
  | some g =>
    if Text.begins g "password" then .ok ()
    else .error [{ place := [.text "body", .text "grant_type"], kind := "value_error.str.regex"
                   message := "string does not match regex \"password\""
                   context := some [("pattern", .text "password")] }]
  | none => .ok ()

/-- The name and the password of somebody who signs in. An empty field counts as missing. -/
def readLogin (fs : List (String × String)) : Reading Filled :=
  let field? (name : String) : Option String := (lastValue? fs name).filter (· != "")
  let field (name : String) : Reading (String × Value) :=
    match field? name with
    | some s => .ok (name, .text s)
    | none => .error [Form.missing [.text "body", .text name]]
  let fields :=
    Form.both (checkGrant (field? "grant_type")) (Form.both (field "username") (field "password"))
  fields.map fun r => { values := [r.2.1, r.2.2], given := ["username", "password"] }

def readContent (c : Content) (p : Payload) : Outcome (Reading Filled) :=
  let body : List Value := [.text "body"]
  match c, p with
  | .ignored, _ => .ok (.ok ⟨[], []⟩)
  | .login, .fields fs => .ok (readLogin fs)
  | .login, _ => .ok (readLogin [])
  | .object _, .nothing => .ok (.error [Form.missing body])
  | .object _, .value .null => .ok (.error [Form.missing body])
  | .object f, .value v =>
    match Form.pairs? v with
    | some ps => f.readAt body (ps.map fun p => (p.1.plain, p.2))
    | none => .ok (.error [Form.dictFault body])
  | .object _, _ => .ok (.error [Form.dictFault body])

def readGiven (r : Route) (filled : List (String × String)) (q : Request) (p : Payload) : Outcome
    (Reading Given) := do
  let path ← readParameters "path" (holes r.parts) (lastValue? filled)
  let query ← readParameters "query" r.query (lastValue? q.queryFields)
  let body ← readContent r.content p
  return (Form.both path (Form.both query body)).map fun (path, query, body) =>
    { values := path ++ query, body }

/-! ## Who asks -/

def bearer (q : Request) : Outcome String :=
  let (scheme, rest) := ((q.header? "authorization").getD "").toList.span (· != ' ')
  let token := rest.drop 1
  if scheme.isEmpty || token.isEmpty then .error (.denied 403 "Not authenticated")
  else if Text.lowered (.ofList scheme) = "bearer" then .ok (.ofList token)
  else .error (.denied 403 "Invalid authentication credentials")

end ReviewDesk.Http
