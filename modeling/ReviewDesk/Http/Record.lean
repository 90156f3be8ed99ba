import ReviewDesk.Http.Route

/-!
# Requests and responses that are described by objects
-/

namespace ReviewDesk.Http

def sentTexts : Value → List String
  | .null => [""]
  | .bool b => [if b then "true" else "false"]
  | .list vs => vs.map Value.plain
  | v => [v.plain]

def bodyOf (v : Value) : String × Option String :=
  match v.get? "json", v.getD "data", v.getD "content" with
  | some j, _, _ => (Json.write j, some "application/json")
  | none, .object fs, _ =>
    let sent := fs.flatMap fun f => (sentTexts f.2).map fun t => (f.1, t)
    (.ofList (Web.ofFormFields sent), some "application/x-www-form-urlencoded")
  | none, _, .text s => (s, none)
  | _, _, _ => ("", none)

/-- The request that an object describes. Headers that it names stand in place of those that every
request has. -/
def Request.ofRecord (v : Value) : Request :=
  let headers := v.getD "headers" |>.fields.map fun h => (Text.lowered h.1, h.2.plain)
  let (body, kind) := bodyOf v
  let others := [("host", "localhost")] ++ (kind.map fun k => [("content-type", k)]).getD []
  { Request.ofTarget ((v.getD "path").text?.getD "/") with
    method := Text.uppered ((v.getD "method").text?.getD "GET")
    headers := headers ++ others.filter fun h => !headers.any (·.1 == h.1)
    body
    client := some ((v.getD "client").text?.getD "127.0.0.1") }

def Body.value : Body → Value
  | .empty => .text ""
  | .text s => .text s
  | .json v => v

def headerFields (headers : List (String × String)) : Fields :=
  headers.map fun h => (h.1, .text h.2)

def Response.report (r : Response) : Value :=
  .object [("status", .ofNat r.status), ("headers", .object (headerFields r.headers)),
           ("body", r.body.value)]

end ReviewDesk.Http
