import ReviewDesk.Pattern.Basic
import ReviewDesk.Value.Basic

/-!
# Addresses and calls
-/

namespace ReviewDesk

namespace Web

/-! ## Addresses -/

structure Address where
  scheme : String
  host : String
  path : String
  deriving DecidableEq, Repr

def isSchemeChar (c : Char) : Bool := c.isAlphanum || c = '+' || c = '-' || c = '.'

def splitScheme (cs : Chars) : Chars × Chars :=
  match cs.span (· != ':') with
  | (before, _ :: after) =>
    match before.head? with
    | some c =>
      if c.isAlpha && before.all isSchemeChar then (before.map Char.toLower, after) else ([], cs)
    | none => ([], cs)
  | _ => ([], cs)

def paramSchemes : List String :=
  ["", "ftp", "hdl", "prospero", "http", "https", "shttp", "rtsp", "rtspu", "sip", "sips", "mms",
   "sftp", "tel"]

/-- The path without the parameters of its last part. -/
def withoutParams (path : Chars) : Chars :=
  let last := (path.reverse.takeWhile (· != '/')).reverse
  let before := path.take (path.length - last.length)
  before ++ last.takeWhile (· != ';')

/-- The parts of an address. An opening bracket in a host without a closing one, or the other way
round, is a fault. -/
def Address.ofText (s : String) : Outcome Address :=
  let cs := (s.toList.dropWhile (·.toNat ≤ 32)).filter fun c => c != '\t' && c != '\r' && c != '\n'
  let (scheme, rest) := splitScheme cs
  let (host, rest) := match rest with
    | '/' :: '/' :: r => r.span fun c => c != '/' && c != '?' && c != '#'
    | r => ([], r)
  if host.contains '[' != host.contains ']' then .error (.invalid "Invalid IPv6 URL")
  else
    let path := rest.takeWhile fun c => c != '#' && c != '?'
    let scheme := String.ofList scheme
    let path := if paramSchemes.contains scheme then withoutParams path else path
    .ok ⟨scheme, .ofList host, .ofList path⟩

/-! ## Escapes in addresses

A byte of an address that does not stand for itself is written as `%` with two hexadecimal digits.
-/

def hexDigit (n : Nat) : Char := Char.ofNat (if n < 10 then 48 + n else 55 + n)

def escapedByte (b : UInt8) : Chars := ['%', hexDigit (b.toNat / 16), hexDigit (b.toNat % 16)]

/-- A text in which the bytes of all characters are escaped but of those that are kept. -/
def escaped (keep : Char → Bool) (cs : Chars) : Chars :=
  cs.flatMap fun c => if keep c then [c] else (String.utf8EncodeChar c).flatMap escapedByte

/-- Characters that stand for themselves everywhere. -/
def isUnreserved (c : Char) : Bool := c.isAlphanum || c = '_' || c = '.' || c = '-' || c = '~'

/-- Characters that a whole address keeps. -/
def isAddressChar (c : Char) : Bool := isUnreserved c || ":/%#?=@[]!$&'()*+,;".toList.contains c

def quotedUrl (url : String) : String := .ofList (escaped isAddressChar url.toList)

/-- The bytes of a text with escapes. A `%` without two digits stands for itself. -/
def unescapedBytes : Chars → List UInt8
  | [] => []
  | '%' :: a :: b :: rest =>
    match Text.hexDigit? a, Text.hexDigit? b with
    | some m, some n => (m * 16 + n).toUInt8 :: unescapedBytes rest
    | _, _ => 37 :: unescapedBytes (a :: b :: rest)
  | c :: rest => String.utf8EncodeChar c ++ unescapedBytes rest

/-- The text that a text with escapes stands for. Bytes that are no text are replaced. -/
def unescaped (cs : Chars) : Chars := Text.ofUtf8Marked (unescapedBytes cs)

/-- The text of a form: a `+` stands for a blank. -/
def formText (cs : Chars) : String :=
  .ofList (unescaped (cs.map fun c => if c = '+' then ' ' else c))

def formFields (cs : Chars) : List (String × String) :=
  let parts := (cs.splitOn '&').filter (!·.isEmpty)
  parts.map fun p =>
    let (name, rest) := p.span (· != '=')
    (formText name, formText (rest.drop 1))

def ofFormFields (fs : List (String × String)) : Chars :=
  let part (s : String) : Chars :=
    (escaped (fun c => isUnreserved c || c = ' ') s.toList).map fun c => if c = ' ' then '+' else c
  ['&'].intercalate (fs.map fun f => part f.1 ++ '=' :: part f.2)

/-!
## Calls to other services

A call is sent over a wire that remembers all calls. The service at the other end is a function from
the number of a call and the call itself to its reply.
-/

structure Call where
  method : String
  url : String
  headers : Option Fields := none
  json : Option Value := none
  form : Option Value := none

def Call.close : Call := { method := "CLOSE", url := "" }

def Call.report (c : Call) : Value :=
  .object ([("method", .text c.method)] ++ (if c.url = "" then [] else [("url", .text c.url)]) ++
    (c.headers.map fun h => [("headers", .object h)]).getD [] ++
      (c.json.map fun j => [("json", j)]).getD [] ++
    (c.form.map fun d => [("data", d)]).getD [])

structure Response where
  status : Int
  text : String := ""
  json : Option Value := none

def Response.data (r : Response) : Outcome Value :=
  match r.json with
  | some v => .ok v
  | none => .error (.badJson "Expecting value: line 1 column 1 (char 0)")

inductive Reply where
  | response (r : Response)
  | unreachable
  /-- The call fails for another reason. -/
  | broken

/-- The data that a response is described by: given as they are, or as copies of an object with
numbers of their own. -/
def dataOf (v : Value) : Option Value :=
  match v.get? "items", v.get? "count" with
  | some (.object fs), some (.int n) =>
    some (.list ((List.range n.toNat).map fun i => .object (Fields.set fs "id" (.ofNat (i + 1)))))
  | _, _ => v.get? "json"

def Reply.ofRecord (v : Value) : Reply :=
  match v.get? "raise", v.getD "status" with
  | some (.text "network"), _ => .unreachable
  | some _, _ => .broken
  | none, .int status =>
    .response { status, text := (v.getD "text").text?.getD "", json := dataOf v }
  | none, _ => .response { status := 0, text := (v.getD "text").text?.getD "", json := dataOf v }

structure Wire where
  respond : Nat → Call → Reply
  asked : List Call := []

/-- Nobody answers any more. -/
def lastResponse : Response := { status := 599, text := "no response left" }

/-- A service that gives prepared replies one after the other. -/
def Wire.ofReplies (rs : List Reply) : Wire :=
  { respond := fun n _ => rs.getD n (.response lastResponse) }

def Wire.report (w : Wire) : Value := .list (w.asked.map (·.report))

end Web

/-- Work that makes calls and can fail; the calls made before a fault are kept. -/
abbrev Web := ExceptT Fault (StateM Web.Wire)

namespace Web

def ask (c : Call) : Web Reply := do
  let w ← get
  set { w with asked := w.asked ++ [c] }
  return w.respond w.asked.length c

/-- The response of a reply; `unreached` is the fault if there was no service. -/
def Reply.received (unreached : Fault) : Reply → Outcome Response
  | .response r => .ok r
  | .unreachable => .error unreached
  | .broken => .error (.failed "broken")

def ofOutcome {α : Type} (x : Outcome α) : Web α :=
  match x with
  | .ok a => pure a
  | .error f => throw f

def run {α : Type} (x : Web α) (w : Wire) : Outcome α × Wire := StateT.run (ExceptT.run x) w

end Web

/-!
## Hosts of repositories

Three services that host repositories, the headers their programs expect, and the address at which
each of them describes a repository.
-/

inductive Provider where
  | github
  | gitlab
  | bitbucket
  deriving DecidableEq, Repr

namespace Provider

def name : Provider → String
  | github => "github"
  | gitlab => "gitlab"
  | bitbucket => "bitbucket"

def title : Provider → String
  | github => "GitHub"
  | gitlab => "GitLab"
  | bitbucket => "Bitbucket"

def all : List Provider := [github, gitlab, bitbucket]

def of? (v : Value) : Option Provider := v.text?.bind fun s => all.find? (·.name == s)

variable (p : Provider)

def tokenKey : String := p.name ++ "_access_token"

/-! ## Headers -/

def agent : String × Value := ("User-Agent", .text "AI-Code-Review-Assistant")

def authorization (token : Value) : String × Value :=
  let t := token.plain
  ("Authorization", .text (match p with
    | github => s!"token {t}"
    | _ => s!"Bearer {t}"))

def headers (token : Value) : Fields :=
  (match p with
    | github => [("Accept", .text "application/vnd.github.v3+json"), agent]
    | _ => [agent]) ++ (if token.truthy then [p.authorization token] else [])

def signedHeaders (token : Value) : Fields :=
  (match p with
    | github => [("Accept", .text "application/vnd.github.v3+json"), agent]
    | _ => [agent]) ++ [p.authorization token]

/-! ## Addresses -/

def ownerAndName? (start : String) (url : Chars) : Option (Chars × Chars) :=
  if Text.startsWith start.toList url then
    match (url.drop start.length).span (· != '/') with
    | (owner, _ :: rest) =>
      let name := rest.takeWhile (· != '/')
      if owner.isEmpty || name.isEmpty then none else some (owner, name)
    | _ => none
  else none

def withoutGit (s : String) : String := Text.replaceText s ".git" ""

def invalidUrl : Fault :=
  let t := p.title
  .invalid s!"Invalid {t} repository URL"

/-- The address at which a host with fixed addresses describes a repository. -/
def fixedUrl (start root url : String) : Outcome String :=
  match ownerAndName? start url.toList with
  | some (owner, name) =>
    .ok (root ++ "/" ++ String.ofList owner ++ "/" ++ withoutGit (.ofList name))
  | none => .error p.invalidUrl

def withoutSlashes (cs : Chars) : Chars :=
  ((cs.dropWhile (· = '/')).reverse.dropWhile (· = '/')).reverse

/-- The address of a project on any host of this kind; slashes in the path are encoded. -/
def projectUrl (url : String) : Outcome String := do
  let a ← Web.Address.ofText url
  if Text.contains a.host "gitlab" then
    let path := withoutGit (.ofList (withoutSlashes a.path.toList))
    return "https://" ++ a.host ++ "/api/v4/projects/" ++ Text.replaceText path "/" "%2F"
  else throw gitlab.invalidUrl

def repositoryUrl (url : String) : Outcome String :=
  match p with
  | github => p.fixedUrl "https://github.com/" "https://api.github.com/repos" url
  | gitlab => projectUrl url
  | bitbucket =>
    p.fixedUrl "https://bitbucket.org/" "https://api.bitbucket.org/2.0/repositories" url

def repositoryUrlOf (url : Value) : Outcome String :=
  match url, p with
  | .text s, _ => p.repositoryUrl s
  | v, gitlab =>
    if v.truthy then .error (.noAttribute "bytes are no text")
    else .error (.mistyped "bytes are no text")
  | _, _ => .error (.mistyped "an address is a text")

end Provider

end ReviewDesk
