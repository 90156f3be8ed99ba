import ReviewDesk.Web.Basic
import ReviewDesk.Settings

/-!
# Repositories on their hosts

What a host says about a repository, its branches, and the repositories of a user.
-/

namespace ReviewDesk.Provider

open Web

/-! ## Reading what a host says -/

variable (p : Provider) (v : Value)

/-- The field `key`, or a default; the value must be an object. -/
def fieldOr (key : String) (default : Value) : Outcome Value :=
  match v with
  | .object fs => .ok ((Fields.get? fs key).getD default)
  | v => .error (.noAttribute s!"'{v.kindName}' object has no attribute 'get'")

def firstItem : Outcome Value :=
  match v with
  | .list (x :: _) => .ok x
  | .list [] => .error (.outOfRange "list index out of range")
  | .text s =>
    match s.toList with
    | c :: _ => .ok (.text (.ofList [c]))
    | [] => .error (.outOfRange "string index out of range")
  | .object _ => .error (.missingIndex 0)
  | v => .error (.mistyped s!"'{v.kindName}' object is not subscriptable")

def withoutBraces : Outcome Value := do
  let isBrace (c : Char) : Bool := c = '\x7b' || c = '\x7d'
  let cs := (← v.textOf "strip").toList
  return .text (.ofList ((cs.dropWhile isBrace).reverse.dropWhile isBrace).reverse)

def pick (keys : List (String × String)) : Outcome Fields :=
  keys.mapM fun (name, key) => do return (name, ← v.item key)

def githubRepository : Outcome Fields := do
  let a ← pick v [("id", "id"), ("name", "name"), ("full_name", "full_name")]
  let b ← pick v [("url", "html_url"), ("clone_url", "clone_url"),
    ("default_branch", "default_branch")]
  let c ← pick v [("is_private", "private")]
  let owner ← (← v.item "owner").item "login"
  let d ← pick v [("created_at", "created_at"), ("updated_at", "updated_at")]
  return a ++ [("description", v.getD "description")] ++ b ++ [("language", v.getD "language")] ++
    c ++
    [("size", (v.get? "size").getD (.int 0)), ("owner", owner)] ++ d

def gitlabRepository : Outcome Fields := do
  let id ← v.item "id"
  let a ← pick v [("name", "name"), ("full_name", "path_with_namespace")]
  let b ← pick v [("url", "web_url"), ("clone_url", "http_url_to_repo"),
    ("default_branch", "default_branch")]
  let visibility ← v.item "visibility"
  let c ← pick v [("created_at", "created_at"), ("updated_at", "last_activity_at")]
  return [("id", .text id.plain)] ++ a ++ [("description", v.getD "description")] ++ b ++
    [("language", .null), ("is_private", .bool (visibility.same (.text "private"))),
     ("size", .int 0)] ++ c

def bitbucketRepository : Outcome Fields := do
  let id ← withoutBraces (← v.item "uuid")
  let a ← pick v [("name", "name"), ("full_name", "full_name")]
  let url ← (← (← v.item "links").item "html").item "href"
  let clone ← (← firstItem (← (← v.item "links").item "clone")).item "href"
  let branch ← fieldOr (← fieldOr v "mainbranch" (.object [])) "name" (.text "main")
  let b ← pick v [("is_private", "is_private")]
  let c ← pick v [("created_at", "created_on"), ("updated_at", "updated_on")]
  return [("id", id)] ++ a ++ [("description", v.getD "description"), ("url", url),
    ("clone_url", clone), ("default_branch", branch), ("language", v.getD "language")] ++ b ++
      [("size", (v.get? "size").getD (.int 0))] ++ c

def readRepository : Outcome Fields :=
  match p with
  | github => githubRepository v
  | gitlab => gitlabRepository v
  | bitbucket => bitbucketRepository v

/-! ## Asking a host -/

def networkFault : Fault :=
  let t := p.title
  .invalid s!"Network error connecting to {t}"

def notFound : Fault := .invalid "Repository not found or access denied"

def apiFault (r : Response) : Fault :=
  let t := p.title
  let status := Value.intText r.status
  let text := r.text
  .invalid s!"{t} API error: {status} - {text}"

def describe (url token : Value) : Web Fields := do
  let target ← ofOutcome (p.repositoryUrlOf url)
  let reply ← ask { method := "GET", url := target, headers := some (p.headers token) }
  let r ← ofOutcome (reply.received p.networkFault)
  if r.status = 404 then throw notFound
  if r.status = 403 &&
    p = github then throw (.invalid "Rate limit exceeded or insufficient permissions")
  if r.status != 200 then throw (p.apiFault r)
  ofOutcome (do readRepository p (← r.data))

def describeBy (provider url token : Value) : Web Fields := do
  match of? provider with
  | some p => p.describe url token
  | none => throw (.invalid s!"Unsupported provider: {provider.plain}")

/-! ## Branches -/

def readBranch : Outcome Value := do
  let name ← v.item "name"
  match p with
  | github =>
    let sha ← (← v.item "commit").item "sha"
    let url ← (← v.item "commit").item "url"
    return .object [("name", name), ("protected", (v.get? "protected").getD (.bool false)),
      ("default", .bool false), ("commit_sha", sha), ("commit_url", url)]
  | gitlab =>
    let sha ← (← v.item "commit").item "id"
    let url ← (← v.item "commit").item "web_url"
    return .object [("name", name), ("protected", (v.get? "protected").getD (.bool false)),
      ("default", (v.get? "default").getD (.bool false)), ("commit_sha", sha), ("commit_url", url)]
  | bitbucket =>
    let sha ← (← v.item "target").item "hash"
    let url ← (← (← (← v.item "target").item "links").item "html").item "href"
    return .object [("name", name), ("protected", .bool false),
      ("default", (v.get? "default").getD (.bool false)), ("commit_sha", sha), ("commit_url", url)]

def branchesUrl (repository : String) : String :=
  match p with
  | github => "https://api.github.com/repos/" ++ repository ++ "/branches"
  | gitlab => "https://gitlab.com/api/v4/projects/" ++ repository ++ "/repository/branches"
  | bitbucket => "https://api.bitbucket.org/2.0/repositories/" ++ repository ++ "/refs/branches"

def readBranches : Outcome (List Value) := do
  let vs ← match p with
    | bitbucket => (← fieldOr v "values" (.list [])).items
    | _ => v.items
  vs.mapM p.readBranch

/-- The branches of a repository; none if anything goes wrong. -/
def branches (repository token : Value) : Web (List Value) := do
  let reply ← ask { method := "GET", url := p.branchesUrl repository.plain,
                    headers := some (p.headers token) }
  match reply with
  | .response r =>
    if r.status = 200 then return Outcome.getD (do p.readBranches (← r.data)) [] else return []
  | _ => return []

/-! ## Repositories of a user -/

def readListed : Outcome Fields := do
  let a ← pick v [("id", "id"), ("name", "name"), ("full_name", "full_name")]
  let b ← pick v [("html_url", "html_url"), ("clone_url", "clone_url"),
    ("default_branch", "default_branch")]
  let c ← pick v [("private", "private")]
  let d ← pick v [("created_at", "created_at"), ("updated_at", "updated_at")]
  let login ← (← v.item "owner").item "login"
  let avatar ← (← v.item "owner").item "avatar_url"
  let count (key : String) : String × Value := (key, (v.get? key).getD (.int 0))
  return a ++ [("description", v.getD "description")] ++ b ++ [("language", v.getD "language")] ++
    c ++
    [count "size", count "stargazers_count", count "watchers_count", count "forks_count",
     count "open_issues_count"] ++
    d ++ [("pushed_at", v.getD "pushed_at"),
          ("owner", .object [("login", login), ("avatar_url", avatar)]),
          ("permissions", (v.get? "permissions").getD (.object []))]

/-- The statuses that a listing or a description of this host explains. -/
def checkStatus (r : Response) : Outcome Unit :=
  if r.status = 401 then .error (.invalid "GitHub access token is invalid or expired")
  else if r.status = 403 then .error (.invalid "GitHub API rate limit exceeded")
  else .ok ()

def pageSize : Nat := 100

def mostPages : Nat := 100

def pageUrl (page : Nat) : String :=
  s!"https://api.github.com/user/repos?page={page}&per_page=100&sort=updated&affiliation=owner,collaborator"

def listPage (token : Value) (page : Nat) : Web (List Value) := do
  let reply ←
      ask { method := "GET", url := pageUrl page, headers := some (github.signedHeaders token) }
  let r ← ofOutcome (reply.received github.networkFault)
  ofOutcome (checkStatus r)
  if r.status != 200 then throw (github.apiFault r)
  let data ← ofOutcome r.data
  if data.truthy then
    ofOutcome (do (← data.items).mapM fun v => do
      return .object ((← readListed v) ++ [("is_connected", .bool false)]))
  else return []

/-- The repositories of the pages from `page` on, of which at most `most` are asked for. A page that
is not full is the last. -/
def listFrom (token : Value) : Nat → Nat → Web (List Value)
  | 0, _ => return []
  | most + 1, page => do
    let found ← listPage token page
    if found.length < pageSize then return found
    else return found ++ (← listFrom token most (page + 1))

def listRepositories (token : Value) : Web (List Value) := listFrom token mostPages 1

def repositoryDetails (id token : Value) : Web Fields := do
  let reply ← ask { method := "GET", url := "https://api.github.com/repositories/" ++ id.plain,
                    headers := some (github.signedHeaders token) }
  let r ← ofOutcome (reply.received github.networkFault)
  ofOutcome (checkStatus r)
  if r.status = 404 then throw notFound
  if r.status != 200 then throw (github.apiFault r)
  ofOutcome (do readListed (← r.data))

/-! ## Tokens in the preferences of a user -/

def preferencesOf (user : Option Value) : Outcome Value :=
  match user with
  | some prefs =>
    if prefs.truthy then .ok prefs else .error (.invalid "User not found or no stored preferences")
  | none => .error (.invalid "User not found or no stored preferences")

def storedToken (prefs : Value) : Outcome Value := do
  let token ← fieldOr prefs p.tokenKey .null
  if token.truthy then return token
  else
    let t := p.title
    throw (.invalid s!"{t} access token not found. Please re-authenticate with {t}.")

def userRepositories (provider : Value) (user : Option Value) : Web (List Value) := do
  let prefs ← ofOutcome (preferencesOf user)
  match of? provider with
  | some .github => listRepositories (← ofOutcome (storedToken .github prefs))
  | _ => throw (.invalid s!"Provider {provider.plain} not supported for repository listing")

def userRepositoryDetails (provider id : Value) (user : Option Value) : Web Fields := do
  let prefs ← ofOutcome (preferencesOf user)
  match of? provider with
  | some .github => repositoryDetails id (← ofOutcome (storedToken .github prefs))
  | _ => throw (.invalid s!"Provider {provider.plain} not supported for repository details")

def userBranches (provider repository : Value) (user : Option Value) : Web (List Value) := do
  let prefs ← ofOutcome (preferencesOf user)
  match of? provider with
  | some p => p.branches repository (← ofOutcome (storedToken p prefs))
  | none => return []

/-! ## Webhooks

A host is asked to call back on changes in a repository, or to stop.
-/

def hooksUrl (repository : String) : String :=
  match p with
  | github => "https://api.github.com/repos/" ++ repository ++ "/hooks"
  | gitlab => "https://gitlab.com/api/v4/projects/" ++ repository ++ "/hooks"
  | bitbucket => "https://api.bitbucket.org/2.0/repositories/" ++ repository ++ "/hooks"

def hookBody (url : Value) : Value :=
  match p with
  | github =>
    .object [("name", .text "web"), ("active", .bool true),
      ("events", .ofTexts ["push", "pull_request", "pull_request_review"]),
      ("config", .object [("url", url), ("content_type", .text "json"),
        ("insecure_ssl", .text "0")])]
  | gitlab =>
    .object [("url", url), ("push_events", .bool true), ("merge_requests_events", .bool true),
      ("enable_ssl_verification", .bool true)]
  | bitbucket =>
    .object [("description", .text "AI Code Review Assistant Webhook"), ("url", url),
             ("active", .bool true),
             ("events", .ofTexts ["repo:push", "pullrequest:created", "pullrequest:updated"])]

def hookHeaders (token : Value) : Fields :=
  p.signedHeaders token ++ (match p with
    | bitbucket => [("Content-Type", .text "application/json")]
    | _ => [])

def readHook : Outcome Value := do
  match p with
  | bitbucket => withoutBraces (← v.item "uuid")
  | _ => return .text (← v.item "id").plain

/-- Sets up a webhook; null if that fails. -/
def addHook (repository url token : Value) : Web Value := do
  let reply ← ask { method := "POST", url := p.hooksUrl repository.plain,
                    headers := some (p.hookHeaders token),
                    json := some (p.hookBody url) }
  match reply with
  | .response r =>
    if r.status = 201 then return Outcome.getD (do p.readHook (← r.data)) .null else return .null
  | _ => return .null

def removeHook (repository hook token : Value) : Web Bool := do
  let reply ← ask { method := "DELETE", url := p.hooksUrl repository.plain ++ "/" ++ hook.plain,
                    headers := some (p.signedHeaders token) }
  match reply with
  | .response r => return r.status = 204
  | _ => return false

def addUserHook (provider repository url : Value) (user : Option Value) : Web Value := do
  match preferencesOf user with
  | .error _ => return .null
  | .ok prefs =>
    match of? provider with
    | none => return .null
    | some p =>
      let token ← ofOutcome (fieldOr prefs p.tokenKey .null)
      if token.truthy then p.addHook repository url token else return .null

/-- A webhook cannot be taken away without the name of its repository. -/
def removeUserHook (provider : Value) : Outcome Bool :=
  match of? provider with
  | some _ => .error (.mistyped "a hook is not removed without a token")
  | none => .ok false

/-!
## Signing in with a host

A code that a host gave out is exchanged for an access token, and a token for the profile of its
owner. Whatever goes wrong, the answer is null.
-/

/-- The data of a successful response, or null. -/
def dataOrNull (reply : Reply) (read : Value → Outcome Value) : Value :=
  match reply with
  | .response r => if r.status = 200 then Outcome.getD (do read (← r.data)) .null else .null
  | _ => .null

def credentials (s : Settings) : Option (String × String) :=
  let both (id secret : Option String) : Option (String × String) :=
    match id, secret with
    | some a, some b => if a = "" || b = "" then none else some (a, b)
    | _, _ => none
  match p with
  | github => both s.githubClientId s.githubClientSecret
  | gitlab => both s.gitlabClientId s.gitlabClientSecret
  | bitbucket => none

def tokenUrl : Provider → String
  | github => "https://github.com/login/oauth/access_token"
  | gitlab => "https://gitlab.com/oauth/token"
  | bitbucket => "https://bitbucket.org/site/oauth2/access_token"

def exchange (s : Settings) (code : Value) (redirect : Option Value) : Web Value := do
  match p.credentials s with
  | none => return .null
  | some (id, secret) =>
    let reply ← ask { method := "POST", url := p.tokenUrl,
                      headers := some [("Accept", .text "application/json")],
                      form := some
                        (.object ([("client_id", .text id), ("client_secret", .text secret),
                                   ("code", code)] ++
                        (redirect.map fun r => [("grant_type", .text "authorization_code"),
                          ("redirect_uri", r)]).getD [])) }
    return dataOrNull reply fun v => fieldOr v "access_token" .null

def profile (provider token : Value) : Web Value := do
  match of? provider with
  | some .github =>
    let reply ← ask { method := "GET", url := "https://api.github.com/user",
                      headers := some [github.authorization token,
                        ("Accept", .text "application/vnd.github.v3+json")] }
    return dataOrNull reply .ok
  | some .gitlab =>
    let reply ← ask { method := "GET", url := "https://gitlab.com/api/v4/user",
                      headers := some [gitlab.authorization token] }
    return dataOrNull reply .ok
  | _ => return .null

end ReviewDesk.Provider
