import ReviewDesk.Provider.Access
import ReviewDesk.Repositories.Basic
import ReviewDesk.Reviews.Report

/-!
# Requests
-/

namespace ReviewDesk.Api

open Work

/-!
## Registration and sign-in

Requests of visitors who want to become users, and of users who want tokens. A user shows an access
token with every other request and gets new tokens for a refresh token.
-/

structure Tokens where
  access : String
  refresh : String

def Tokens.report (t : Tokens) : Fields :=
  [("access_token", .text t.access), ("refresh_token", .text t.refresh),
   ("token_type", .text "bearer")]

def issueTokens (user : Int) : Work Tokens := do
  let policy := (← settings).tokens
  let subject := Value.intText user
  let t ← now
  let access ← ofOutcome (Token.issue policy .access subject t none)
  let refresh ← ofOutcome (Token.issue policy .refresh subject t none)
  return { access, refresh }

/-- The number that a subject stands for. -/
def numberOf (subject : String) : Outcome Value :=
  match Decimal.intOfText? subject.toList with
  | some n => .ok (.int n)
  | none => .error (.invalid ("invalid literal for int() with base 10: " ++ Text.quoted subject))

def unauthorized (detail : String) : Fault :=
  .rejected 401 (.text detail) (some [("WWW-Authenticate", .text "Bearer")])

def currentUser (token : String) : Work User := do
  match ← ofOutcome (Token.verify (← settings).tokens .access token (← now)) with
  | none => throw (unauthorized "Invalid authentication credentials")
  | some subject =>
    let id ← ofOutcome (numberOf subject)
    match ← query (Store.userById id) with
    | none => throw (.denied 401 "User not found")
    | some u => if u.isActive then return u else throw (.denied 401 "Inactive user")

def activeUser (u : User) : Outcome User :=
  if u.isActive then .ok u else .error (.denied 400 "Inactive user")

def superuser (u : User) : Outcome User :=
  if u.isSuperuser then .ok u else .error (.denied 403 "Not enough permissions")

/-! ## Passwords -/

def register (f : Filled) : Work User := do
  if (← Accounts.findByEmail (f.get "email")).isSome then
    throw (.denied 400 "Email already registered")
  if (← Accounts.findByUsername (f.get "username")).isSome then
    throw (.denied 400 "Username already taken")
  Accounts.register f

def badLogin : Fault := unauthorized "Incorrect email/username or password"

def login (name password : Value) : Work Tokens := do
  match ← Accounts.findByLogin name with
  | none => throw badLogin
  | some u =>
    if !(← ofOutcome (Accounts.passwordIs password u)) then throw badLogin
    if !u.isActive then throw (.denied 401 "Inactive user")
    discard (Accounts.stampLogin (.int u.id))
    issueTokens u.id

def refresh (token : String) : Work Tokens := do
  match ← ofOutcome (Token.verify (← settings).tokens .refresh token (← now)) with
  | none => throw (.denied 401 "Invalid refresh token")
  | some subject =>
    if subject = "" then throw (.denied 401 "Invalid refresh token")
    match ← Accounts.find (← ofOutcome (numberOf subject)) with
    | none => throw (.denied 401 "User not found or inactive")
    | some u =>
      if u.isActive then issueTokens u.id else throw (.denied 401 "User not found or inactive")

def message (text : String) : Fields := [("message", .text text)]

def changePassword (user : User) (f : Filled) : Work Fields := do
  if !(← ofOutcome (Accounts.passwordIs (f.get "current_password") user)) then
    throw (.denied 400 "Incorrect current password")
  discard (Accounts.setPassword (.int user.id) (f.get "new_password"))
  return message "Password updated successfully"

/-! ## Signing in at a host -/

def unsupported : Fault := .denied 400 "Unsupported OAuth provider"

def hostOf (provider : Value) : Outcome Provider :=
  match Provider.of? provider with
  | some p => .ok p
  | none => .error unsupported

def signInPage (s : Settings) (provider : Value) : Outcome Fields := do
  let p ← hostOf provider
  let shown (id : Option String) : String := id.getD "None"
  let url ← match p with
    | .github =>
      if (s.githubClientId.getD "") = "" then throw (.denied 500 "GitHub OAuth not configured")
      else pure ("https://github.com/login/oauth/authorize?client_id=" ++ shown s.githubClientId ++
        "&scope=user:email,repo")
    | .gitlab =>
      pure ("https://gitlab.com/oauth/authorize?client_id=" ++ shown s.gitlabClientId ++
        "&response_type=code&scope=read_user,read_repository")
    | .bitbucket => pure "https://bitbucket.org/site/oauth2/authorize?client_id=&response_type=code"
  return [("provider", .text p.name), ("auth_url", .text url),
    ("message", .text s!"Redirect to {p.name} for authentication")]

def signInStatus (s : Settings) (provider : Value) : Outcome Fields := do
  let p ← hostOf provider
  let id := match p with
    | .github => s.githubClientId
    | .gitlab => s.gitlabClientId
    | .bitbucket => none
  return [("provider", .text p.name), ("configured", .bool (p.credentials s).isSome),
          ("client_id", .ofText? id)]

/-- What a host tells about somebody who came from its page with a code. -/
structure Arrival where
  provider : Provider
  code : Value
  /-- The address that the host was told to send visitors to. -/
  address : String
  keepsToken : Bool

def visitorOf (a : Arrival) : Work Accounts.Visitor := do
  let p := a.provider
  let token ← match p with
    | .github => web (p.exchange (← settings) a.code none)
    | .gitlab => web (p.exchange (← settings) a.code (some (.text a.address)))
    | .bitbucket => throw (.denied 400 "OAuth callback not implemented for bitbucket")
  if !token.truthy then throw (.denied 400 "Failed to get access token from OAuth provider")
  let info ← web (Provider.profile (.text p.name) token)
  if !info.truthy then throw (.denied 400 "Failed to get user info from OAuth provider")
  let id := (← ofOutcome (info.item "id")).plain
  let email ← ofOutcome (info.item "email")
  let username :=
    ((info.get? "login").orElse fun _ => info.get? "username").getD (.text s!"{p.name}_user_{id}")
  return { provider := .text p.name, identity := .text id, email, username,
           fullName := info.getD "name"
           avatarUrl := info.getD "avatar_url"
           accessToken := if a.keepsToken && p == .github then token else .null }

def arrive (a : Arrival) : Work Tokens := do
  let visitor ← visitorOf a
  issueTokens (← Accounts.signIn visitor).id

def finishSignIn (provider code : Value) : Work Tokens := do
  let p ← ofOutcome (hostOf provider)
  tryCatch (arrive { provider := p, code, address := "http://localhost:8000/oauth/callback",
                     keepsToken := false })
    fun fault => throw (.denied 400 ("OAuth authentication failed: " ++ fault.message))

/-- The page that a visitor is sent on to after signing in at a host. -/
def signInRedirect (provider code : Value) : Work String := do
  let p ← ofOutcome (hostOf provider)
  let url ← tryCatch (do
      let t ← arrive { provider := p, code,
                       address := "http://localhost:8000/api/auth/callback/gitlab",
                       keepsToken := true }
      let tokens := s!"access_token={t.access}&refresh_token={t.refresh}"
      return s!"http://localhost:3000/auth/callback?{tokens}&provider={p.name}&success=true")
    fun fault => do
      let reason := fault.message
      let query := s!"error=oauth_failed&provider={p.name}&message={reason}"
      return "http://localhost:3000/auth/login?" ++ query
  return Web.quotedUrl url

/-!
## Requests about repositories

A user sees and changes the repositories that the user has connected. Their hosts are asked with the
token that the user's preferences keep.
-/

/-! ## The hosts of repositories

Every call for a user first reads the user's preferences.
-/

def preferencesOf (user : Int) : Work (Option Value) := do
  return (← query (Store.userById (.int user))).map (·.preferences)

def hostRepositories (provider : Value) (user : Int) : Work (List Value) := do
  web (Provider.userRepositories provider (← preferencesOf user))

def hostDetails (provider id : Value) (user : Int) : Work Fields := do
  web (Provider.userRepositoryDetails provider id (← preferencesOf user))

def hostBranches (provider id : Value) (user : Int) : Work (List Value) := do
  web (Provider.userBranches provider id (← preferencesOf user))

def addHook (provider id url : Value) (user : Int) : Work Value := do
  web (Provider.addUserHook provider id url (← preferencesOf user))

/-! ## Reading -/

def notFound (what : String) : Fault := .denied 404 (what ++ " not found")

variable (user : User) (id : Value)

def ownRepository : Work Repository := do
  match ← Repositories.findOwned id (.int user.id) with
  | some r => return r
  | none => throw (notFound "Repository")

def repositoryWithFigures : Work Fields := do
  match ← Repositories.withFigures id (.int user.id) with
  | some fs => return fs
  | none => throw (notFound "Repository")

def isConnected (connected : List Repository) (id : Value) : Bool :=
  connected.any fun r => r.externalId != "" && r.externalId == id.plain

/-- The repositories of a user at the host, with a mark on those that are connected. The marks are
made by the first hundred connected ones. -/
def availableRepositories : Work (List Value) := do
  if user.githubId.getD "" = "" then
    throw (.denied 400 "GitHub account not connected. Please login with GitHub first.")
  tryCatch (do
      let found ← hostRepositories (.text "github") user.id
      let connected ←
          Repositories.list (.int user.id) { provider := .text "github" } (.int 0) (.int 100)
      found.mapM fun r => do
        let id ← ofOutcome (r.item "id")
        return .object (Fields.set (r.fields?.getD []) "is_connected"
          (.bool (isConnected connected id))))
    fun _ => throw (.denied 500 "Failed to fetch GitHub repositories. Please try again.")

def branches : Work Fields := do
  let r ← ownRepository user id
  tryCatch
    (do return [("branches",
      .list (← hostBranches (.text r.provider) (.text r.externalId) user.id))])
    fun _ => throw (.denied 500 "Failed to fetch repository branches")

/-! ## Connecting -/

def describedForm (provider : String) (url flag : String) (info : Fields) : Outcome Filled := do
  let item (key : String) : Outcome Value := (Value.object info).item key
  let other (key : String) (default : Value) : Value := (Fields.get? info key).getD default
  let name ← item "name"
  let fullName ← item "full_name"
  let address ← item url
  let cloneUrl ← item "clone_url"
  let id ← item "id"
  Form.repositoryCreate.read (.object
    [("name", name), ("full_name", fullName), ("description", other "description" .null),
     ("url", address), ("clone_url", cloneUrl),
     ("default_branch", other "default_branch" (.text "main")),
     ("language", other "language" .null), ("is_private", other flag (.bool false)),
     ("provider", .text provider), ("external_id", .text id.plain)])

/-- Asks the host to tell about changes. That this fails does no harm. -/
def tryHook (r : Repository) : Work Unit :=
  orElse (do
      let url := (← settings).baseUrl ++ "/api/v1/webhooks/github"
      let hook ← addHook (.text "github") (.text r.externalId) (.text url) user.id
      if hook.truthy then discard (Repositories.setWebhook (.int r.id) hook))
    ()

/-- Asks for a first analysis. That this fails does no harm. -/
def tryFirstAnalysis (r : Repository) : Work Unit :=
  orElse (discard (enqueue { name := "setup_repository_analysis", arguments := [.int r.id] })) ()

def asStored (r : Repository) : Work Repository := do
  return ((← get).store.repositories.find? (·.id == r.id)).getD r

def connectById (externalId : Value) : Work Repository := do
  if user.githubId.getD "" = "" then throw (.denied 400 "GitHub account not connected")
  tryCatch (do
      if (← Repositories.findConnected externalId (.text "github") (.int user.id)).isSome then
        throw (.denied 400 "Repository is already connected")
      let info ← hostDetails (.text "github") externalId user.id
      let form ← ofOutcome (describedForm "github" "html_url" "private" info)
      let r ← Repositories.connect form (.int user.id)
      tryHook user r
      tryFirstAnalysis r
      asStored r)
    fun fault => match fault with
      | .rejected .. => throw fault
      | _ => throw (.denied 500 "Failed to connect repository. Please try again.")

/-- Connects a repository by its address. The row is made before the host is asked to tell about
changes, and that request is made without the user whose token it needs. -/
def connectByUrl (f : Filled) : Work Repository := do
  let provider := f.text "provider"
  let info ←
      web (Provider.describeBy (.text provider) (f.get "repository_url") (f.get "access_token"))
  let form ← ofOutcome (describedForm provider "url" "is_private" info)
  discard (Repositories.connect form (.int user.id))
  throw (.mistyped "a hook is not added with a token")

/-! ## Changing -/

def updateRepository (f : Filled) : Work (Option Repository) := do
  let before ← ownRepository user id
  return (← Repositories.update id f).map (Accounts.seenAfter id before.id before)

def syncRepository : Work (Option Repository) := do
  let before ← ownRepository user id
  tryCatch (do
      let info ← hostDetails (.text before.provider) (.text before.externalId) user.id
      let item (key : String) : Outcome Value := (Value.object info).item key
      let other (key : String) (default : Value) : Value := (Fields.get? info key).getD default
      let name ← ofOutcome (item "name")
      discard (ofOutcome (item "full_name"))
      discard (ofOutcome (item "html_url"))
      let form ← ofOutcome (Form.repositoryUpdate.read (.object
        [("name", name), ("description", other "description" .null),
          ("default_branch", other "default_branch" (.text "main"))]))
      return (← Repositories.update id form).map (Accounts.seenAfter id before.id before))
    fun _ => throw (.denied 500 "Failed to sync repository metadata")

def disconnectRepository : Work Unit := do
  let r ← ownRepository user id
  if r.webhookId.getD "" != "" then
    orElse (discard (ofOutcome (Provider.removeUserHook (.text r.provider)))) ()
  discard (Repositories.disconnect id)

/-- Asks for an analysis of a repository. There is no job that does this, so that the request fails.
-/
def analyzeRepository : Work Fields := do
  let r ← ownRepository user id
  if r.analysisEnabled != some true then
    throw (.denied 400 "Analysis is disabled for this repository")
  throw (.denied 500 "Failed to start analysis. Please try again.")

/-!
## Requests about reviews

A user sees and changes the reviews of the repositories that the user has connected.
-/

def ownReview : Work Review := do
  match ← Reviews.findOwned id (.int user.id) with
  | some r => return r
  | none => throw (notFound "Review")

def detailedReview : Work Reviews.Detailed := do
  match ← Reviews.findDetailed id (.int user.id) with
  | some r => return r
  | none => throw (notFound "Review")

/-! ## New reviews -/

def repositoryFor : Work Repository := do
  match ← Reviews.repository id with
  | some r =>
    if Value.same (.int user.id) r.ownerId then return r else throw (notFound "Repository")
  | none => throw (notFound "Repository")

/-- Asks for the analysis of a review. That this fails does no harm. -/
def tryAnalysis (review repository : Int) : Work Unit :=
  orElse (discard (enqueue
    { name := "analyze_code_changes"
      options := [("review_id", .int review), ("repository_id", .int repository)] })) ()

/-- Makes a review and asks for its analysis if the repository wants any. A repository that is not
the user's is told as a failure. -/
def createReview (f : Filled) : Work Fields := do
  let (summary, analysis) ← tryCatch (do
      let repository ← repositoryFor user (f.get "repository_id")
      let review ← Reviews.create f (.int user.id)
      let summary ← ofOutcome (Form.reviewSummary.read (.object (Reviews.summaryFields review)))
      let wanted := repository.analysisEnabled == some true
      return (summary.values, if wanted then some (review.id, repository.id) else none))
    fun fault => match fault with
      | .invalid message => throw (.denied 400 message)
      | .invalidFields _ => throw (.denied 400 fault.message)
      | _ => throw (.denied 500 "Failed to create review")
  match analysis with
  | some (review, repository) => tryAnalysis review repository
  | none => pure ()
  return summary

def analysisForm (request : Filled) (repository : Repository) : Outcome Filled :=
  let branch := request.get "branch"
  let shown := (if branch.truthy then branch else .ofText? repository.defaultBranch).plain
  Form.reviewCreate.read (.object
    [("title", .text ("AI Analysis - " ++ shown)),
     ("description", .text "Automated AI-powered code analysis"),
     ("repository_id", request.get "repository_id"), ("source_branch", branch)])

def startAnalysis (request : Filled) : Work Fields :=
  tryCatch (do
      let repository ← repositoryFor user (request.get "repository_id")
      let form ← ofOutcome (analysisForm request repository)
      let review ← Reviews.create form (.int user.id)
      let task ← orElse (do
          let id ← enqueue
            { name := "analyze_code_changes"
              options := [("review_id", .int review.id), ("repository_id", .int repository.id),
                ("commit_sha", request.get "commit_sha"), ("files", request.get "files"),
                ("rules", request.get "rules")] }
          return some id)
        none
      return [("review_id", .int review.id), ("task_id", .ofText? task),
              ("message", .text "Analysis started"), ("estimated_time", .text "2-5 minutes")])
    fun _ => throw (.denied 500 "Failed to start analysis")

/-! ## Existing reviews -/

def updateReview (f : Filled) : Work (Option Review) := do
  let before ← ownReview user id
  return (← Reviews.update id f).map (Accounts.seenAfter id before.id before)

def deleteReview : Work Unit := do
  discard (ownReview user id)
  discard (Reviews.remove id)

def reviewProgress : Work Fields := do
  discard (ownReview user id)
  Reviews.progress id

def reviewIssues (f : Issues.Filter) : Work (List Issue) := do
  discard (ownReview user id)
  Issues.list id f

def updateIssue (f : Filled) : Work (Option Issue) := do
  match ← Issues.find id with
  | none => throw (notFound "Issue")
  | some before =>
    if (← Reviews.findOwned (.int before.reviewId) (.int user.id)).isNone then
      throw (.denied 403 "Not authorized to update this issue")
    return (← Issues.update id f).map (Accounts.seenAfter id before.id before)

def reviewComments : Work (List Comment) := do
  discard (ownReview user id)
  Comments.list id

def addReviewComment (f : Filled) : Work Comment := do
  discard (ownReview user id)
  Comments.create f (.int user.id) id

def requestSummary : Work Fields := do
  discard (ownReview user id)
  let job : Job := { name := "generate_review_summary", arguments := [id] }
  let task ← orElse (do return some (← enqueue job)) none
  return [("message", .text "Summary generation started"), ("task_id", .ofText? task),
          ("review_id", id)]

end ReviewDesk.Api
