import ReviewDesk.Analytics
import ReviewDesk.Api.Requests
import ReviewDesk.Http.Route

/-!
# The routes of the service
-/

namespace ReviewDesk

namespace Api

/-! ## Answers that are always the same -/

def endpoints : List (String × Value) :=
  ["auth", "users", "repositories", "reviews", "analytics", "integrations",
   "webhooks"].map fun name =>
    (name, .text ("/api/v1/" ++ name))

def welcome (s : Settings) : Fields :=
  [("message", .text "AI Code Review Assistant API"), ("version", .text s.version),
   ("status", .text "running"),
    ("health", .text "/health"),
    ("api", .object [("docs", .text "/api/v1/docs"), ("redoc", .text "/api/v1/redoc"),
      ("openapi", .text "/api/v1/openapi.json"), ("v1", .text "/api/v1/")]),
    ("endpoints", .object endpoints)]

def apiWelcome : Fields :=
  [("message", .text "AI Code Review Assistant API v1"), ("version", .text "1.0.0"),
   ("status", .text "running"),
    ("endpoints", .object (endpoints ++ [("health", .text "/api/v1/health")])),
    ("docs", .object [("swagger", .text "/api/v1/docs"), ("redoc", .text "/api/v1/redoc"),
      ("openapi", .text "/api/v1/openapi.json")])]

def health (s : Settings) (now : Moment) : Fields :=
  [("status", .text "healthy"), ("timestamp", .real (Moment.secondsBetween ⟨0⟩ now)),
   ("version", .text s.version)]

def apiHealth : Fields := [("status", .text "healthy"), ("version", .text "1.0.0")]

end Api

namespace Http

open Api Form

/-! ## Writing routes -/

variable (parts : List Part) (act : Act)

def onGet : Route := { methods := ["GET"], parts, act }

def onPost : Route := { methods := ["POST"], parts, act }

def onPut : Route := { methods := ["PUT"], parts, act }

def onDelete : Route := { methods := ["DELETE"], parts, act }

def Route.taking (r : Route) (f : Form) : Route := { r with content := .object f }

def Route.asking (r : Route) (query : List Parameter) : Route := { r with query }

/-- Parts of a path below the root of the interface. -/
def api : List Part := .word "api" :: .word "v1" :: parts

def authPath : List Part := api (.word "auth" :: parts)

def reposPath : List Part := api (.word "repositories" :: parts)

def reviewsPath : List Part := api (.word "reviews" :: parts)

/-- The end of a path that has a slash at its end. -/
def root : List Part := [.word ""]

def repository : Part := .hole "repository_id" anInt

def review : Part := .hole "review_id" anInt

def provider : Part := .hole "provider" aText

def needed (name : String) : Parameter := { name, kind := aText }

def optional (name : String) (kind : Form.Kind) : Parameter := { name, kind, default := some .null }

def page : List Parameter :=
  [{ name := "skip", kind := .int (some 0) none, default := some (.int 0) },
    { name := "limit", kind := .int (some 1) (some 1000), default := some (.int 100) }]

/-! ## Answers -/

def shown (x : Work Fields) : Work Answer := do return .json (.object (← x))

def saying (text : String) : Work Answer := return .json (.object (message text))

/-- Rows, each as an object, where the interface promises something else. -/
def rowOf {α : Type} (report : α → Fields) (x : Work α) : Work Answer := do
  return .rows (.object (report (← x)))

def rowOf? {α : Type} (report : α → Fields) (x : Work (Option α)) : Work Answer := do
  return .rows (.ofOption (fun a => .object (report a)) (← x))

def rowsOf {α : Type} (report : α → Fields) (x : Work (List α)) : Work Answer := do
  return .rows (.list ((← x).map fun a => .object (report a)))

/-! ## Tables -/

def onDocs (parts : List Part) (a : Answer) : Route :=
  { methods := ["GET", "HEAD"], parts := api parts, act := .anybody fun _ => return a }

def docsRoutes : List Route :=
  [onDocs [.word "openapi.json"] (.json (.object [("openapi", .text "3.0.2")])),
    onDocs [.word "docs"] (.page "AI Code Review Assistant - Swagger UI"),
    onDocs [.word "docs", .word "oauth2-redirect"] (.page "Swagger UI: OAuth2 Redirect"),
    onDocs [.word "redoc"] (.page "AI Code Review Assistant - ReDoc")]

def entryRoutes : List Route :=
  [onGet [.word "health"] (.anybody fun _ => do
    return .json (.object (health (← Work.settings) (← Work.now)))),
    onGet root (.anybody fun _ => do return .json (.object (welcome (← Work.settings)))),
    (onGet [.word "api", .word "auth", .word "callback", provider]
      (.anybody fun g => do return .redirect (← signInRedirect (g.get "provider")
        (g.get "code")))).asking
      [needed "code", optional "state" aText],
    onGet (api root) (.anybody fun _ => shown (return apiWelcome))]

def authRoutes : List Route :=
  [(onPost (authPath [.word "register"])
      (.anybody fun g => rowOf (·.report) (register g.body))).taking userCreate,
    { onPost (authPath [.word "login"]) (.anybody fun g => shown do
        return (← login (g.body.get "username") (g.body.get "password")).report) with
      content := .login },
    (onPost (authPath [.word "refresh"]) (.anybody fun g => shown do
      return (← refresh (g.body.text "refresh_token")).report)).taking refreshTokenRequest,
    (onPost (authPath [.word "change-password"])
      (.user fun u g => shown (changePassword u g.body))).taking passwordChangeRequest,
    onPost (authPath [.word "logout"]) (.user fun _ _ => saying "Successfully logged out"),
    onGet (authPath [.word "oauth", provider]) (.anybody fun g => shown do
      Work.ofOutcome (signInPage (← Work.settings) (g.get "provider"))),
    (onPost (authPath [.word "oauth", provider, .word "callback"]) (.anybody fun g => shown do
      return (← finishSignIn (g.get "provider") (g.get "code")).report)).asking [needed "code"],
    onGet (authPath [.word "oauth", provider, .word "status"]) (.anybody fun g => shown do
      Work.ofOutcome (signInStatus (← Work.settings) (g.get "provider")))]

/-! ### Users -/

def Route.users : Route :=
  onGet (api (.word "users" :: root)) (.anybody fun _ => saying "Users endpoints")

/-- Tells users about themselves. -/
def Route.account : Route :=
  onGet (api [.word "users", .word "me"]) (.user fun u _ => shown
    (return message "Current user info" ++ [("user", .object u.report)]))

def Route.listUsers : Route :=
  onGet (api [.word "users", .word "list"])
    (.anybody fun _ => saying "List users endpoint - not implemented yet")

def userRoutes : List Route := [.users, .account, .listUsers]

/-! ### Repositories -/

def Route.listRepositories : Route :=
  (onGet (reposPath root) (.user fun u g => rowsOf (·.report)
    (Repositories.list (.int u.id) ⟨g.get "search", g.get "provider", g.get "is_active"⟩
      (g.get "skip") (g.get "limit")))).asking
    (page ++ [optional "search" aText, optional "provider" aText, optional "is_active" .flag])

def Route.listAvailable : Route :=
  onGet (reposPath [.word "github", .word "available"])
    (.user fun u _ => do return .json (.list (← availableRepositories u)))

def Route.connectListed : Route :=
  (onPost (reposPath [.word "github", .word "connect"]) (.user fun u g => do
    let r ← connectById u (g.get "external_id")
    return .about "Repository connected successfully"
      (some r) r.webhookId.isSome)).asking [needed "external_id"]

def Route.showRepository : Route :=
  onGet (reposPath [repository])
    (.user fun u g => rowOf id (repositoryWithFigures u (g.get "repository_id")))

def Route.connect : Route :=
  (onPost (reposPath [.word "connect"]) (.user fun u g => rowOf (·.report)
    (connectByUrl u g.body))).taking connectRepositoryRequest

def Route.changeRepository : Route :=
  (onPut (reposPath [repository]) (.user fun u g => rowOf? (·.report)
    (updateRepository u (g.get "repository_id") g.body))).taking repositoryUpdate

def Route.disconnect : Route :=
  onDelete (reposPath [repository]) (.user fun u g => do
    disconnectRepository u (g.get "repository_id")
    saying "Repository disconnected successfully")

def Route.analyze : Route :=
  (onPost (reposPath [repository, .word "analyze"]) (.user fun u g => shown
    (analyzeRepository u (g.get "repository_id")))).asking [optional "branch" aText]

def Route.listBranches : Route :=
  onGet (reposPath [repository, .word "branches"])
    (.user fun u g => shown (branches u (g.get "repository_id")))

def Route.sync : Route :=
  onGet (reposPath [repository, .word "sync"]) (.user fun u g => do
    return .about "Repository synced successfully"
      (← syncRepository u (g.get "repository_id")) true)

def repositoryRoutes : List Route :=
  [.listRepositories, .listAvailable, .connectListed, .showRepository, .connect, .changeRepository,
    .disconnect, .analyze, .listBranches, .sync]

/-! ### Reviews -/

def Route.listReviews : Route :=
  (onGet (reviewsPath root) (.user fun u g => do
    let rs ← Reviews.list (.int u.id) (g.get "repository_id") (g.get "status") (g.get "skip")
      (g.get "limit")
    return .json (.list (rs.map .object)))).asking
    (page ++ [optional "repository_id" anInt, optional "status" aText])

def Route.showReview : Route :=
  onGet (reviewsPath [review])
    (.user fun u g => rowOf (·.report) (detailedReview u (g.get "review_id")))

def Route.openReview : Route :=
  (onPost (reviewsPath root) (.user fun u g => shown (createReview u g.body))).taking reviewCreate

def Route.changeReview : Route :=
  (onPut (reviewsPath [review]) (.user fun u g => rowOf? (·.report)
    (updateReview u (g.get "review_id") g.body))).taking reviewUpdate

def Route.dropReview : Route :=
  onDelete (reviewsPath [review]) (.user fun u g => do
    deleteReview u (g.get "review_id")
    saying "Review deleted successfully")

def Route.orderAnalysis : Route :=
  (onPost (reviewsPath [.word "analyze"])
    (.user fun u g => shown (startAnalysis u g.body))).taking analysisRequest

def Route.showProgress : Route :=
  onGet (reviewsPath [review, .word "progress"])
    (.user fun u g => shown (reviewProgress u (g.get "review_id")))

def Route.listIssues : Route :=
  (onGet (reviewsPath [review, .word "issues"]) (.user fun u g => rowsOf (·.report)
    (reviewIssues u (g.get "review_id") ⟨g.get "severity", g.get "category",
      g.get "resolved"⟩))).asking
    [optional "severity" aText, optional "category" aText, optional "resolved" .flag]

def Route.changeIssue : Route :=
  (onPut (reviewsPath [.word "issues", .hole "issue_id" anInt])
    (.user fun u g => rowOf? (·.report)
      (updateIssue u (g.get "issue_id") g.body))).taking issueUpdate

def Route.listComments : Route :=
  onGet (reviewsPath [review, .word "comments"])
    (.user fun u g => rowsOf (·.report) (reviewComments u (g.get "review_id")))

def Route.addComment : Route :=
  (onPost (reviewsPath [review, .word "comments"]) (.user fun u g => rowOf (·.report)
    (addReviewComment u (g.get "review_id") g.body))).taking commentCreate

def Route.orderSummary : Route :=
  onPost (reviewsPath [review, .word "summary"])
    (.user fun u g => shown (requestSummary u (g.get "review_id")))

def reviewRoutes : List Route :=
  [.listReviews, .showReview, .openReview, .changeReview, .dropReview, .orderAnalysis,
    .showProgress, .listIssues, .changeIssue, .listComments, .addComment, .orderSummary]

/-! ### Figures, hosts and all routes -/

def analyticsRoutes : List Route :=
  let path (parts : List Part) : List Part := api (.word "analytics" :: parts)
  [onGet (path root) (.anybody fun _ => saying "Analytics API - AI Code Review Assistant"),
    onGet (path [.word "overview"]) (.user fun u _ => shown do
      return (← Analytics.overview u.id).report),
    onGet (path [.word "dashboard"]) (.user fun u _ => shown (Analytics.dashboard u.id)),
    onGet (path [.word "repositories"]) (.user fun u _ => shown (Analytics.repositoryPage u.id)),
    onGet (path [.word "performance"]) (.user fun u _ => shown (Analytics.performancePage u.id))]

def hostRoutes : List Route :=
  let integrations (parts : List Part) : List Part := api (.word "integrations" :: parts)
  let webhooks (parts : List Part) : List Part := api (.word "webhooks" :: parts)
  [onGet (integrations root) (.anybody fun _ => saying "Integrations endpoints"),
    onGet (integrations [.word "github"])
      (.user fun _ _ => saying "GitHub integration - not implemented yet"),
    onGet (integrations [.word "gitlab"])
      (.user fun _ _ => saying "GitLab integration - not implemented yet"),
    onGet (webhooks root) (.anybody fun _ => saying "Webhooks endpoints"),
    onPost (webhooks [.word "github"])
      (.anybody fun _ => saying "GitHub webhook received - not implemented yet"),
    onPost (webhooks [.word "gitlab"])
      (.anybody fun _ => saying "GitLab webhook received - not implemented yet"),
    onGet (api [.word "health"]) (.anybody fun _ => shown (return apiHealth))]

def routes : List Route :=
  docsRoutes ++ entryRoutes ++ authRoutes ++ userRoutes ++ repositoryRoutes ++ reviewRoutes ++
  analyticsRoutes ++ hostRoutes

end Http

end ReviewDesk
