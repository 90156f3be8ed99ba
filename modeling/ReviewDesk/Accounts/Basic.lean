import ReviewDesk.Desk
import ReviewDesk.Form.User

/-!
# Accounts

Finding, registering, changing and removing users. Addresses are stored in small letters and found
in any case; names are found as they are written.
-/

namespace ReviewDesk.Accounts

open Work Store

def defaultPreferences : Fields :=
  [("theme", .text "light"), ("language", .text "en"), ("timezone", .text "UTC"),
   ("email_notifications", .bool true), ("push_notifications", .bool true),
   ("auto_review", .bool true), ("review_complexity_threshold", .text "medium"),
   ("code_style_checks", .bool true), ("security_checks", .bool true),
   ("performance_checks", .bool true)]

def defaultNotifications : Fields :=
  [("email_on_review_complete", .bool true), ("email_on_critical_issues", .bool true),
    ("email_on_security_issues", .bool true), ("email_weekly_summary", .bool true),
    ("push_on_review_complete", .bool false), ("push_on_critical_issues", .bool true),
    ("slack_notifications", .bool false), ("slack_webhook_url", .null)]

/-! ## Finding users

A search that fails finds nobody.
-/

def withEmail (email : String) (s : Store) : Outcome (Option User) :=
  one (s.users.filter (·.email == Text.lowered email))

def withUsername (name : Value) (s : Store) : Outcome (Option User) := do
  let p ← parameter name
  one (s.users.filter fun u => textIs (some u.username) p)

def withIdentity (p : Provider) (id : Value) (s : Store) : Outcome (Option User) := do
  let q ← parameter id
  one (s.users.filter fun u => textIs (u.identity p) q)

variable (id : Value)

def find : Work (Option User) := orElse (query (userById id)) none

def findByEmail (email : Value) : Work (Option User) :=
  match email with
  | .text s => orElse (query (withEmail s)) none
  | _ => return none

def findByUsername (name : Value) : Work (Option User) := orElse (query (withUsername name)) none

def findByIdentity (provider id : Value) : Work (Option User) :=
  match Provider.of? provider with
  | some p => orElse (query (withIdentity p id)) none
  | none => return none

/-! ## Registration

A registration looks for the address, looks for the name, and then adds the row. Each of the three
is one step that sees what others have done in between.
-/

def emailTaken (email : String) : Fault := .invalid s!"User with email {email} already exists"

def usernameTaken (name : String) : Fault := .invalid s!"User with username {name} already exists"

def eitherTaken : Fault := .invalid "User with this email or username already exists"

def newUser (f : Filled) (now : Moment) (id : Int) : User :=
  { id, email := Text.lowered (f.text "email"), username := f.text "username",
    fullName := f.text? "full_name"
    password := f.text "password", avatarUrl := f.text? "avatar_url", bio := f.text? "bio"
    location := f.text? "location", company := f.text? "company", website := f.text? "website"
    preferences := .object defaultPreferences, notificationSettings := .object defaultNotifications
    createdAt := now, updatedAt := some now }

/-- A conflict of a new row with others is told as one that the searches find. -/
def conflictAs (told : Fault) : Fault → Fault
  | .conflict _ => told
  | f => f

def register (f : Filled) : Work User :=
  tryCatch (do
      if (← findByEmail (f.get "email")).isSome then throw (emailTaken (f.text "email"))
      if (← findByUsername (f.get "username")).isSome then throw (usernameTaken (f.text "username"))
      let t ← now
      add (addUser fun id => .ok (newUser f t id)))
    fun fault => do
      rollback
      throw (conflictAs eitherTaken fault)

/-! ## Changes -/

def write (f : User → Outcome User) : Work Unit := do
  let t ← now
  change (changeUser id fun u => do return { ← f u with updatedAt := some t })
  commit

/-- A row after a change by number, as it is shown to those who had read it before: the change is
seen if the number is the row's own. -/
def seenAfter {α : Type} (id : Value) (own : Int) (before after : α) : α :=
  if id.same (.int own) then after else before

/-- The changes of a form that are not null, addresses in small letters. Addresses and names of
other users are refused. -/
def checkedChanges (id : Value) : Fields → Work Fields
  | [] => return []
  | (key, v) :: rest => do
    if v.isNull then checkedChanges id rest
    else if key == "email" then
      match ← findByEmail v with
      | some u => if !id.same (.int u.id) then throw (.invalid s!"Email {v.plain} is already taken")
      | none => pure ()
      return (key, .text (Text.lowered v.plain)) :: (← checkedChanges id rest)
    else if key == "username" then
      match ← findByUsername v with
      | some u =>
        if !id.same (.int u.id) then throw (.invalid s!"Username {v.plain} is already taken")
      | none => pure ()
      return (key, v) :: (← checkedChanges id rest)
    else return (key, v) :: (← checkedChanges id rest)

def update (f : Filled) : Work (Option User) :=
  tryCatch (do
      match ← find id with
      | none => return none
      | some user =>
        let changes ← checkedChanges id f.changes
        if changes.isEmpty then return some user
        write id (·.setAll changes)
        match ← find id with
        | some after => return some (seenAfter id user.id user after)
        | none => throw (.noAttribute "'NoneType' object has no attribute 'email'"))
    fun fault => do
      match fault with
      | .invalid _ => throw fault
      | _ =>
        rollback
        throw fault

def setPassword (id password : Value) : Work Bool :=
  succeeds do
    match password with
    | .text p => write id fun u => .ok { u with password := p }
    | _ => throw (.mistyped "a password is a text")

def stampLogin : Work Bool :=
  succeeds do
    let t ← now
    write id fun u => .ok { u with lastLogin := some t }

def passwordIs (password : Value) (u : User) : Outcome Bool :=
  match password with
  | .text p => .ok (p == u.password)
  | _ => .error (.mistyped "a password is a text")

def findByLogin (name : Value) : Work (Option User) := do
  match ← findByEmail name with
  | some u => return some u
  | none => findByUsername name

/-- The active user with a name or address and a password; the login is noted. -/
def authenticate (name password : Value) : Work (Option User) :=
  orElse (do
      match ← findByLogin name with
      | none => return none
      | some u =>
        if !u.isActive then return none
        if !(← ofOutcome (passwordIs password u)) then return none
        if ← stampLogin (.int u.id) then return some { u with lastLogin := some (← now) }
        else return some u)
    none

def setActive (active : Bool) : Work Bool :=
  succeeds (write id fun u => .ok { u with isActive := active })

def verify : Work Bool :=
  succeeds (write id fun u => .ok { u with isVerified := true })

def remove : Work Bool :=
  succeeds do
    change (dropUser id)
    commit

/-! ## Preferences -/

def fieldsOrNone (v : Value) : Outcome Fields :=
  if !v.truthy then .ok []
  else
    match v with
    | .object fs => .ok fs
    | _ => .error (.mistyped "an object is needed")

def merged (stored new : Value) : Outcome Value := do
  match new with
  | .object fs => return .object (Fields.merge (← fieldsOrNone stored) fs)
  | _ => throw (.mistyped "an object is needed")

/-- Reads a user, then writes what was read with new fields on top. -/
def mergeInto (id new : Value) (get : User → Value) (set : User → Value → User) : Work Bool :=
  tryCatch (do
      match ← find id with
      | none => return false
      | some u =>
        let v ← ofOutcome (merged (get u) new)
        write id fun u => .ok (set u v)
        return true)
    fun _ => do
      rollback
      return false

def setPreferences (id new : Value) : Work Bool :=
  mergeInto id new (·.preferences) fun u v => { u with preferences := v }

def setNotifications (id new : Value) : Work Bool :=
  mergeInto id new (·.notificationSettings) fun u v => { u with notificationSettings := v }

/-!
## Users of other hosts

A user who signs in at a host is found by the identity there, else by the address, and is otherwise
added. Later sign-ins bring the profile up to date.
-/

structure Visitor where
  provider : Value
  identity : Value
  email : Value
  username : Value
  fullName : Value := .null
  avatarUrl : Value := .null
  accessToken : Value := .null

namespace Visitor

def tokenKey : String := "github_access_token"

variable (v : Visitor)

def token? : Option Value :=
  if v.accessToken.truthy && v.provider.same (.text "github") then some v.accessToken else none

def keepToken (stored : Value) : Outcome Value :=
  match v.token? with
  | none => .ok stored
  | some t => do
    if !stored.truthy then return .object [(tokenKey, t)]
    match stored with
    | .object fs => return .object (Fields.set fs tokenKey t)
    | s => throw (.mistyped s!"'{s.kindName}' object does not support item assignment")

/-- A new text, or the old one if the new one says nothing. -/
def newer (new : Value) (old : Option String) : Outcome (Option String) :=
  if new.truthy then textColumn new else .ok old

def lowerEmail : Outcome String := return Text.lowered (← v.email.textOf "lower")

def refreshed (now : Moment) (u : User) : Outcome User := do
  let fullName ← newer v.fullName u.fullName
  let avatarUrl ← newer v.avatarUrl u.avatarUrl
  let email ← if v.email.isNull then .ok u.email else v.lowerEmail
  return { u with fullName, avatarUrl, email, preferences := ← v.keepToken u.preferences,
                  lastLogin := some now }

/-- The row of a user who is known by the address only. -/
def linked (now : Moment) (u : User) : Outcome User := do
  match Provider.of? v.provider with
  | none => throw (.unknownColumn (v.provider.plain ++ "_id"))
  | some p =>
    let identity ← textColumn v.identity
    let avatarUrl ← newer v.avatarUrl u.avatarUrl
    let preferences ← v.keepToken u.preferences
    return { u.setIdentity p identity with avatarUrl, preferences, lastLogin := some now }

def privateEmail : String :=
  v.provider.plain ++ "_" ++ v.identity.plain ++ "@oauth.local"

def newcomer (email : String) (username : Value) (now : Moment) (id : Int) : Outcome User := do
  match Provider.of? v.provider with
  | none => throw (.mistyped s!"'{v.provider.plain}_id' is an invalid keyword argument for User")
  | some p =>
    let username ← required "users.username" (← textColumn username)
    let fullName ← textColumn v.fullName
    let avatarUrl ← textColumn v.avatarUrl
    let u : User :=
      { id, email, username, fullName, avatarUrl, isVerified := true, lastLogin := some now
        password := "oauth_" ++ v.identity.plain ++ "_" ++ v.provider.plain
        preferences := ← v.keepToken (.object defaultPreferences)
        notificationSettings := .object defaultNotifications, createdAt := now
        updatedAt := some now }
    return u.setIdentity p (← textColumn v.identity)

end Visitor

/-! ## Free names -/

/-- The numbers that are put after a name: 1 to 9998. -/
def mostEndings : Nat := 9998

/-- The first name from number `n` on that nobody has, among the next `count` ones. -/
def freeFrom (base : String) (n : Nat) : Nat → Work (Option String)
  | 0 => return none
  | count + 1 => do
    let name := base ++ Value.intText n
    match ← findByUsername (.text name) with
    | none => return some name
    | some _ => freeFrom base (n + 1) count

/-- A name that nobody has: the given one, or the given one with a number after it. -/
def freeUsername (base : Value) : Work Value := do
  match ← findByUsername base with
  | none => return base
  | some _ =>
    match ← freeFrom base.plain 1 mostEndings with
    | some name => return .text name
    | none => return .text (base.plain ++ "_" ++ (← get).ending)

/-! ## Signing in -/

def writeFound (u : User) (f : User → Outcome User) : Work User := do
  write (.int u.id) f
  match ← find (.int u.id) with
  | some after => return after
  | none => throw (.noAttribute "'NoneType' object has no attribute 'email'")

def addVisitor (v : Visitor) : Work User := do
  let email ← if v.email.isNull then pure (Text.lowered v.privateEmail) else ofOutcome v.lowerEmail
  let username ← freeUsername v.username
  add (addUser (v.newcomer email username (← now)))

def signIn (v : Visitor) : Work User :=
  orRollback do
    match ← findByIdentity v.provider v.identity with
    | some u => writeFound u (v.refreshed (← now))
    | none =>
      match ← findByEmail v.email with
      | some u => writeFound u (v.linked (← now))
      | none => addVisitor v

/-! ## Lists of users -/

structure Filter where
  search : Value := .null
  isActive : Value := .null
  isVerified : Value := .null

/-- Whether a column of truths is as wanted; null wants nothing. -/
def wantedFlag (wanted : Value) : Outcome (Bool → Bool) := do
  if wanted.isNull then return fun _ => true
  else
    let w ← flagColumn wanted
    return fun b => w == some b

def Filter.picks (f : Filter) : Outcome (User → Bool) := do
  let search ←
    if f.search.truthy then (do return some (Text.lowered (← f.search.textOf "lower")))
    else .ok none
  let active ← wantedFlag f.isActive
  let verified ← wantedFlag f.isVerified
  return fun u =>
    (match search with
    | some s =>
      contains (some u.email) s || contains (some u.username) s ||
        contains u.fullName s
    | none => true) && active u.isActive && verified u.isVerified

def orderBy? (column : String) : Option (User → User → Ordering) :=
  let text (f : User → Option String) (u v : User) : Ordering :=
    nullFirst compareTexts (f u) (f v)
  let flag (f : User → Bool) (u v : User) : Ordering := compareFlags (f u) (f v)
  let time (f : User → Option Moment) (u v : User) : Ordering :=
    nullFirst compareTimes (f u) (f v)
  match column with
  | "id" => some fun u v => compare u.id v.id
  | "email" => some (text fun u => some u.email)
  | "username" => some (text fun u => some u.username)
  | "full_name" => some (text (·.fullName))
  | "hashed_password" => some (text fun u => some u.password)
  | "avatar_url" => some (text (·.avatarUrl))
  | "bio" => some (text (·.bio))
  | "location" => some (text (·.location))
  | "company" => some (text (·.company))
  | "website" => some (text (·.website))
  | "is_active" => some (flag (·.isActive))
  | "is_verified" => some (flag (·.isVerified))
  | "is_superuser" => some (flag (·.isSuperuser))
  | "github_id" => some (text (·.githubId))
  | "gitlab_id" => some (text (·.gitlabId))
  | "bitbucket_id" => some (text (·.bitbucketId))
  | "preferences" => some (text fun u => some (Json.write u.preferences))
  | "notification_settings" => some (text fun u => some (Json.write u.notificationSettings))
  | "last_login" => some (time (·.lastLogin))
  | "created_at" => some (time fun u => some u.createdAt)
  | "updated_at" => some (time (·.updatedAt))
  | _ => none

/-- Names that a user has besides the columns; by them users cannot be ordered. -/
def otherName (name : String) : Bool :=
  ["repositories", "reviews", "comments", "metadata", "registry"].contains name ||
    Text.begins name "__" ||
    Text.begins name "_sa_"

/-- Users in the order of a column, or in their own order if there is no such column. -/
def ordered (column : Value) (down : Bool) (us : List User) : Outcome (List User) :=
  match column with
  | .text name =>
    match orderBy? name with
    | some order => .ok (if down then descending order us else ascending order us)
    | none =>
      if otherName name then .error (.noAttribute "not a column") else .ok us
  | _ => .error (.mistyped "the name of a column is a text")

def list (f : Filter) (skip limit column : Value) (down : Bool) : Work (List User) :=
  orElse (query fun s => do
      let picks ← f.picks
      let us ← ordered column down (s.users.filter picks)
      return (← Store.Page.of skip limit).take us)
    []

def count (f : Filter) : Work Nat := orElse (query fun s => do return s.users.countP (← f.picks)) 0

/-! ## Statistics -/

/-- The first day of the month of a moment, at the same time of day. -/
def firstOfMonth (m : Moment) : Moment := m.addDays (1 - (m.date.day : Int))

def statistics : Work Fields :=
  orElse (do
      let countIf (p : User → Bool) : Work Nat := query fun s => .ok (s.users.countP p)
      let total ← countIf fun _ => true
      let active ← countIf (·.isActive)
      let verified ← countIf (·.isVerified)
      let github ← countIf (·.githubId.isSome)
      let gitlab ← countIf (·.gitlabId.isSome)
      let start := firstOfMonth (← now)
      let recent ← countIf fun u => decide (start ≤ u.createdAt)
      return [("total_users", .ofNat total), ("active_users", .ofNat active),
              ("verified_users", .ofNat verified), ("github_users", .ofNat github),
              ("gitlab_users", .ofNat gitlab), ("recent_registrations", .ofNat recent),
              ("activation_rate", Tally.percent active total),
              ("verification_rate", Tally.percent verified total)])
    []

end ReviewDesk.Accounts
