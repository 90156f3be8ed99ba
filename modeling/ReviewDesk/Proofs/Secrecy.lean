import ReviewDesk.Proofs.Discretion
import ReviewDesk.Proofs.Traffic
import ReviewDesk.Proofs.TokenAccess

/-!
# What responses tell about passwords

Two sites that differ in the passwords of users only give the same response to every request that
brings no password, with one exception: a user who asks about the own account is shown the whole
row. There the two responses are the same exactly if that password is.
-/

namespace ReviewDesk.Http

open List Work Bool

variable {q : Request} {a b : Site}
variable {method path : String} {r : Route} {holes : List (String × String)} (u : User)

/-! ## Where a request leads -/

/-- Whether a request wants to register, to sign in or to change a password. -/
def Request.bringsPassword (q : Request) : Bool :=
  q.method == "POST" &&
    passwordPages.any fun w => (fill (authPath [.word w]) (segments q.path)).isSome

/-- Whether a request asks for the account of who sends it. -/
def Request.asksForAccount (q : Request) : Bool :=
  q.method == "GET" && (fill Route.account.parts (segments q.path)).isSome

lemma destination_route {rs : List Route} (h : destination rs method path = .route r holes) :
    r ∈ rs ∧ r.methods.contains method = true ∧ r.fill? path = some holes := by
  unfold destination at h
  dsimp only at h
  split at h
  · rename_i d hfound
    subst h
    obtain ⟨r', hr', hmatch⟩ := exists_of_findSome?_eq_some hfound
    split at hmatch
    · rename_i hmethod
      obtain ⟨holes', hfill, hroute⟩ := Option.map_eq_some_iff.mp hmatch
      cases hroute
      exact ⟨hr', hmethod, hfill⟩
    · cases hmatch
  · split at h
    · cases h
    · split at h <;> cases h

lemma destination_of_first {before after : List Route}
    (hbefore : ∀ r ∈ before, r.methods.contains method = true → r.fill? path = none)
    (hmethod : r.methods.contains method = true) (hfill : r.fill? path = some holes) :
    destination (before ++ r :: after) method path = .route r holes := by
  have hnone : before.findSome? (fun r => if r.methods.contains method then
      (r.fill? path).map (Destination.route r) else none) = none := by
    refine findSome?_eq_none_iff.mpr fun r hr => ?_
    split
    · rename_i h
      rw [hbefore r hr h]
      rfl
    · rfl
  unfold destination
  rw [findSome?_append, hnone, Option.none_or, findSome?_cons, if_pos hmethod, hfill]
  rfl

/-- How a path of words is filled: the last word may be followed by a line end. -/
lemma fill_words {ws : List String} {last : String} {segs : List Chars}
    (h : fill (ws.map .word ++ [.word last]) segs = some holes) :
    holes = [] ∧ ∃ e ∈ [[], ['\n']], segs = ws.map String.toList ++ [last.toList ++ e] := by
  induction ws generalizing segs with
  | nil =>
    rcases segs with _ | ⟨s, _ | ⟨t, rest⟩⟩
    · cases h
    · simp only [map_nil, nil_append, fill, or_eq_true, decide_eq_true_eq,
        Option.ite_none_right_eq_some, Option.some.injEq] at h
      obtain ⟨rfl | rfl, rfl⟩ := h
      · exact ⟨rfl, [], by simp, by simp⟩
      · exact ⟨rfl, ['\n'], by simp, by simp⟩
    · simp [fill] at h
  | cons w ws ih =>
    cases segs with
    | nil => cases ws <;> cases h
    | cons s rest =>
      have hcons : fill ((w :: ws).map .word ++ [.word last]) (s :: rest) =
          if s = w.toList then fill (ws.map .word ++ [.word last]) rest else none := by
        cases ws <;> cases rest <;> rfl
      rw [hcons, Option.ite_none_right_eq_some] at h
      obtain ⟨rfl, h⟩ := h
      obtain ⟨hholes, e, he, rfl⟩ := ih h
      exact ⟨hholes, e, he, rfl⟩

/-- The routes that are tried before the one of the account. -/
def beforeAccount : List Route := docsRoutes ++ entryRoutes ++ authRoutes ++ [.users]

lemma method_of_asksForAccount (h : q.asksForAccount = true) : q.method = "GET" :=
  beq_iff_eq.mp (and_eq_true_iff.mp h).1

/-- A request for an account finds the route of the account: no route before it has such a path. -/
lemma destination_account (h : q.asksForAccount = true) :
    destination routes q.method q.path = .route Route.account [] := by
  obtain ⟨holes, hfill⟩ := Option.isSome_iff_exists.mp (Bool.and_eq_true_iff.mp h).2
  have hwords : fill (["api", "v1", "users"].map .word ++ [.word "me"]) (segments q.path) =
      some holes := hfill
  obtain ⟨rfl, e, he, hsegs⟩ := fill_words hwords
  have hbefore : ∀ e ∈ [[], ['\n']], beforeAccount.all (fun r => !r.methods.contains "GET" ||
      (fill r.parts (["api", "v1", "users"].map String.toList ++ ["me".toList ++ e])).isNone) := by
    decide +kernel
  rw [method_of_asksForAccount h, show routes = beforeAccount ++ Route.account :: .listUsers ::
    (repositoryRoutes ++ reviewRoutes ++ analyticsRoutes ++ hostRoutes) from rfl]
  refine destination_of_first (fun r hr hget => ?_) (by decide +kernel) hfill
  have hr := all_eq_true.mp (hbefore e he) r hr
  rw [hget, Bool.not_true, Bool.false_or, Option.isNone_iff_eq_none, ← hsegs] at hr
  exact hr

/-! ## The layers -/

/-- What is done for all other requests that bring no password is blind. -/
lemma blind_dispatch (hq : q.bringsPassword = false)
    (haccount : q.asksForAccount = false) : Blind (dispatch routes q) := by
  unfold dispatch
  split
  · rename_i r holes hroute
    obtain ⟨hr, hmethod, hfill⟩ := destination_route hroute
    refine Blind.tryCatch ?_ fun _ => blind_pure _
    rcases discreet_routes hr with hdiscreet | ⟨hpost, w, hw, hparts⟩ | rfl
    · exact hdiscreet.blind_run holes q
    · have hbrings : q.bringsPassword = true := by
        rw [hpost] at hmethod
        refine and_eq_true_iff.mpr ⟨by simpa using hmethod, any_eq_true.mpr ⟨w, hw, ?_⟩⟩
        rw [← hparts]
        exact Option.isSome_iff_exists.mpr ⟨holes, hfill⟩
      rw [hq] at hbrings
      cases hbrings
    · have hasks : q.asksForAccount = true := by
        have hget : q.method = "GET" := mem_singleton.mp (contains_iff_mem.mp hmethod)
        exact and_eq_true_iff.mpr
          ⟨beq_iff_eq.mpr hget, Option.isSome_iff_exists.mpr ⟨holes, hfill⟩⟩
      rw [haccount] at hasks
      cases hasks
  · exact blind_pure _
  · exact blind_pure _
  · exact blind_pure _

lemma blind_inside
    (h : hosts.contains q.host = true → Blind (dispatch routes q)) (st : Settings) :
    Blind (inside st q) := by
  refine blind_now.bind fun start => Blind.bind ?_ fun r => blind_now.bind fun _ => blind_pure _
  unfold checked
  split
  · rename_i hhost
    unfold shared
    split
    · exact blind_pure _
    · exact (h hhost).bind fun _ => blind_pure _
  · exact blind_pure _

def sender (q : Request) : Work User := do Api.currentUser (← ofOutcome (bearer q))

lemma twins_sender (q : Request) : Twins User.veiled (sender q) (sender q) :=
  (blind_ofOutcome _).twins Api.twins_currentUser

def accountPage : Value :=
  .object (Api.message "Current user info" ++ [("user", .object u.report)])

def accountReply : Outcome User → Option Response
  | .ok u => (Answer.json (accountPage u)).response?
  | .error f => Response.ofFault? f

lemma run_dispatch_account (h : q.asksForAccount = true) (d : Desk) :
    let asked := run (sender q) d
    run (dispatch routes q) d = (.ok (accountReply asked.1), asked.2) := by
  have hrun : Route.account.run [] q = sender q >>= fun u =>
      pure (Answer.json (accountPage u)).response? := by
    unfold sender
    rw [bind_assoc]
    rfl
  unfold dispatch
  rw [destination_account h]
  simp only
  rw [hrun, run_tryCatch, run_bind]
  rcases run (sender q) d with ⟨_ | u, d'⟩ <;> rfl

/-- What the layers inside the limiter add to an answer. -/
def marked (st : Settings) (q : Request) (start stop : Moment) (r : Response) : Response :=
  (Sharing.mark { origins := st.origins } q r).withHeaders
    [("x-process-time", (Value.real (Moment.secondsBetween start stop)).plain),
      ("x-request-id", q.id)]

lemma preflight?_of_get (h : q.method = "GET") (s : Sharing) : s.preflight? q = none := by
  unfold Sharing.preflight?
  split
  · rw [if_neg (by rw [h]; decide)]
  · rfl

lemma run_inside_account (h : q.asksForAccount = true)
    (hhost : hosts.contains q.host = true) (st : Settings) (d : Desk) :
    let d' := (run (sender q) d).2
    run (inside st q) d =
      (.ok ((accountReply (run (sender q) d).1).map (marked st q d.now d'.now)), d') := by
  unfold inside logged checked shared
  rw [if_pos hhost, preflight?_of_get (method_of_asksForAccount h)]
  simp only [run_bind, run_now, run_dispatch_account h, run_pure, Option.map_map]
  rfl

lemma body_withHeaders (r : Response) (hs : List (String × String)) :
    (r.withHeaders hs).body = r.body := by
  induction hs generalizing r with
  | nil => rfl
  | cons h hs ih => exact ih _

lemma body_mark (s : Sharing) (q : Request) (r : Response) : (s.mark q r).body = r.body := by
  unfold Sharing.mark
  split
  · rfl
  · dsimp only
    split <;> split <;> split <;> rfl

/-! ## The page of an account -/

lemma isWritable_accountPage : isWritable (accountPage u) = isWritable (.object u.report) := by
  simp [accountPage, Api.message, isWritable, fieldsWritable]

lemma isWritable_veiled : isWritable (.object u.veiled.report) = isWritable (.object u.report) := by
  simp only [User.report, User.veiled, isWritable, fieldsWritable]

lemma accountReply_ok : accountReply (.ok u) =
      if isWritable (.object u.report) then some (.json 200 (accountPage u)) else none := by
  rw [← isWritable_accountPage]
  rfl

lemma password_of_accountPage {u v : User} (h : accountPage u = accountPage v) :
    u.password = v.password := by
  have hreport : u.report = v.report := by
    simpa [accountPage, Api.message] using h
  have hfield := congrArg (fun fs : Fields => fs[4]?) hreport
  simpa [User.report] using hfield

namespace Site

variable {s : Site}

/-! ## Two sites -/

def veiled (s : Site) : Site := { s with desk := s.desk.veiled }

/-- The user whose whole row the answer to a request shows, if it shows one. -/
def shownAccount? (s : Site) (q : Request) : Option User :=
  if q.asksForAccount && !s.overLimit q && hosts.contains q.host then
    (run (sender q) s.desk).1.toOption.filter fun u => isWritable (.object u.report)
  else none

def dressed (s : Site) (q : Request) (inner : Option Response) : Response :=
  let now := s.desk.now.seconds
  let client := clientOf q
  q.sent ((if Limiter.exempt.contains (limitedPath q) then inner
    else inner.map (·.withHeaders (quotaHeaders
      ((s.limiter.accept now now client).1.quota now client)))).getD .errorPage)

lemma enter_eq (s : Site) (q : Request) :
    let d := (run (inside s.desk.settings q) s.desk).2
    s.enter q = ({ s with desk := { d with store := d.lasting } },
      Outcome.getD (run (inside s.desk.settings q) s.desk).1 none) := by
  simp only [enter]

/-- The counts of the limiter make no difference inside it. -/
lemma enter_limiter (s : Site) (l : Limiter) (q : Request) :
    { s with limiter := l }.enter q = ({ (s.enter q).1 with limiter := l }, (s.enter q).2) := by
  simp only [enter]

lemma response_over (h : s.overLimit q = true) : (s.serve q).2 = q.sent .errorPage := by
  rw [serve_eq_serveThrough, serveThrough_over h]

lemma response_within (h : s.overLimit q = false) : (s.serve q).2 = s.dressed q (s.enter q).2 := by
  unfold serve dressed
  cases hexempt : Limiter.exempt.contains (limitedPath q) with
  | true => simp only [↓reduceIte]
  | false =>
    rw [overLimit_counted hexempt] at h
    simp only [false_eq_true, ↓reduceIte, Limiter.accept_within h, enter_limiter]
    cases (s.enter q).2 <;> rfl

/-- A request either shows the row of its sender or is handled by blind work. -/
lemma blind_or_account (hq : q.bringsPassword = false) :
    (q.asksForAccount = true ∧ hosts.contains q.host = true) ∨ ∀ st, Blind (inside st q) := by
  cases haccount : q.asksForAccount with
  | false => exact .inr (blind_inside fun _ => blind_dispatch hq haccount)
  | true =>
    cases hhost : hosts.contains q.host with
    | true => exact .inl ⟨rfl, rfl⟩
    | false => exact .inr (blind_inside fun h => absurd h (by rw [hhost]; decide))

lemma veiled_inside (hq : q.bringsPassword = false) {d e : Desk}
    (hd : d.veiled = e.veiled) (st : Settings) :
    (run (inside st q) d).2.veiled = (run (inside st q) e).2.veiled := by
  rcases blind_or_account hq with ⟨haccount, hhost⟩ | hblind
  · rw [run_inside_account haccount hhost, run_inside_account haccount hhost]
    exact (twins_sender q d e hd).2
  · exact (hblind st d e hd).2

section

variable (hab : a.veiled = b.veiled)

include hab

lemma desk_of_veiled : a.desk.veiled = b.desk.veiled := congrArg Site.desk hab

lemma settings_of_veiled : a.desk.settings = b.desk.settings := by
  show a.veiled.desk.settings = b.veiled.desk.settings
  rw [hab]

lemma veiled_enter (hq : q.bringsPassword = false) :
    (a.enter q).1.desk.veiled = (b.enter q).1.desk.veiled := by
  have hleft := veiled_inside hq (desk_of_veiled hab) a.desk.settings
  rw [enter_eq, enter_eq, ← settings_of_veiled hab]
  exact (blind_rollback _ _ hleft).2

lemma overLimit_of_veiled (q : Request) : a.overLimit q = b.overLimit q := by
  show a.veiled.overLimit q = b.veiled.overLimit q
  rw [hab]

lemma dressed_of_veiled (q : Request) : a.dressed q = b.dressed q := by
  show a.veiled.dressed q = b.veiled.dressed q
  rw [hab]

lemma limiter_serve_of_veiled (q : Request) : (a.serve q).1.limiter = (b.serve q).1.limiter := by
  have hserve (s : Site) : (s.serve q).1.limiter =
      s.veiled.limiter.after (Call.visit? ⟨q, s.veiled.desk.now, id⟩).toList :=
    limiter_serve s ⟨q, s.desk.now, id⟩
  rw [hserve, hserve, hab]

lemma veiled_serve (hq : q.bringsPassword = false) :
    (a.serve q).1.veiled = (b.serve q).1.veiled := by
  have hdesk : (a.serve q).1.desk.veiled = (b.serve q).1.desk.veiled := by
    cases hover : a.overLimit q with
    | true =>
      rw [serve_eq_serveThrough, serve_eq_serveThrough, serveThrough_over hover,
        serveThrough_over (overLimit_of_veiled hab q ▸ hover)]
      dsimp only
      exact desk_of_veiled hab
    | false =>
      obtain ⟨l, ha⟩ := serveThrough_within hover
      obtain ⟨l', hb⟩ := serveThrough_within (overLimit_of_veiled hab q ▸ hover)
      rw [serve_eq_serveThrough, serve_eq_serveThrough, ha, hb, enter_limiter a, enter_limiter b]
      dsimp only
      exact veiled_enter hab hq
  show ({ desk := _, limiter := _ } : Site) = { desk := _, limiter := _ }
  rw [hdesk, limiter_serve_of_veiled hab q]

/-- Work that is blind inside makes the same response. -/
lemma response_of_blind (hblind : ∀ st, Blind (inside st q)) : (a.serve q).2 = (b.serve q).2 := by
  cases hover : a.overLimit q with
  | true => rw [response_over hover, response_over (overLimit_of_veiled hab q ▸ hover)]
  | false =>
    have hinner : (a.enter q).2 = (b.enter q).2 := by
      rw [enter_eq, enter_eq, ← settings_of_veiled hab, (hblind _).outcome (desk_of_veiled hab)]
    rw [response_within hover, response_within (overLimit_of_veiled hab q ▸ hover), hinner,
      dressed_of_veiled hab]

end

/-! ## The account -/

lemma response_account (haccount : q.asksForAccount = true)
    (hhost : hosts.contains q.host = true) (hover : s.overLimit q = false) :
    let asked := run (sender q) s.desk
    (s.serve q).2 = s.dressed q ((accountReply asked.1).map
      (marked s.desk.settings q s.desk.now asked.2.now)) := by
  rw [response_within hover, enter_eq, run_inside_account haccount hhost]
  rfl

lemma shownAccount?_account (haccount : q.asksForAccount = true)
    (hhost : hosts.contains q.host = true) (hover : s.overLimit q = false) : s.shownAccount? q =
      (run (sender q) s.desk).1.toOption.filter fun u => isWritable (.object u.report) := by
  rw [shownAccount?, haccount, hhost, hover]
  rfl

lemma body_dressed (h : q.method = "GET") (s : Site) (r : Response) :
    (s.dressed q (some r)).body = r.body := by
  unfold dressed Request.sent
  rw [if_neg (by rw [h]; decide)]
  split
  · rfl
  · exact body_withHeaders ..

/-- Two users who ask for their accounts are given the same if their passwords are the same, and
otherwise not unless they are given nothing. -/
lemma accountReply_eq_iff {β : Type} {o p : Outcome User}
    (h : o.map User.veiled = p.map User.veiled) (dress : Option Response → β)
    (hbody : ∀ r r', dress (some r) = dress (some r') → r.body = r'.body) :
    dress (accountReply o) = dress (accountReply p) ↔
      (o.toOption.filter fun u => isWritable (.object u.report)).map (·.password) =
        (p.toOption.filter fun u => isWritable (.object u.report)).map (·.password) := by
  cases o with
  | error e =>
    cases p with
    | error e' =>
      cases h
      exact ⟨fun _ => rfl, fun _ => rfl⟩
    | ok v => cases h
  | ok u =>
    cases p with
    | error e => cases h
    | ok v =>
      have huv : u.veiled = v.veiled := Except.ok.inj h
      have hwritable : isWritable (.object u.report) = isWritable (.object v.report) := by
        rw [← isWritable_veiled u, huv, isWritable_veiled v]
      rw [accountReply_ok, accountReply_ok, hwritable]
      cases hv : isWritable (.object v.report) with
      | false => simp [Except.toOption, Option.filter_some, hwritable, hv]
      | true =>
        simp only [↓reduceIte, Except.toOption, Option.filter_some, hwritable, hv, Option.map_some,
          Option.some.injEq]
        constructor
        · intro hsame
          exact password_of_accountPage (Body.json.inj (hbody _ _ hsame))
        · intro hpassword
          rw [User.eq_of_veiled huv hpassword]

lemma response_eq_iff (hab : a.veiled = b.veiled) (hq : q.bringsPassword = false) :
    (a.serve q).2 = (b.serve q).2 ↔
      (a.shownAccount? q).map (·.password) = (b.shownAccount? q).map (·.password) := by
  have hover := overLimit_of_veiled hab q
  by_cases hshown : (q.asksForAccount && !a.overLimit q && hosts.contains q.host) = true
  · obtain ⟨⟨haccount, hwithin⟩, hhost⟩ : (q.asksForAccount = true ∧ a.overLimit q = false) ∧
        hosts.contains q.host = true := by
      simpa only [Bool.and_eq_true, Bool.not_eq_true'] using hshown
    have hmethod := method_of_asksForAccount haccount
    have hasked := twins_sender q a.desk b.desk (desk_of_veiled hab)
    have hnow := Desk.now_of_veiled (desk_of_veiled hab)
    have hstop := Desk.now_of_veiled hasked.2
    rw [response_account haccount hhost hwithin, response_account haccount hhost (hover ▸ hwithin),
      shownAccount?_account haccount hhost hwithin,
      shownAccount?_account haccount hhost (hover ▸ hwithin), ← dressed_of_veiled hab, ← hnow,
      ← hstop, ← settings_of_veiled hab]
    refine accountReply_eq_iff hasked.1 (fun r => a.dressed q (r.map _)) fun r r' hsame => ?_
    have hbody := congrArg Response.body hsame
    simpa only [Option.map_some, body_dressed hmethod, marked, body_withHeaders, body_mark] using hbody
  · have hnone (s : Site) (hs : s.overLimit q = a.overLimit q) : s.shownAccount? q = none := by
      rw [shownAccount?, hs, if_neg hshown]
    rw [hnone a rfl, hnone b hover.symm]
    refine iff_of_true ?_ rfl
    rcases blind_or_account hq with ⟨haccount, hhost⟩ | hblind
    · have hlimit : a.overLimit q = true := by
        rw [haccount, hhost, Bool.true_and, Bool.and_true] at hshown
        simpa using hshown
      rw [response_over hlimit, response_over (hover ▸ hlimit)]
    · exact response_of_blind hab hblind

/-! ## Runs -/

/-- A request that brings no password, after a time in which passwords had no part in what was
done. -/
structure Call.Discreet (c : Call) : Prop where
  request : c.request.bringsPassword = false
  meanwhile : ∀ d e : Desk, d.veiled = e.veiled → (c.meanwhile d).veiled = (c.meanwhile e).veiled

lemma veiled_facing (hab : a.veiled = b.veiled) {c : Call} (hc : c.Discreet) :
    (a.facing c).veiled = (b.facing c).veiled := by
  have hdesk := hc.meanwhile _ _ (desk_of_veiled hab)
  have hlimiter : a.veiled.limiter = b.veiled.limiter := congrArg Site.limiter hab
  calc (a.facing c).veiled
      = ⟨{ (c.meanwhile a.desk).veiled with now := c.moment }, a.veiled.limiter⟩ := rfl
    _ = ⟨{ (c.meanwhile b.desk).veiled with now := c.moment }, b.veiled.limiter⟩ := by
      rw [hdesk, hlimiter]

/-- Along a run of such requests two sites never differ in more than passwords. -/
lemma veiled_after (hab : a.veiled = b.veiled) {calls : List Call}
    (hcalls : ∀ c ∈ calls, c.Discreet) : (a.after calls).veiled = (b.after calls).veiled := by
  induction calls generalizing a b with
  | nil => exact hab
  | cons c calls ih =>
    have hc := hcalls c (.head _)
    rw [after, after]
    exact ih (veiled_serve (veiled_facing hab hc) hc.request) fun c hc =>
      hcalls c (.tail _ hc)

/-- **No response tells a password but that of an account.** Take two sites that differ in the
passwords of users only, and send both the same requests, none of which registers, signs in by a
password or changes one. Then they still differ in passwords only, and any further such request has
the same response from both, with one exception: if it is accepted as the request of a user for the
own account, the response shows the whole row, and the two are the same exactly if the password in
it is. -/
theorem same_response_iff_shown_password {a b : Site} (hab : a.veiled = b.veiled)
    {calls : List Call} (hcalls : ∀ c ∈ calls, c.Discreet) {q : Request}
    (hq : q.bringsPassword = false) :
    let s := a.after calls
    let t := b.after calls
    s.veiled = t.veiled ∧
      ((s.serve q).2 = (t.serve q).2 ↔
        (s.shownAccount? q).map (·.password) = (t.shownAccount? q).map (·.password)) ∧
      (q.asksForAccount = false → (s.serve q).2 = (t.serve q).2) := by
  intro s t
  have hst : s.veiled = t.veiled := veiled_after hab hcalls
  refine ⟨hst, response_eq_iff hst hq, fun haccount => ?_⟩
  exact response_of_blind hst (blind_inside fun _ => blind_dispatch hq haccount)

def memberWith (password : String) : User := { Api.member with password }

def memberSite (password : String) : Site :=
  let rows : Store := { users := [memberWith password] }
  { desk := { store := rows, lasting := rows, now := ⟨0⟩ } }

def accountRequest (token : String) : Request :=
  { path := "/api/v1/users/me"
    headers := [("host", "localhost"), ("authorization", "Bearer " ++ token)] }

section

variable {token : String}

lemma bearer_accountRequest (h : token ≠ "") : bearer (accountRequest token) = .ok token := by
  have hheader : (accountRequest token).header? "authorization" = some ("Bearer " ++ token) := by
    simp [Request.header?, accountRequest, lookup_cons]
  have hspan : ("Bearer " ++ token).toList.span (· != ' ') =
      ("Bearer".toList, ' ' :: token.toList) := by
    simp [String.toList_append, span_eq_takeWhile_dropWhile]
  have hscheme : Text.lowered "Bearer" = "bearer" := by decide +kernel
  unfold bearer
  rw [hheader, Option.getD_some, hspan]
  simp [hscheme, h]

lemma sign_ne_empty (key : String) (header claims : Value) : Token.sign key header claims ≠ "" := by
  simp only [Token.sign, Token.bytesText, ne_eq, ← String.toList_inj, String.toList_ofList]
  simp

lemma asksForAccount_accountRequest : (accountRequest token).asksForAccount = true := by
  show ("GET" == "GET" && (fill Route.account.parts (segments "/api/v1/users/me")).isSome) = true
  decide +kernel

lemma host_accountRequest : (accountRequest token).host = "localhost" := by
  simp [Request.host, Request.header?, accountRequest]

lemma overLimit_accountRequest (password : String) :
    (memberSite password).overLimit (accountRequest token) = false := by
  have hclient : clientOf (accountRequest token) = Limiter.clientName none none none := by
    simp [clientOf, Request.header?, accountRequest, lookup_cons]
  rw [overLimit, hclient]
  show (!Limiter.exempt.contains (limitedPath { path := "/api/v1/users/me" }) &&
    ((memberSite "").limiter.check 0 _).2) = false
  decide +kernel

/-- The member is shown the own row, with the password. -/
lemma shownAccount?_memberSite
    (h : Token.issue ({} : Settings).tokens .access (Value.intText 1) ⟨0⟩ none = .ok token)
    (password : String) :
    (memberSite password).shownAccount? (accountRequest token) = some (memberWith password) := by
  have hlive : Moment.seconds ⟨0⟩ ≤
      (Token.expiry ({} : Settings).tokens .access ⟨0⟩ none).seconds ∧
        Token.Kind.access = .access := by decide
  have hne : token ≠ "" := by
    rw [Token.issue_eq, if_pos (by decide)] at h
    rw [← Except.ok.inj h]
    exact sign_ne_empty _ _ _
  have hsender : (run (sender (accountRequest token)) (memberSite password).desk).1 =
      .ok (memberWith password) := by
    rw [sender, run_bind, run_ofOutcome, bearer_accountRequest hne]
    dsimp only
    rw [Api.run_currentUser (fun _ => rfl) (by simp [memberSite]) (by decide) rfl h, Api.grant]
    exact if_pos hlive
  have hwritable : isWritable (.object (memberWith password).report) = true := by
    rw [← isWritable_veiled]
    show isWritable (.object Api.member.veiled.report) = true
    decide +kernel
  rw [shownAccount?_account asksForAccount_accountRequest (by rw [host_accountRequest]; decide)
    (overLimit_accountRequest password), hsender]
  exact Option.filter_eq_some_iff.mpr ⟨rfl, hwritable⟩

def strayCall : Call := { request := { path := "/health" }, moment := ⟨0⟩ }

lemma after_strayCall (password : String) :
    (memberSite password).after [strayCall] = memberSite password := by
  have hexempt : Limiter.exempt.contains (limitedPath strayCall.request) = true := by decide +kernel
  have hhost : ¬hosts.contains strayCall.request.host = true := by decide +kernel
  rw [after, after, serve, if_pos hexempt, enter_eq]
  simp only [inside, logged, checked, if_neg hhost, run_bind, run_now, run_pure]
  rfl

/-- A member who asks for the own account is shown the stored password: two sites where it is not
the same have answered another request in the same way, and do not answer this one so. -/
theorem account_shows_password :
    ∃ token, Token.issue ({} : Settings).tokens .access (Value.intText 1) ⟨0⟩ none = .ok token ∧
      let s := (memberSite "h1").after [strayCall]
      let t := (memberSite "h2").after [strayCall]
      let q := accountRequest token
      (memberSite "h1").veiled = (memberSite "h2").veiled ∧ strayCall.Discreet ∧
        q.bringsPassword = false ∧ (s.shownAccount? q).map (·.password) = some "h1" ∧
        (t.shownAccount? q).map (·.password) = some "h2" ∧ (s.serve q).2 ≠ (t.serve q).2 := by
  obtain ⟨token, htoken⟩ := (Token.exists_issue ({} : Settings).tokens .access (Value.intText 1) ⟨0⟩
    none).mpr (by decide)
  have hstray : strayCall.Discreet := ⟨rfl, fun _ _ h => h⟩
  have hbrings : (accountRequest token).bringsPassword = false := rfl
  have hveiled : (memberSite "h1").veiled = (memberSite "h2").veiled := rfl
  have hcalls : ∀ c ∈ [strayCall], c.Discreet := fun c hc => mem_singleton.mp hc ▸ hstray
  have hsame := (same_response_iff_shown_password hveiled hcalls hbrings).2.1
  have hshown (password : String) : (((memberSite password).after [strayCall]).shownAccount?
      (accountRequest token)).map (·.password) = some password := by
    rw [after_strayCall, shownAccount?_memberSite htoken]
    rfl
  rw [hshown, hshown] at hsame
  exact ⟨token, htoken, hveiled, hstray, hbrings, hshown _, hshown _, fun hresponse =>
    absurd (Option.some.inj (hsame.mp hresponse)) (by decide)⟩

end

end Site

end ReviewDesk.Http
