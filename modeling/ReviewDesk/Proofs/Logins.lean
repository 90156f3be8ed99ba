import ReviewDesk.Proofs.TokenAccess

/-!
# Two ways to sign in

The service of accounts and the request for tokens look for a user, compare the password and ask
whether the user is active, each in an order of its own. They admit the same users and write the
same login. Where tokens would expire after the last day of the calendar, the request fails although
the login is written.
-/

namespace ReviewDesk

open List Work Store Option Outcome

variable {d : Desk} {t : Moment} {s : Store} {n : Int} {u : User} {name : String}

/-!
## Signing in with the current password

The password of a user is the one that was given last: at the registration, at the first sign-in
from another host, or by a change. With it an active user is admitted by the address in any case. By
name the user is admitted exactly if the name is not the address of somebody else: it is looked up
as an address first.
-/

namespace Accounts

namespace Action

def makes (a : Action) (d : Desk) (s : Store) (n : Int) : Bool :=
  !(s.users.map (·.id)).contains n && ((a.work.result d s).users.map (·.id)).contains n

def password? (a : Action) (d : Desk) (s : Store) (n : Int) : Option String :=
  match a with
  | call (.register body) =>
    match Form.userCreate.read body with
    | .ok form => if a.makes d s n then some (form.text "password") else none
    | .error _ => none
  | call (.signIn v) => if a.makes d s n then some v.password else none
  | call (.setPassword id (.text p)) =>
    if (run (setPassword id (.text p)) (d.holding s)).1.toOption = some true ∧ Names id n then some p
    else none
  | _ => none

end Action

/-- The password of the user with number `n` after a run, by what was given last; `p` is the one
before the run. -/
def lastPassword (n : Int) : Store → Option String → List (Desk × Action) → Option String
  | _, p, [] => p
  | s, p, (d, a) :: steps => lastPassword n (a.work.result d s) ((a.password? d s n).or p) steps

def Bearing (n : Int) (p : Option String) (s : Store) : Prop :=
  ∀ u ∈ s.users, u.id = n → p = some u.password

section

variable {s' : Store} {a : Action} {p : Option String}

lemma Action.makes_iff :
    a.makes d s n = true ↔ n ∉ s.users.map (·.id) ∧ n ∈ (a.work.result d s).users.map (·.id) := by
  simp only [Action.makes, Bool.and_eq_true, Bool.not_eq_true', contains_eq_mem,
    decide_eq_true_eq, decide_eq_false_iff_not]

lemma Action.password?_eq_none (hmakes : a.makes d s n = false)
    (hset : ∀ id q, a ≠ .call (.setPassword id (.text q))) : a.password? d s n = none := by
  unfold Action.password?
  split
  · split
    · rw [if_neg (by simp [hmakes])]
    · rfl
  · rw [if_neg (by simp [hmakes])]
  · exact absurd rfl (hset _ _)
  · rfl

lemma Bearing.addUser {make : Int → Outcome User} {q : String}
    (hmake : ∀ m w, make m = .ok w → w.id = m ∧ w.password = q)
    (h : s.addUser make = .ok (u, a.work.result d s)) (hp : Bearing n p s) :
    Bearing n ((if a.makes d s n then some q else none).or p) (a.work.result d s) := by
  obtain ⟨hmade, husers, _⟩ := addUser_eq_ok h
  obtain ⟨hid, hpassword⟩ := hmake _ u hmade
  intro w hw hwid
  rw [husers] at hw
  rcases mem_append.mp hw with hold | hnew
  · have hmakes : ¬a.makes d s n = true := fun hmakes =>
      (Action.makes_iff.mp hmakes).1 (hwid ▸ mem_map_of_mem hold)
    rw [if_neg hmakes, none_or]
    exact hp w hold hwid
  · obtain rfl := mem_singleton.mp hnew
    have hmakes : a.makes d s n = true := by
      refine Action.makes_iff.mpr ⟨?_, ?_⟩
      · rw [← hwid, hid]
        exact nextId_notMem _
      · rw [husers, ← hwid]
        exact mem_map_of_mem hw
    rw [if_pos hmakes, some_or, hpassword]

lemma Bearing.keep (hset : ∀ id q, a ≠ .call (.setPassword id (.text q)))
    (hrows : ∀ w ∈ (a.work.result d s).users, ∃ u ∈ s.users, u.id = w.id ∧ u.password = w.password)
    (hp : Bearing n p s) : Bearing n ((a.password? d s n).or p) (a.work.result d s) := by
  have hmakes : a.makes d s n = false := by
    rw [← Bool.not_eq_true]
    intro hmakes
    obtain ⟨hnew, hthere⟩ := Action.makes_iff.mp hmakes
    obtain ⟨w, hw, rfl⟩ := mem_map.mp hthere
    obtain ⟨u, hu, hid, _⟩ := hrows w hw
    exact hnew (hid ▸ mem_map_of_mem hu)
  rw [Action.password?_eq_none hmakes hset, none_or]
  intro w hw hwid
  obtain ⟨u, hu, hid, hpassword⟩ := hrows w hw
  rw [← hpassword]
  exact hp u hu (hid.trans hwid)

lemma Bearing.retouched {id : Value} {f : User → Outcome User} (hp : Bearing n p s)
    (hset : ∀ id q, a ≠ .call (.setPassword id (.text q)))
    (hf : ∀ u u', f u = .ok u' → u.Retouched u') (h : s.changeUser id f = .ok (a.work.result d s)) :
    Bearing n ((a.password? d s n).or p) (a.work.result d s) := by
  obtain ⟨q, g, _, husers, hg, _⟩ := changeUser_eq_ok h
  refine hp.keep hset fun w hw => ?_
  rw [husers] at hw
  obtain ⟨u, hu, rfl⟩ := mem_map.mp hw
  have hgu := hg u hu
  split at hgu
  · exact ⟨u, hu, (hf u _ hgu).id.symm, (hf u _ hgu).password.symm⟩
  · rw [← Except.ok.inj hgu]
    exact ⟨u, hu, rfl, rfl⟩

lemma bearing_written (hset : ∀ id q, a ≠ .call (.setPassword id (.text q)))
    (h : Written s a (a.work.result d s)) (hp : Bearing n p s) :
    Bearing n ((a.password? d s n).or p) (a.work.result d s) := by
  cases h with
  | @registered body form t u _ hform h =>
    have hgives : (Action.call (.register body)).password? d s n =
        if (Action.call (.register body)).makes d s n then some (form.text "password") else none := by
      dsimp only [Action.password?]
      rw [hform]
    rw [hgives]
    refine hp.addUser (fun m w hw => ?_) h
    cases hw
    exact ⟨rfl, rfl⟩
  | touched hf h => exact hp.retouched hset (fun u u' hu => (hf u u' hu).2) h
  | visited h =>
    rcases h.joined_or_retouched with ⟨_, _, _, _, h⟩ | ⟨_, _, hf, h⟩
    · refine hp.addUser (fun m w hw => ?_) h
      obtain ⟨hid, _, hpassword, _⟩ := newcomer_row hw
      exact ⟨hid, hpassword⟩
    · exact hp.retouched hset hf h
  | rekeyed h => exact absurd rfl (hset _ _)
  | removed h =>
    refine hp.keep hset fun w hw => ?_
    obtain ⟨q, _, h⟩ := bind_eq_ok h
    rw [← Except.ok.inj h] at hw
    exact ⟨w, (mem_filter.mp hw).1, rfl, rfl⟩

/-- A change of the password that is answered with yes gives the new one to the users that the value
looks up; any other one gives it to nobody. -/
lemma bearing_setPassword (d : Desk) (id : Value) (q : String) (hp : Bearing n p s) :
    Bearing n (((Action.call (.setPassword id (.text q))).password? d s n).or p)
      ((Action.call (.setPassword id (.text q))).work.result d s) := by
  rw [result, Action.work, Call.work, lasting_discard]
  dsimp only [Action.password?]
  have hend := at_setPassword (E := fun _ _ => False) id q (d.holding s) (d.holding_at s)
  rcases hrun : run (setPassword id (.text q)) (d.holding s) with ⟨e | b, d'⟩ <;> rw [hrun] at hend
  · exact hend.elim
  · rcases hend with ⟨rfl, t, hchange⟩ | ⟨rfl, hsame⟩
    · obtain ⟨r, g, hr, husers, hg, _⟩ := changeUser_eq_ok hchange
      intro w hw hwid
      rw [husers] at hw
      obtain ⟨u, hu, rfl⟩ := mem_map.mp hw
      have hgu := hg u hu
      split at hgu
      · rename_i hpicked
        obtain ⟨v, hv, hgu⟩ := stamped_eq_ok hgu
        cases hv
        rw [hgu] at hwid ⊢
        rw [← hwid, if_pos ⟨rfl, (names_iff hr).mpr hpicked⟩, some_or]
      · rename_i hother
        rw [← Except.ok.inj hgu] at hwid ⊢
        rw [← hwid, if_neg fun h => hother ((names_iff hr).mp h.2), none_or]
        exact hp u hu hwid
    · rw [hsame.lasting, if_neg fun h => (by cases h.1), none_or]
      exact hp

lemma bearing_result (d : Desk) (a : Action) (hp : Bearing n p s) :
    Bearing n ((a.password? d s n).or p) (a.work.result d s) := by
  by_cases hset : ∀ id q, a ≠ .call (.setPassword id (.text q))
  · rcases left_result d a with hsame | hwritten
    · refine hp.keep hset fun w hw => ?_
      rw [hsame] at hw
      exact ⟨w, hw, rfl, rfl⟩
    · exact bearing_written hset hwritten hp
  · simp only [not_forall, not_not] at hset
    obtain ⟨id, q, rfl⟩ := hset
    exact bearing_setPassword d id q hp

lemma bearing_after (hs : s.Tidy) (hp : Bearing n p s) (steps : List (Desk × Action)) :
    Bearing n (lastPassword n s p steps) (s.after Action.work steps) := by
  induction steps generalizing s p with
  | nil => exact hp
  | cons step steps ih =>
    exact ih (tidy_result hs step.1 step.2) (bearing_result step.1 step.2 hp)

end

/-! ## Who is admitted -/

/-- The user that a login is about: the one with the address, or else the one with the name. -/
def loginOf (s : Store) (name : String) : Option User :=
  (s.users.find? (·.email == Text.lowered name)).or (s.users.find? (·.username == name))

section

variable {v : User} {p : String} {E : Fault → Desk → Prop}

lemma ends_succeeds (P : Desk → Prop) (x : Work Unit) :
    Ends P (succeeds x) (fun _ _ => True) E := by
  refine Ends.tryCatch (F := fun _ _ => True) (fun d _ => ?_) fun _ _ _ => trivial
  rcases run (do x; return true) d with ⟨_ | _, _⟩ <;> trivial

lemma steady_findByLogin (hs : s.Distinct) (name : String) :
    Ends (Steady True s) (findByLogin (.text name))
      (fun found d => Steady True s d ∧ found = loginOf s name) E := by
  refine (steady_findByEmail _).bind fun found => Ends.assume fun hfound => ?_
  have hemail : found = s.users.find? (·.email == Text.lowered name) :=
    (withEmail_eq hs name ▸ hfound.1 name rfl).eq
  cases found with
  | some u => exact ends_pure fun d hd => ⟨hd, by rw [loginOf, ← hemail, some_or]⟩
  | none =>
    refine (steady_found _).imp fun found d h => ⟨h.1, ?_⟩
    rw [loginOf, ← hemail, none_or]
    exact (withUsername_eq hs name ▸ h.2).eq

lemma steady_authenticate (hs : s.Distinct) (name p : String) :
    Ends (Steady True s) (authenticate (.text name) (.text p))
      (fun r _ => ∃ l, r = ((loginOf s name).filter fun u => u.isActive && p == u.password).map
        fun u => { u with lastLogin := l })
      (fun _ _ => False) := by
  refine Ends.orElse (F := fun _ _ => False) ?_ fun _ _ h => h.elim
  refine (steady_findByLogin hs name).bind fun found => Ends.assume fun hfound => ?_
  rw [← hfound]
  cases found with
  | none => exact ends_pure fun _ _ => ⟨none, rfl⟩
  | some u =>
    dsimp only
    split
    · rename_i hinactive
      refine ends_pure fun _ _ => ⟨none, ?_⟩
      rw [filter_some, if_neg (by simp_all), map_none]
    · rename_i hactive
      refine Ends.bind (R := fun known d => Steady True s d ∧ known = (p == u.password))
        (fun d hd => ⟨hd, rfl⟩) fun known => Ends.assume fun hknown => ?_
      split
      · refine ends_pure fun _ _ => ⟨none, ?_⟩
        rw [filter_some, if_neg (by simp_all), map_none]
      · rename_i hpassword
        have hadmitted (l : Option Moment) : some { u with lastLogin := l } =
            ((some u).filter fun u => u.isActive && p == u.password).map
              fun u => { u with lastLogin := l } := by
          rw [filter_some, if_pos (by simp_all), map_some]
        -- The user is let in whether the login can be noted or not.
        refine (ends_succeeds _ _).bind fun noted => ?_
        split
        · exact ends_now.bind fun t => ends_pure fun _ _ => ⟨some t, hadmitted _⟩
        · exact ends_pure fun _ _ => ⟨u.lastLogin, hadmitted _⟩

lemma mem_of_loginOf (h : loginOf s name = some v) : v ∈ s.users := by
  unfold loginOf at h
  rcases or_eq_some_iff.mp h with h | ⟨_, h⟩
  · exact mem_of_find?_eq_some h
  · exact mem_of_find?_eq_some h

lemma loginOf_email (hs : s.Tidy) (hu : u ∈ s.users)
    (hname : Text.lowered name = Text.lowered u.email) : loginOf s name = some u := by
  have hfind := find?_key hs.emails hu
  rw [loginOf, hname, hs.lowered u hu, hfind, some_or]

lemma loginOf_username_iff (hs : s.Tidy) (hu : u ∈ s.users) :
    loginOf s u.username = some u ↔ ∀ v ∈ s.users, v.email = Text.lowered u.username → v = u := by
  have hname := find?_key hs.usernames hu
  unfold loginOf
  rw [hname]
  constructor
  · intro h v hv hemail
    rw [← hemail, find?_key hs.emails hv, some_or] at h
    exact some.inj h
  · intro hfree
    cases hfind : s.users.find? (·.email == Text.lowered u.username) with
    | none => rw [none_or]
    | some v =>
      have hemail := find?_some hfind
      rw [hfree v (mem_of_find?_eq_some hfind) (beq_iff_eq.mp hemail), some_or]

/-- A user is admitted under a name with a password. -/
def Admits (d : Desk) (s : Store) (name p : String) (u : User) : Prop :=
  ∃ l, (run (authenticate (.text name) (.text p)) (d.holding s)).1 =
    .ok (some { u with lastLogin := l })

/-- With the right password, the user that a login is about is admitted and nobody else is. -/
lemma admits_iff (hs : s.Distinct) (hd : d.Answers) (hu : u ∈ s.users) (hactive : u.isActive = true) :
    Admits d s name u.password u ↔ loginOf s name = some u := by
  have hend := steady_authenticate hs name u.password (d.holding s)
    ⟨d.holding_at s, fun _ => hd⟩
  unfold Admits
  rcases hrun : run (authenticate (.text name) (.text u.password)) (d.holding s) with ⟨e | r, d'⟩ <;>
    rw [hrun] at hend
  · exact hend.elim
  · obtain ⟨l, rfl⟩ := hend
    constructor
    · rintro ⟨l', hadmitted⟩
      obtain ⟨v, hv, hsame⟩ := map_eq_some_iff.mp (Except.ok.inj hadmitted)
      have hlogin : loginOf s name = some v := (filter_eq_some_iff.mp hv).1
      -- The rows agree but for the login, and a number belongs to one row.
      have hid := congrArg User.id hsame
      rw [hlogin, hs.eq_of_id (mem_of_loginOf hlogin) hu hid]
    · intro hlogin
      refine ⟨l, ?_⟩
      rw [hlogin, filter_some, if_pos (by simp [hactive]), map_some]

end

/-- After any run of calls about accounts from an empty store, an active user has a password that was
given last. Where statements are answered, the user is admitted with it by the address in any case,
and by the name exactly if nobody else has the name as an address. -/
theorem admitted_by_name_iff {u : User} (steps : List (Desk × Action))
    (hu : u ∈ (Store.after Action.work {} steps).users) (hactive : u.isActive = true) :
    ∃ p, lastPassword u.id {} none steps = some p ∧ ∀ d : Desk, d.Answers →
      (∀ e, Text.lowered e = Text.lowered u.email →
        Admits d (Store.after Action.work {} steps) e p u) ∧
      (Admits d (Store.after Action.work {} steps) u.username p u ↔
        ∀ v ∈ (Store.after Action.work {} steps).users, v.email = Text.lowered u.username →
          v = u) := by
  have hs : (Store.after Action.work {} steps).Tidy := tidy_after tidy_empty steps
  have hnobody : Bearing u.id none {} := fun w hw => by cases hw
  refine ⟨u.password, bearing_after tidy_empty hnobody steps u hu rfl, fun d hd => ⟨?_, ?_⟩⟩
  · intro e he
    exact (admits_iff hs.toDistinct hd hu hactive).mpr (loginOf_email hs hu he)
  · rw [admits_iff hs.toDistinct hd hu hactive, loginOf_username_iff hs hu]

def nameBody : Value :=
  .object [("email", .text "ann@x.io"), ("username", .text "bob@x.io"),
    ("password", .text "secret-1")]

def addressBody : Value :=
  .object [("email", .text "bob@x.io"), ("username", .text "bob"), ("password", .text "secret-2")]

/-- The first user is not admitted by name, at no desk that answers, but is by the address. -/
theorem name_hidden_by_address :
    let steps := [(quietDesk, .call (.register nameBody)), (quietDesk, .call (.register addressBody))]
    ∃ u ∈ (Store.after Action.work {} steps).users, u.isActive = true ∧
      lastPassword u.id {} none steps = some "secret-1" ∧
      ∀ d : Desk, d.Answers → Admits d (Store.after Action.work {} steps) "ANN@x.io" "secret-1" u ∧
        ¬Admits d (Store.after Action.work {} steps) u.username "secret-1" u := by
  intro steps
  have hann : (Store.after Action.work {} steps).users.any (fun u => decide (u.id = 1 ∧
      u.isActive = true ∧ u.email = "ann@x.io" ∧ u.username = "bob@x.io" ∧
      u.password = "secret-1")) = true := by decide +kernel
  have hbob : (Store.after Action.work {} steps).users.any (fun v => decide (v.id = 2 ∧
      v.email = "bob@x.io")) = true := by decide +kernel
  obtain ⟨u, hu, hann⟩ := any_eq_true.mp hann
  obtain ⟨v, hv, hbob⟩ := any_eq_true.mp hbob
  obtain ⟨hid, hactive, hemail, hname, hpassword⟩ := of_decide_eq_true hann
  obtain ⟨hvid, hvemail⟩ := of_decide_eq_true hbob
  have hsecret : lastPassword u.id {} none steps = some "secret-1" := by
    rw [hid]
    decide +kernel
  obtain ⟨p, hp, hadmits⟩ := admitted_by_name_iff steps hu hactive
  obtain rfl : p = "secret-1" := Option.some.inj (hp.symm.trans hsecret)
  refine ⟨u, hu, hactive, hsecret, fun d hd => ⟨(hadmits d hd).1 _ ?_, fun hadmitted => ?_⟩⟩
  · rw [hemail]
    decide +kernel
  · have hsame := (hadmits d hd).2.mp hadmitted v hv (by rw [hvemail, hname]; decide +kernel)
    rw [hsame, hid] at hvid
    cases hvid

end Accounts

open Work Store

/-! ## Noting a login -/

def User.loggedIn (t : Moment) (u : User) : User :=
  { u with lastLogin := some t, updatedAt := some t }

namespace Store

/-- The store with a login of the user of a number. -/
def noteLogin (n : Int) (t : Moment) (s : Store) : Store :=
  { s with users := s.users.map fun u => if u.id == n then u.loggedIn t else u }

def afterLogin (t : Moment) (found : Option User) (s : Store) : Store :=
  match found with
  | some u => s.noteLogin u.id t
  | none => s

/-- Users that stand together still do after a login, as it is no part of an identity. -/
lemma checkUsers_noteLogin (hs : s.Distinct) (n : Int) (t : Moment) :
    checkUsers (s.noteLogin n t).users = .ok () := by
  have hcolumns (u : User) : ∃ l m : Option Moment,
      (if u.id == n then u.loggedIn t else u) = { u with lastLogin := l, updatedAt := m } := by
    split
    · exact ⟨some t, some t, rfl⟩
    · exact ⟨u.lastLogin, u.updatedAt, rfl⟩
  refine checkUsers_eq_ok_iff.mpr (pairwise_map.mpr ?_)
  refine (checkUsers_eq_ok_iff.mp hs.apart).imp fun {u v} h => ?_
  obtain ⟨_, _, hu⟩ := hcolumns u
  obtain ⟨_, _, hv⟩ := hcolumns v
  rw [hu, hv]
  exact h

lemma changeUser_noteLogin (hs : s.Distinct) (hn : fits n) (t : Moment) :
    s.changeUser (.int n) (Accounts.stamped (fun u => .ok { u with lastLogin := some t }) t) =
      .ok (s.noteLogin n t) := by
  have hrows : changeWhere (fun u => u.id == n)
      (Accounts.stamped (fun u => .ok { u with lastLogin := some t }) t) s.users =
        .ok (s.noteLogin n t).users :=
    changeWhere_eq_map _ _ (User.loggedIn t) s.users fun _ _ => rfl
  rw [changeUser, bind_of_ok (parameter_int hn)]
  simp only [intIs_int]
  rw [bind_of_ok hrows, bind_of_ok (checkUsers_noteLogin hs n t)]
  rfl

end Store

/-! ## Steps of a run -/

lemma Work.run_discard_of_ok {α : Type} {x : Work α} {a : α} {d' : Desk}
    (h : run x d = (.ok a, d')) : run (discard x) d = (.ok (), d') := by
  rw [run_discard, h]

def Desk.later (d : Desk) (n : Nat) (s : Store) : Desk := { d.holding s with statements := n }

lemma Work.Calm.later (hd : Calm d t s) (n : Nat) (s' : Store) : Calm (d.later n s') t s' :=
  ⟨hd.statement, hd.commit, hd.now, rfl, rfl⟩

lemma Work.Calm.later_eq (hd : Calm d t s) (n : Nat) :
    { d with statements := n } = d.later n s := by
  unfold Desk.later Desk.holding
  rw [← hd.store, show d.store = d.lasting from hd.store.trans hd.lasting.symm]

/-! ## Runs -/

namespace Accounts

def admitted (s : Store) (name password : String) : Option User :=
  (loginOf s name).filter fun u => u.isActive && password == u.password

section

variable {password : String}

lemma admitted_of_unknown (h : loginOf s name = none) : admitted s name password = none := by
  rw [admitted, h, filter_none]

lemma admitted_of_known (h : loginOf s name = some u) :
    admitted s name password = if u.isActive && password == u.password then some u else none := by
  rw [admitted, h, filter_some]

lemma mem_of_admitted (h : admitted s name password = some u) : u ∈ s.users :=
  mem_of_loginOf (filter_eq_some_iff.mp h).1

end

lemma run_findByLogin (hd : Calm d t s) (hs : s.Distinct) (name : String) :
    ∃ n, run (findByLogin (.text name)) d = (.ok (loginOf s name), d.later n s) := by
  simp only [← hd.later_eq]
  obtain rfl := hd.store
  have hemail : run (findByEmail (.text name)) d = _ :=
    run_found (hd.statement _) (withEmail_eq hs name)
  simp only [findByLogin, run_bind, hemail, loginOf]
  cases d.store.users.find? (·.email == Text.lowered name) with
  | some u => exact ⟨_, rfl⟩
  | none => exact ⟨_, run_found (hd.statement _) (withUsername_eq hs name)⟩

lemma run_stampLogin (hd : Calm d t s) (hs : s.Distinct) (hn : fits n) :
    run (stampLogin (.int n)) d = (.ok true, d.later (d.statements + 1) (s.noteLogin n t)) := by
  obtain rfl := hd.store
  obtain rfl := hd.now
  have hwrite := run_write (hd.statement _) hd.commit (changeUser_noteLogin hs hn d.now)
  simp only [stampLogin, Work.succeeds, run_tryCatch, run_bind, run_now, hwrite, run_pure]
  rfl

lemma run_passwordIs (password : String) (u : User) (d : Desk) :
    run (ofOutcome (passwordIs (.text password) u)) d = (.ok (password == u.password), d) :=
  run_ofOutcome _ d

lemma run_authenticate (hd : Calm d t s) (hs : s.Distinct) (hfits : ∀ u ∈ s.users, fits u.id)
    (name password : String) : ∃ n, run (authenticate (.text name) (.text password)) d =
      (.ok ((admitted s name password).map fun u => { u with lastLogin := some t }),
        d.later n (s.afterLogin t (admitted s name password))) := by
  obtain ⟨m, hfind⟩ := run_findByLogin hd hs name
  simp only [authenticate, Work.orElse, run_tryCatch, run_bind_of_ok hfind]
  cases hlogin : loginOf s name with
  | none =>
    rw [admitted_of_unknown hlogin]
    exact ⟨m, rfl⟩
  | some u =>
    have hstamp := run_stampLogin (hd.later m s) hs (hfits u (mem_of_loginOf hlogin))
    dsimp only
    by_cases hactive : u.isActive = true
    · rw [if_neg (by simp [hactive]), run_bind_of_ok (run_passwordIs password u _)]
      by_cases hpassword : password = u.password
      · rw [if_neg (by simp [hpassword]), run_bind_of_ok hstamp, if_pos rfl,
          admitted_of_known hlogin, if_pos (by simp [hactive, hpassword]), ← hd.now]
        exact ⟨m + 1, rfl⟩
      · rw [if_pos (by simp [hpassword]), admitted_of_known hlogin, if_neg (by simp [hpassword])]
        exact ⟨m, rfl⟩
    · rw [if_pos (by simp [hactive]), admitted_of_known hlogin, if_neg (by simp [hactive])]
      exact ⟨m, rfl⟩

end Accounts

/-! ## Tokens -/

namespace Api

open Accounts (admitted loginOf run_findByLogin run_stampLogin run_passwordIs admitted_of_known
  admitted_of_unknown mem_of_loginOf)
open Token (Policy Kind expiry)

/-- Tokens of one user: each opens to the number of that user as a token of its kind and up to the
second in which it expires. -/
def Tokens.Open (ts : Tokens) (p : Policy) (t : Moment) (n : Int) : Prop :=
  ∀ kind now,
    Token.verify p kind ts.access now =
        .ok (if now.seconds ≤ (expiry p .access t none).seconds ∧ kind = .access then
          some (Value.intText n) else none) ∧
      Token.verify p kind ts.refresh now =
        .ok (if now.seconds ≤ (expiry p .refresh t none).seconds ∧ kind = .refresh then
          some (Value.intText n) else none)

lemma open_of_issued {ts : Tokens} (h : (run (issueTokens n) d).1 = .ok ts) :
    ts.Open d.settings.tokens d.now n := by
  obtain ⟨haccess, hrefresh⟩ := issueTokens_eq_ok.mp h
  exact fun kind now => ⟨Token.verify_issued rfl haccess kind now,
    Token.verify_issued rfl hrefresh kind now⟩

lemma run_issueTokens_later (d : Desk) (m : Nat) (s : Store) (n : Int) :
    run (issueTokens n) (d.later m s) = ((run (issueTokens n) d).1, d.later m s) := by
  refine Prod.ext ?_ ?_
  · rw [run_issueTokens, run_issueTokens]
    rfl
  · simp only [issueTokens, run_bind, run_settings, run_now, run_ofOutcome]
    generalize Token.issue _ .access _ _ _ = access, Token.issue _ .refresh _ _ _ = refresh
    cases access with
    | error e => rfl
    | ok access => cases refresh <;> rfl

/-- What is answered to a request for tokens that admits somebody or nobody. -/
inductive Answered (d : Desk) : Option User → Outcome Tokens → Prop
  | tokens (u : User) : Answered d (some u) (run (issueTokens u.id) d).1
  | refused {e : Fault} (he : Unauthorized e) : Answered d none (.error e)

lemma run_login (hd : Calm d t s) (hs : s.Distinct) (hfits : ∀ u ∈ s.users, fits u.id)
    (name password : String) : ∃ n o, run (login (.text name) (.text password)) d =
        (o, d.later n (s.afterLogin t (admitted s name password))) ∧
      Answered d (admitted s name password) o := by
  obtain ⟨m, hfind⟩ := run_findByLogin hd hs name
  simp only [login, run_bind_of_ok hfind]
  cases hlogin : loginOf s name with
  | none =>
    rw [admitted_of_unknown hlogin]
    exact ⟨m, _, rfl, .refused ⟨_, _, rfl⟩⟩
  | some u =>
    have hstamp := run_stampLogin (hd.later m s) hs (hfits u (mem_of_loginOf hlogin))
    dsimp only
    rw [run_bind_of_ok (run_passwordIs password u _)]
    by_cases hpassword : password = u.password
    · rw [if_neg (by simp [hpassword])]
      by_cases hactive : u.isActive = true
      · rw [admitted_of_known hlogin, if_neg (by simp [hactive]),
          if_pos (by simp [hactive, hpassword]), run_bind_of_ok (run_discard_of_ok hstamp)]
        exact ⟨m + 1, _, run_issueTokens_later d _ _ _, .tokens u⟩
      · have hnone : admitted s name password = none := by
          simp [admitted_of_known hlogin, hactive]
        rw [hnone, if_pos (by simp [hactive])]
        exact ⟨m, _, rfl, .refused ⟨_, _, rfl⟩⟩
    · have hnone : admitted s name password = none := by
        simp [admitted_of_known hlogin, hpassword]
      rw [hnone, if_pos (by simp [hpassword])]
      exact ⟨m, _, rfl, .refused ⟨_, _, rfl⟩⟩

/-- Where no statement fails, a name and a password get tokens exactly if the service of accounts
admits somebody with them and the calendar has room for both tokens. Both then mean the same user
and write the login of that user and nothing else, the request for tokens also if the calendar has
no room; if nobody is admitted, nothing is written. -/
theorem login_iff_authenticate (hd : Calm d t s) (hs : s.Distinct)
    (hfits : ∀ u ∈ s.users, fits u.id) (name password : String) :
    ∃ found a o l, run (Accounts.authenticate (.text name) (.text password)) d = (.ok found, a) ∧
      run (login (.text name) (.text password)) d = (o, l) ∧ ((∃ ts, o = .ok ts) ↔
        found.isSome ∧ ∀ k, (expiry d.settings.tokens k t none).inCalendar = true) ∧
      (∀ u, found = some u → (∃ v ∈ s.users, u = { v with lastLogin := some t }) ∧
          At (s.noteLogin u.id t) a ∧ At (s.noteLogin u.id t) l ∧
          (∀ ts, o = .ok ts → ts.Open d.settings.tokens t u.id) ∧
          ∀ e, o = .error e → e = .tooLarge "date value out of range") ∧
      (found = none → At s a ∧ At s l ∧ ∃ e, o = .error e ∧ Unauthorized e) := by
  obtain ⟨m, hservice⟩ := Accounts.run_authenticate hd hs hfits name password
  obtain ⟨n, o, hrequest, hanswered⟩ := run_login hd hs hfits name password
  refine ⟨_, _, o, _, hservice, hrequest, ?_⟩
  cases hadmitted : admitted s name password with
  | none =>
    rw [hadmitted] at hanswered
    cases hanswered with
    | refused he =>
      refine ⟨by simp, ?_, fun _ => ⟨⟨rfl, rfl⟩, ⟨rfl, rfl⟩, _, rfl, he⟩⟩
      rintro _ ⟨⟩
  | some v =>
    rw [hadmitted] at hanswered
    cases hanswered with
    | tokens =>
      obtain rfl := hd.now
      refine ⟨?_, ?_, fun h => by cases h⟩
      · rw [exists_issueTokens]
        simp
      · rintro _ ⟨⟩
        exact ⟨⟨v, Accounts.mem_of_admitted hadmitted, rfl⟩, ⟨rfl, rfl⟩, ⟨rfl, rfl⟩,
          fun _ => open_of_issued, fun _ => issueTokens_eq_error⟩

def oneMember : Store := { users := [member] }

lemma distinct_oneMember : oneMember.Distinct := ⟨by simp [oneMember], rfl⟩

lemma fits_oneMember : ∀ u ∈ oneMember.users, fits u.id :=
  forall_mem_singleton.mpr (by decide)

lemma calm_oneMember (t : Moment) : Calm ((deskAt t).holding oneMember) t oneMember :=
  ⟨fun _ => rfl, rfl, rfl, rfl, rfl⟩

lemma admitted_member : admitted oneMember "ann" "secret-1" = some member := rfl

lemma admitted_stranger : admitted oneMember "ann" "secret-2" = none := rfl

/-- The member gets tokens by name and password, and the login is written; with another password
nothing is. -/
theorem member_logs_in :
    (∃ ts l, run (login (.text "ann") (.text "secret-1")) ((deskAt ⟨0⟩).holding oneMember) =
        (.ok ts, l) ∧ At { oneMember with users := [member.loggedIn ⟨0⟩] } l) ∧
      ∃ e l, run (login (.text "ann") (.text "secret-2")) ((deskAt ⟨0⟩).holding oneMember) =
        (.error e, l) ∧ At oneMember l := by
  have hservice (password : String) := Accounts.run_authenticate (calm_oneMember ⟨0⟩)
    distinct_oneMember fits_oneMember "ann" password
  have hends (password : String) := login_iff_authenticate (calm_oneMember ⟨0⟩) distinct_oneMember
    fits_oneMember "ann" password
  constructor
  · obtain ⟨_, hfound⟩ := hservice "secret-1"
    obtain ⟨found, a, o, l, hrun, hlogin, hok, hsome, _⟩ := hends "secret-1"
    rw [hfound, admitted_member] at hrun
    obtain ⟨hfound, _⟩ := Prod.mk.inj hrun
    obtain rfl := Except.ok.inj hfound
    obtain ⟨ts, rfl⟩ := hok.mpr ⟨rfl, fun k => by cases k <;> decide⟩
    exact ⟨ts, l, hlogin, (hsome _ rfl).2.2.1⟩
  · obtain ⟨_, hfound⟩ := hservice "secret-2"
    obtain ⟨found, a, o, l, hrun, hlogin, _, _, hnone⟩ := hends "secret-2"
    rw [hfound, admitted_stranger] at hrun
    obtain ⟨hfound, _⟩ := Prod.mk.inj hrun
    obtain rfl := Except.ok.inj hfound
    obtain ⟨_, hl, e, rfl, _⟩ := hnone rfl
    exact ⟨e, l, hlogin, hl⟩

/-- On the last day of the calendar the service admits the member, and the request for tokens fails
after it has written the login. -/
theorem fails_on_last_day : (run (Accounts.authenticate (.text "ann") (.text "secret-1"))
        ((deskAt .latest).holding oneMember)).1 =
          .ok (some { member with lastLogin := some .latest }) ∧
      (run (login (.text "ann") (.text "secret-1")) ((deskAt .latest).holding oneMember)).1 =
        .error (.tooLarge "date value out of range") ∧ (run (login (.text "ann") (.text "secret-1"))
        ((deskAt .latest).holding oneMember)).2.lasting =
          { oneMember with users := [member.loggedIn .latest] } := by
  obtain ⟨m, hservice⟩ := Accounts.run_authenticate (calm_oneMember .latest) distinct_oneMember
    fits_oneMember "ann" "secret-1"
  obtain ⟨n, o, hrequest, hanswered⟩ := run_login (calm_oneMember .latest) distinct_oneMember
    fits_oneMember "ann" "secret-1"
  rw [admitted_member] at hservice hrequest hanswered
  rw [hservice, hrequest]
  cases hanswered with
  | tokens =>
    refine ⟨rfl, ?_, rfl⟩
    rw [run_issueTokens, Token.issue_eq, if_neg (by decide)]

end Api

end ReviewDesk
