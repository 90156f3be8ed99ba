import Mathlib.Data.List.Pairwise
import ReviewDesk.Proofs.Forms
import ReviewDesk.Proofs.Services
import ReviewDesk.Proofs.Turns

/-!
# Registrations at the same time

A registration takes three turns: it looks for the address, it looks for the name, and it adds the
row. What the searches have seen can be out of date by then, so it is the table that keeps users
apart: however the turns of any number of registrations are mixed, each adds its row or is refused,
and no two that share an address or a name go through.
-/

namespace ReviewDesk

open List Outcome Work Store

/-!
## Users and their identities

No two users have the same number, address, name or identity at a host. Rows that are added keep it
so, and writes do that leave to every user the identities that the user has.
-/

namespace User

variable {u u' v : User} {p q : Provider} {i : String} {j : Option String}

lemma identity_setIdentity (u : User) (p q : Provider) (j : Option String) :
    (u.setIdentity p j).identity q = if q = p then j else u.identity q := by
  cases p <;> cases q <;> rfl

structure SameIdentities (u u' : User) : Prop where
  id : u'.id = u.id
  identity : ∀ p, u'.identity p = u.identity p

lemma SameIdentities.of_columns (hid : u'.id = u.id) (hgithub : u'.githubId = u.githubId)
    (hgitlab : u'.gitlabId = u.gitlabId) (hbitbucket : u'.bitbucketId = u.bitbucketId) :
    u.SameIdentities u' := by
  refine ⟨hid, fun p => ?_⟩
  cases p with
  | github => exact hgithub
  | gitlab => exact hgitlab
  | bitbucket => exact hbitbucket

lemma SameIdentities.refl (u : User) : u.SameIdentities u := ⟨rfl, fun _ => rfl⟩

lemma SameIdentities.trans {w : User} (h : u.SameIdentities v) (h' : v.SameIdentities w) :
    u.SameIdentities w :=
  ⟨h'.id.trans h.id, fun p => (h'.identity p).trans (h.identity p)⟩

/-- A row after a write that leaves number and password, with the address that it had or with one in
small letters. -/
structure Retouched (u u' : User) : Prop where
  id : u'.id = u.id
  password : u'.password = u.password
  email : u'.email = u.email ∨ ∃ e, u'.email = Text.lowered e

lemma Retouched.refl (u : User) : u.Retouched u := ⟨rfl, rfl, .inl rfl⟩

lemma Retouched.trans (h : u.Retouched v) (h' : v.Retouched u') : u.Retouched u' := by
  refine ⟨h'.id.trans h.id, h'.password.trans h.password, ?_⟩
  rcases h'.email with heq | hnew
  · rw [heq]
    exact h.email
  · exact .inr hnew

lemma clash_eq_none_iff : u.clash v = none ↔ u.email ≠ v.email ∧ u.username ≠ v.username ∧
      ∀ p i, u.identity p = some i → v.identity p ≠ some i := by
  have hnone {c : Prop} [Decidable c] (x : String) (r : Option String) :
      (if c then some x else r) = none ↔ ¬c ∧ r = none := by
    split <;> simp [*]
  have hshared (x y : Option String) :
      ¬(x.isSome && x == y) = true ↔ ∀ i, x = some i → y ≠ some i := by
    cases x with
    | none => simp
    | some a =>
      simp only [Option.isSome_some, Bool.true_and, beq_iff_eq, Option.some.injEq, forall_eq']
      exact not_congr eq_comm
  simp only [clash, hnone, hshared, beq_iff_eq, and_true]
  refine and_congr_right fun _ => and_congr_right fun _ => ⟨fun h p => ?_, fun h => ?_⟩
  · cases p with
    | github => exact h.1
    | gitlab => exact h.2.1
    | bitbucket => exact h.2.2
  · exact ⟨h .github, h .gitlab, h .bitbucket⟩

def identityColumns : List String := ["github_id", "gitlab_id", "bitbucket_id"]

lemma set_keeps {column : String} {w : Value} (h : u.set column w = .ok u') :
    u'.id = u.id ∧ (column ≠ "hashed_password" → u'.password = u.password) ∧
      (column ≠ "email" → u'.email = u.email) ∧ (column ∉ identityColumns → u.SameIdentities u') := by
  unfold User.set at h
  split at h
  all_goals
    repeat obtain ⟨_, _, h⟩ := bind_eq_ok h
    cases h
  all_goals refine ⟨rfl, fun hc => ?_, fun hc => ?_, fun hc => ?_⟩
  all_goals first
    | rfl | exact absurd rfl hc | exact .of_columns rfl rfl rfl rfl | exact absurd (by decide) hc

end User

/-! ## Tables of users -/

namespace Store

variable {s s₁ s₂ : Store} {p : Provider} {i : String} {u v : User}
variable {make : Int → Outcome User} {id : Value} {f : User → Outcome User}

lemma checkUsers_eq_ok_iff {us : List User} :
    checkUsers us = .ok () ↔ us.Pairwise fun u v => u.clash v = none := by
  induction us with
  | nil => simp [checkUsers]
  | cons u us ih =>
    rw [pairwise_cons, ← ih, checkUsers, ← findSome?_eq_none_iff]
    cases us.findSome? u.clash with
    | none => simp
    | some column => simp

/-- Users that have different numbers and can stand together. -/
structure Distinct (s : Store) : Prop where
  numbered : (s.users.map (·.id)).Nodup
  apart : checkUsers s.users = .ok ()

lemma distinct_empty : Distinct {} := ⟨nodup_nil, rfl⟩

lemma Distinct.eq_of_id (h : s.Distinct) (hu : u ∈ s.users) (hv : v ∈ s.users)
    (hid : u.id = v.id) : u = v :=
  eq_of_key h.numbered hu hv hid

lemma Distinct.eq_of_identity (h : s.Distinct) (hu : u ∈ s.users) (hv : v ∈ s.users)
    (hui : u.identity p = some i) (hvi : v.identity p = some i) : u = v := by
  have hapart := checkUsers_eq_ok_iff.mp h.apart
  generalize s.users = us at hu hv hapart
  induction us with
  | nil => cases hu
  | cons w us ih =>
    obtain ⟨hw, hrest⟩ := pairwise_cons.mp hapart
    have hdiffer {x : User} (hx : x ∈ us) (hwi : w.identity p = some i) :
        x.identity p ≠ some i := (User.clash_eq_none_iff.mp (hw x hx)).2.2 p i hwi
    rcases mem_cons.mp hu with rfl | hu' <;> rcases mem_cons.mp hv with rfl | hv'
    · rfl
    · exact absurd hvi (hdiffer hv' hui)
    · exact absurd hui (hdiffer hu' hvi)
    · exact ih hu' hv' hrest

/-- Every user is still there, with the same identities. -/
def KeepsIdentities (s s' : Store) : Prop :=
  ∀ u ∈ s.users, ∃ u' ∈ s'.users, u.SameIdentities u'

lemma addUser_eq_ok (h : s.addUser make = .ok (u, s₁)) :
    make (nextId (s.users.map (·.id))) = .ok u ∧ s₁.users = s.users ++ [u] ∧
      checkUsers s₁.users = .ok () := by
  obtain ⟨v, hv, h⟩ := bind_eq_ok h
  obtain ⟨_, hcheck, h⟩ := bind_eq_ok h
  cases h
  exact ⟨hv, rfl, hcheck⟩

lemma Distinct.addUser (hmake : ∀ n v, make n = .ok v → v.id = n)
    (hs : s.Distinct) (h : s.addUser make = .ok (u, s₁)) : s₁.Distinct := by
  obtain ⟨hu, husers, hcheck⟩ := addUser_eq_ok h
  refine ⟨?_, hcheck⟩
  rw [husers]
  exact nodup_snoc hs.numbered (hmake _ _ hu ▸ nextId_notMem _)

lemma changeUser_eq_ok (h : s.changeUser id f = .ok s₁) :
    ∃ q g, parameter id = .ok q ∧ s₁.users = s.users.map g ∧
      (∀ u ∈ s.users, (if intIs u.id q then f u else .ok u) = .ok (g u)) ∧
      checkUsers s₁.users = .ok () := by
  obtain ⟨q, hq, h⟩ := bind_eq_ok h
  obtain ⟨users, husers, h⟩ := bind_eq_ok h
  obtain ⟨_, hcheck, h⟩ := bind_eq_ok h
  obtain ⟨g, hmap, hg⟩ := changeWhere_map husers
  cases h
  exact ⟨q, g, hq, hmap, hg, hcheck⟩

lemma Distinct.changeUser (hf : ∀ u u', f u = .ok u' → u'.id = u.id) (hs : s.Distinct)
    (h : s.changeUser id f = .ok s₁) : s₁.Distinct := by
  obtain ⟨q, g, _, husers, hg, hcheck⟩ := changeUser_eq_ok h
  refine ⟨?_, hcheck⟩
  have hids : s₁.users.map (·.id) = s.users.map (·.id) := by
    rw [husers, map_map]
    refine map_congr_left fun u hu => ?_
    have hgu := hg u hu
    split at hgu
    · exact hf u _ hgu
    · exact congrArg User.id (Except.ok.inj hgu).symm
  rw [hids]
  exact hs.numbered

/-- Distinct users, among them those of `s` with the same identities. -/
structure Undisturbed (s s' : Store) : Prop where
  distinct : s'.Distinct
  keeps : s.KeepsIdentities s'

lemma Undisturbed.refl (hs : s.Distinct) : s.Undisturbed s :=
  ⟨hs, fun u hu => ⟨u, hu, .refl u⟩⟩

lemma Undisturbed.addUser (hmake : ∀ n v, make n = .ok v → v.id = n) (h : s.Undisturbed s₁)
    (hs : s₁.addUser make = .ok (u, s₂)) : s.Undisturbed s₂ := by
  refine ⟨h.distinct.addUser hmake hs, fun v hv => ?_⟩
  obtain ⟨v', hv', hsame⟩ := h.keeps v hv
  obtain ⟨_, husers, _⟩ := addUser_eq_ok hs
  exact ⟨v', husers ▸ mem_append_left _ hv', hsame⟩

lemma Undisturbed.changeUser
    (hf : ∀ u u', f u = .ok u' → u.SameIdentities u') (h : s.Undisturbed s₁)
    (hs : s₁.changeUser id f = .ok s₂) : s.Undisturbed s₂ := by
  refine ⟨h.distinct.changeUser (fun u u' hu => (hf u u' hu).id) hs, fun v hv => ?_⟩
  obtain ⟨v', hv', hsame⟩ := h.keeps v hv
  obtain ⟨q, g, _, husers, hg, _⟩ := changeUser_eq_ok hs
  refine ⟨g v', husers ▸ mem_map_of_mem hv', hsame.trans ?_⟩
  have hgv := hg v' hv'
  split at hgv
  · exact hf v' _ hgv
  · rw [← Except.ok.inj hgv]
    exact .refl v'

end Store

open List Work Store Floor

namespace Store

variable {s : Store}

/-- The last row is kept out by the first one that it cannot stand with. -/
lemma checkUsers_concat {us : List User} (hs : checkUsers us = .ok ()) (w : User) :
    checkUsers (us ++ [w]) = (us.findSome? (·.clash w)).elim (.ok ()) fun column =>
      .error (.conflict ("UNIQUE constraint failed: " ++ column)) := by
  induction us with
  | nil => rfl
  | cons u us ih =>
    rw [checkUsers] at hs
    cases hfind : us.findSome? u.clash with
    | some column =>
      rw [hfind] at hs
      cases hs
    | none =>
      rw [hfind] at hs
      rw [cons_append, checkUsers, findSome?_append, hfind, findSome?_cons, ih hs]
      cases hclash : u.clash w <;> simp [hclash]

lemma addUser_eq (hs : checkUsers s.users = .ok ()) {make : Int → Outcome User} {w : User}
    (hmake : make (nextId (s.users.map (·.id))) = .ok w) :
    s.addUser make = (s.users.findSome? (·.clash w)).elim
      (.ok (w, { s with users := s.users ++ [w] })) fun column =>
        .error (.conflict ("UNIQUE constraint failed: " ++ column)) := by
  simp only [addUser, hmake, bind_ok, checkUsers_concat hs]
  cases s.users.findSome? (·.clash w) <;> rfl

/-- A user without identities is kept out by an address or a name, and by nothing else. -/
lemma addUser_newUser (hs : checkUsers s.users = .ok ()) (f : Filled) (t : Moment) :
    (∃ n, s.addUser (fun id => .ok (Accounts.newUser f t id)) =
        .ok (Accounts.newUser f t n, { s with users := s.users ++ [Accounts.newUser f t n] })) ∨
      ∃ m u, s.addUser (fun id => .ok (Accounts.newUser f t id)) = .error (.conflict m) ∧
        u ∈ s.users ∧ (u.email = Text.lowered (f.text "email") ∨ u.username = f.text "username") := by
  let v := Accounts.newUser f t (nextId (s.users.map (·.id)))
  have hadd : s.addUser (fun id => .ok (Accounts.newUser f t id)) = _ := addUser_eq hs (w := v) rfl
  cases hfind : s.users.findSome? (·.clash v) with
  | none =>
    rw [hfind] at hadd
    exact .inl ⟨_, hadd⟩
  | some column =>
    rw [hfind] at hadd
    obtain ⟨u, hu, hclash⟩ := exists_of_findSome?_eq_some hfind
    refine .inr ⟨_, u, hadd, hu, ?_⟩
    by_contra hshares
    have hapart : u.clash v = none := User.clash_eq_none_iff.mpr
      ⟨fun h => hshares (.inl h), fun h => hshares (.inr h), fun p i _ hv => by
        cases p <;> cases hv⟩
    rw [hapart] at hclash
    cases hclash

end Store

/-! ## One registration -/

namespace Accounts

lemma findByEmail_sound (e : String) (d : Desk) : ∃ found,
      run (findByEmail (.text e)) d = (.ok found, d.asked) ∧
      ∀ u, found = some u → u ∈ d.store.users ∧ u.email = Text.lowered e := by
  obtain ⟨found, hrun, hfound⟩ := run_search (withEmail e) d
  refine ⟨found, hrun, fun u hu => ?_⟩
  obtain ⟨hmem, haddress⟩ := mem_filter.mp (mem_of_one (hfound u hu))
  exact ⟨hmem, beq_iff_eq.mp haddress⟩

lemma findByUsername_sound (name : String) (d : Desk) :
    ∃ found, run (findByUsername (.text name)) d = (.ok found, d.asked) ∧
      ∀ u, found = some u → u ∈ d.store.users ∧ u.username = name := by
  obtain ⟨found, hrun, hfound⟩ := run_search (withUsername (.text name)) d
  refine ⟨found, hrun, fun u hu => ?_⟩
  obtain ⟨hmem, hname⟩ := mem_filter.mp (mem_of_one (hfound u hu))
  exact ⟨hmem, by simpa [textIs, asText?, Value.plain] using hname⟩

/-- A request to register, with the form that is read from it. -/
structure Registration where
  body : Value
  form : Filled
  isRead : Form.userCreate.read body = .ok form

namespace Registration

variable (r : Registration) {us : List User} {e : Fault}

inductive Stage where
  | address
  | name
  | row

/-- The address under which the user is to be stored. -/
def email : String := Text.lowered (r.form.text "email")

def username : String := r.form.text "username"

def part : Procedure Stage User
  | .address =>
    unlessFound (findByEmail (r.form.get "email")) (emailTaken (r.form.text "email"))
      (return .inl .name)
  | .name => unlessFound (findByUsername (r.form.get "username")) (usernameTaken r.username)
      (return .inl .row)
  | .row => do
    let t ← now
    Sum.inr <$> add (Store.addUser fun id => .ok (newUser r.form t id))

def turn : Procedure Stage User :=
  r.part.guarded fun fault => do
    rollback
    throw (conflictAs eitherTaken fault)

lemma straight_turn : r.turn.straight 3 .address = Sum.inr <$> register r.form := by
  have hpart : r.part.straight 3 .address = Sum.inr <$>
      unlessFound (findByEmail (r.form.get "email")) (emailTaken (r.form.text "email"))
        (unlessFound (findByUsername (r.form.get "username")) (usernameTaken r.username) do
          let t ← now
          add (Store.addUser fun id => .ok (newUser r.form t id))) := by
    simp only [map_unlessFound, Procedure.straight_succ, part, unlessFound_bind, pure_bind]
    simp
  rw [turn, Procedure.straight_guarded, hpart, register, map_tryCatch]
  rfl

lemma get_email : r.form.get "email" = .text (r.form.text "email") := by
  obtain ⟨e, he⟩ := Form.get_need_text r.isRead "email" rfl Form.givesText_email
  rw [Filled.text, he, Value.plain]

lemma get_username : r.form.get "username" = .text r.username := by
  obtain ⟨name, hname⟩ := Form.get_need_text r.isRead "username" rfl
    (Form.givesText_text 3 (some 50))
  rw [username, Filled.text, hname, Value.plain]

lemma run_part_row (d : Desk) : run (r.part .row) d =
      run (Sum.inr <$> add (Store.addUser fun id => .ok (newUser r.form d.now id))) d := rfl

/-- Why a registration is refused: a user of the table `us` has its address or its name, or the
commit has the trouble `trouble`. -/
inductive Refused (r : Registration) (us : List User) (trouble : Option Fault) : Fault → Prop
  | email {u : User} (mem : u ∈ us) (same : u.email = r.email) :
    Refused r us trouble (emailTaken (r.form.text "email"))
  | username {u : User} (mem : u ∈ us) (same : u.username = r.username) :
    Refused r us trouble (usernameTaken r.username)
  | either {u : User} (mem : u ∈ us) (same : u.email = r.email ∨ u.username = r.username) :
    Refused r us trouble eitherTaken
  | commit {f : Fault} (fails : trouble = some f) : Refused r us trouble (conflictAs eitherTaken f)

variable {r}

lemma Refused.mono {vs : List User} {trouble : Option Fault}
    (h : r.Refused us trouble e) (hsub : us ⊆ vs) : r.Refused vs trouble e := by
  cases h with
  | email mem same => exact .email (hsub mem) same
  | username mem same => exact .username (hsub mem) same
  | either mem same => exact .either (hsub mem) same
  | commit fails => exact .commit fails

/-- Without trouble it is a user who is in the way, and the answer is that of an invalid request. -/
lemma Refused.taken (h : r.Refused us none e) :
    (∃ m, e = .invalid m) ∧ ∃ u ∈ us, u.email = r.email ∨ u.username = r.username := by
  cases h with
  | email mem same => exact ⟨⟨_, rfl⟩, _, mem, .inl same⟩
  | username mem same => exact ⟨⟨_, rfl⟩, _, mem, .inr same⟩
  | either mem same => exact ⟨⟨_, rfl⟩, _, mem, same⟩
  | commit fails => cases fails

/-- What a turn can do to the store `s`. -/
inductive Leads (r : Registration) (s : Store) (trouble : Option Fault) :
    Outcome (Stage ⊕ User) → Store → Prop
  | further (next : Stage) : Leads r s trouble (.ok (.inl next)) s
  | refused {e : Fault} (why : r.Refused s.users trouble e) : Leads r s trouble (.error e) s
  | added (t : Moment) (n : Int) (apart : checkUsers (s.users ++ [newUser r.form t n]) = .ok ()) :
    Leads r s trouble (.ok (.inr (newUser r.form t n)))
      { s with users := s.users ++ [newUser r.form t n] }

lemma leads_turn (r : Registration) (stage : Stage) {s : Store} (hs : checkUsers s.users = .ok ())
    {d : Desk} (hd : At s d) :
    r.Leads s d.trouble.commit (run (r.turn stage) d).1 (run (r.turn stage) d).2.lasting ∧
      (run (r.turn stage) d).2.trouble = d.trouble := by
  obtain ⟨hstore, rfl⟩ := hd
  rw [turn, Procedure.run_guarded]
  cases stage with
  | address =>
    obtain ⟨found, hrun, hfound⟩ := findByEmail_sound (r.form.text "email") d
    rw [part, get_email, run_unlessFound, hrun]
    cases found with
    | none => exact ⟨.further .name, rfl⟩
    | some u =>
      obtain ⟨hmem, hsame⟩ := hstore ▸ hfound u rfl
      exact ⟨.refused (.email hmem hsame), rfl⟩
  | name =>
    obtain ⟨found, hrun, hfound⟩ := findByUsername_sound r.username d
    rw [part, get_username, run_unlessFound, hrun]
    cases found with
    | none => exact ⟨.further .row, rfl⟩
    | some u =>
      obtain ⟨hmem, hsame⟩ := hstore ▸ hfound u rfl
      exact ⟨.refused (.username hmem hsame), rfl⟩
  | row =>
    -- Whatever was found before, the table as it is now decides.
    rw [run_part_row, run_map, run_add, hstore]
    cases hcommit : d.trouble.commit with
    | some f => exact ⟨.refused (.commit rfl), rfl⟩
    | none =>
      rcases addUser_newUser hs r.form d.now with ⟨n, hadd⟩ | ⟨m, u, hadd, hmem, hsame⟩
      · rw [hadd]
        exact ⟨.added d.now n (addUser_eq_ok hadd).2.2, rfl⟩
      · rw [hadd]
        exact ⟨.refused (.either hmem hsame), rfl⟩

/-! ## Many registrations -/

section

variable {ι : Type} {rs : ι → Registration} {desks : ι → Desk} {s : Store}
  {w : Floor ι Stage User} {rows : List (ι × User)}
variable {i : ι} {stage : Stage}

/-- The registrations that have gone through so far are those of `rows`: each has added one row to
the table `s`, and the others have added none. -/
structure Ledger (rs : ι → Registration) (desks : ι → Desk) (s : Store) (rows : List (ι × User))
    (w : Floor ι Stage User) : Prop where
  once : (rows.map Prod.fst).Nodup
  store : w.store = { s with users := s.users ++ rows.map Prod.snd }
  apart : checkUsers w.store.users = .ok ()
  done : ∀ i u, w.state i = .ended (.ok u) ↔ (i, u) ∈ rows
  own : ∀ i u, (i, u) ∈ rows → ∃ t n, u = newUser (rs i).form t n
  refused : ∀ i e, w.state i = .ended (.error e) →
    (rs i).Refused w.store.users (desks i).trouble.commit e
  trouble : ∀ i, (w.desk i).trouble = (desks i).trouble

lemma ledger_opened (hs : checkUsers s.users = .ok ()) :
    Ledger rs desks s [] (opened s desks .address) where
  once := nodup_nil
  store := by simp [opened]
  apart := hs
  done i u := by simp [opened]
  own i u h := by cases h
  refused i e h := by cases h
  trouble i := rfl

/-- Registrations that have both gone through share neither address nor name. -/
lemma Ledger.eq_of_same (h : Ledger rs desks s rows w) {j : ι} {u v : User}
    (hi : w.state i = .ended (.ok u)) (hj : w.state j = .ended (.ok v))
    (hsame : (rs i).email = (rs j).email ∨ (rs i).username = (rs j).username) : i = j := by
  have hrows : rows.Pairwise fun x y => x.2.email ≠ y.2.email ∧ x.2.username ≠ y.2.username := by
    have hall := checkUsers_eq_ok_iff.mp h.apart
    rw [h.store] at hall
    have hadded := pairwise_map.mp (pairwise_append.mp hall).2.1
    apply hadded.imp
    intro x y hclash
    have hdiffer := User.clash_eq_none_iff.mp hclash
    exact ⟨hdiffer.1, hdiffer.2.1⟩
  by_contra hne
  have hmemi := (h.done i u).mp hi
  have hmemj := (h.done j v).mp hj
  have : Std.Symm fun x y : ι × User => x.2.email ≠ y.2.email ∧ x.2.username ≠ y.2.username :=
    ⟨fun x y hxy => ⟨hxy.1.symm, hxy.2.symm⟩⟩
  obtain ⟨hemail, hname⟩ := hrows.forall hmemi hmemj fun heq => hne (congrArg Prod.fst heq)
  obtain ⟨_, _, rfl⟩ := h.own i u hmemi
  obtain ⟨_, _, rfl⟩ := h.own j v hmemj
  rcases hsame with hsame | hsame
  · exact hemail hsame
  · exact hname hsame

variable [DecidableEq ι]

lemma Ledger.unchanged (h : Ledger rs desks s rows w)
    (hi : w.state i = .going stage) {done : Outcome (Stage ⊕ User) × Desk}
    (hstore : done.2.lasting = w.store) (hfail : ∀ u, done.1 ≠ .ok (.inr u))
    (hwhy : ∀ e, done.1 = .error e → (rs i).Refused w.store.users (desks i).trouble.commit e)
    (htrouble : done.2.trouble = (desks i).trouble) : Ledger rs desks s rows (w.left i done) := by
  have hkept : (w.left i done).store = w.store := hstore
  refine ⟨h.once, hkept.trans h.store, hkept ▸ h.apart, ?_, h.own, ?_,
    trouble_left h.trouble htrouble⟩
  · intro j u
    rw [← h.done]
    by_cases hj : j = i
    · subst hj
      rw [state_left_self, hi]
      constructor
      · intro hstate
        rcases hd : done.1 with e | next | a
        · rw [hd] at hstate
          cases hstate
        · rw [hd] at hstate
          cases hstate
        · exact absurd hd (hfail a)
      · intro hstate
        cases hstate
    · rw [state_left_ne _ hj]
  · intro j e hstate
    rw [hkept]
    by_cases hj : j = i
    · subst hj
      rw [state_left_self] at hstate
      rcases hd : done.1 with e' | next | a
      · rw [hd] at hstate
        cases hstate
        exact hwhy _ hd
      · rw [hd] at hstate
        cases hstate
      · rw [hd] at hstate
        cases hstate
    · rw [state_left_ne _ hj] at hstate
      exact h.refused j e hstate

lemma Ledger.added (h : Ledger rs desks s rows w)
    (hi : w.state i = .going stage) {d : Desk} {t : Moment} {n : Int}
    (hstore : d.lasting = { w.store with users := w.store.users ++ [newUser (rs i).form t n] })
    (hapart : checkUsers (w.store.users ++ [newUser (rs i).form t n]) = .ok ())
    (htrouble : d.trouble = (desks i).trouble) :
    Ledger rs desks s (rows ++ [(i, newUser (rs i).form t n)])
      (w.left i (.ok (.inr (newUser (rs i).form t n)), d)) := by
  have hleft : (w.left i (.ok (.inr (newUser (rs i).form t n)), d)).store =
      { w.store with users := w.store.users ++ [newUser (rs i).form t n] } := hstore
  have hnew : i ∉ rows.map Prod.fst := by
    intro hmem
    obtain ⟨⟨j, u⟩, hrow, rfl⟩ := mem_map.mp hmem
    rw [(h.done j u).mpr hrow] at hi
    cases hi
  refine ⟨?_, ?_, ?_, ?_, ?_, ?_, trouble_left h.trouble htrouble⟩
  · rw [map_append, map_singleton, ← concat_eq_append]
    exact List.Nodup.concat hnew h.once
  · rw [hleft, h.store]
    simp
  · rw [hleft]
    exact hapart
  · intro j u
    by_cases hj : j = i
    · subst hj
      have hnone : (j, u) ∉ rows := fun hmem => hnew (mem_map.mpr ⟨_, hmem, rfl⟩)
      rw [state_left_self]
      simp [CallState.ofTurn, hnone, eq_comm]
    · rw [state_left_ne _ hj, h.done]
      simp [hj]
  · intro j u hmem
    rcases mem_append.mp hmem with hmem | hmem
    · exact h.own j u hmem
    · cases mem_singleton.mp hmem
      exact ⟨t, n, rfl⟩
  · intro j e hstate
    by_cases hj : j = i
    · subst hj
      rw [state_left_self] at hstate
      cases hstate
    · rw [state_left_ne _ hj] at hstate
      rw [hleft]
      exact (h.refused j e hstate).mono (subset_append_left _ _)

lemma ledger_turn (h : Ledger rs desks s rows w) (x : Turn ι)
    (hx : w.state x.caller = .going stage) : ∃ rows', Ledger rs desks s rows'
      (w.left x.caller (run ((rs x.caller).turn stage) (w.deskFor x))) := by
  obtain ⟨hleads, htrouble⟩ := leads_turn (rs x.caller) stage h.apart (w.deskFor_at x)
  rw [w.deskFor_trouble, h.trouble] at hleads htrouble
  generalize run ((rs x.caller).turn stage) (w.deskFor x) = done at hleads htrouble
  obtain ⟨o, d⟩ := done
  generalize hlasting : d.lasting = s' at hleads
  cases hleads with
  | further next =>
    exact ⟨rows, h.unchanged hx hlasting (fun u hu => by cases hu) (fun e he => by cases he)
      htrouble⟩
  | refused why =>
    refine ⟨rows, h.unchanged hx hlasting (fun u hu => by cases hu) ?_ htrouble⟩
    intro e he
    cases he
    exact why
  | added t n apart => exact ⟨_, h.added hx hlasting apart htrouble⟩

/-- The floor after turns of registrations that all begin with the store `s`. -/
def floor (rs : ι → Registration) (desks : ι → Desk) (s : Store) (turns : List (Turn ι)) :
    Floor ι Stage User :=
  (opened s desks .address).after (fun i => (rs i).turn) turns

lemma exists_ledger (rs : ι → Registration) (desks : ι → Desk)
    (hs : checkUsers s.users = .ok ()) (turns : List (Turn ι)) :
    ∃ rows, Ledger rs desks s rows (floor rs desks s turns) := by
  unfold floor
  refine after_induction (I := fun w => ∃ rows, Ledger rs desks s rows w)
    ⟨[], ledger_opened hs⟩ ?_ turns
  rintro w x stage ⟨rows, h⟩ hx
  exact ledger_turn h x hx

def rank : Stage → Nat
  | .address => 2
  | .name => 1
  | .row => 0

lemma rank_turn (r : Registration) (stage next : Stage) (d d' : Desk)
    (h : run (r.turn stage) d = (.ok (.inl next), d')) : rank next < rank stage := by
  have hpart := Procedure.run_of_guarded h
  cases stage with
  | address =>
    obtain ⟨_, hnext⟩ := run_of_unlessFound hpart
    cases hnext
    decide
  | name =>
    obtain ⟨_, hnext⟩ := run_of_unlessFound hpart
    cases hnext
    decide
  | row =>
    rw [run_part_row, run_map] at hpart
    split at hpart
    · cases hpart
    · cases hpart

/-- However the turns of registrations are mixed: a registration that has had its three turns is
over, it has added one row or none, with the answer that the address or the name is taken or with
the trouble of its commit, and among those with the same address or the same name one at most has
gone through. -/
theorem registrations_apart (rs : ι → Registration) (desks : ι → Desk)
    (hs : checkUsers s.users = .ok ()) (turns : List (Turn ι)) :
    (∀ i, (rs i).turn.straight 3 .address = Sum.inr <$> register (rs i).form) ∧
      (∀ i, 3 ≤ turns.countP (·.caller = i) → ∃ o, (floor rs desks s turns).state i = .ended o) ∧
      (∃ rows, Ledger rs desks s rows (floor rs desks s turns)) ∧
      (∀ i e, (floor rs desks s turns).state i = .ended (.error e) →
        (desks i).trouble.commit = none →
        (∃ m, e = .invalid m) ∧ ∃ u ∈ (floor rs desks s turns).store.users,
          u.email = (rs i).email ∨ u.username = (rs i).username) ∧
      ∀ i j u v, (floor rs desks s turns).state i = .ended (.ok u) →
        (floor rs desks s turns).state j = .ended (.ok v) →
        (rs i).email = (rs j).email ∨ (rs i).username = (rs j).username → i = j := by
  obtain ⟨rows, h⟩ := exists_ledger rs desks hs turns
  refine ⟨fun i => (rs i).straight_turn, ?_, ⟨rows, h⟩, ?_, ?_⟩
  · intro i hturns
    exact Floor.ended_of_turns (p := fun i => (rs i).turn) rank (rs i).rank_turn rfl hturns
  · intro i e hstate htrouble
    have hrefused := h.refused i e hstate
    rw [htrouble] at hrefused
    exact hrefused.taken
  · intro i j u v hi hj hsame
    exact h.eq_of_same hi hj hsame

end

def ofBody (body : Value) (h : (Form.userCreate.read body).toOption.isSome = true) : Registration :=
  ⟨body, Form.userCreate.filled body h, Form.read_filled ..⟩

def ann : Registration :=
  ofBody (.object [("email", .text "Ann@x.io"), ("username", .text "ann"),
    ("password", .text "secret-1")]) (by decide +kernel)

def namesake : Registration :=
  ofBody (.object [("email", .text "ann@y.io"), ("username", .text "ann"),
    ("password", .text "secret-2")]) (by decide +kernel)

/-- Both see that the name is free; the row of the second is refused. -/
theorem name_free_for_both :
    let rs : Bool → Registration := fun first => if first then ann else namesake
    let turns := turnsOf [true, false, true, false, true, false]
    let w := floor rs (fun _ => { now := ⟨0⟩ }) {} turns
    (∃ u, w.state true = .ended (.ok u)) ∧
      (∃ m, w.state false = .ended (.error (.invalid m)) ∧ m = eitherTaken.message) ∧
      w.store.users.map (·.email) = ["ann@x.io"] := by
  intro rs turns w
  obtain ⟨_, hended, _, hinvalid, _⟩ :=
    registrations_apart rs (fun _ => { now := ⟨0⟩ }) (s := {}) rfl turns
  obtain ⟨o, ho⟩ := hended true (by decide)
  obtain ⟨o', ho'⟩ := hended false (by decide)
  have hfirst : (w.state true).fault?.map (·.message) = none := by decide +kernel
  have hsecond : (w.state false).fault?.map (·.message) = some eitherTaken.message := by
    decide +kernel
  refine ⟨?_, ?_, by decide +kernel⟩
  · rw [show w.state true = _ from ho] at hfirst ⊢
    cases o with
    | ok u => exact ⟨u, rfl⟩
    | error e => cases hfirst
  · rw [show w.state false = _ from ho'] at hsecond ⊢
    cases o' with
    | ok u => cases hsecond
    | error e =>
      obtain ⟨⟨m, rfl⟩, _⟩ := hinvalid false e ho' rfl
      exact ⟨m, rfl, Option.some.inj hsecond⟩

end Registration

end Accounts

end ReviewDesk
