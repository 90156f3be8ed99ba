import ReviewDesk.Http.Site
import ReviewDesk.Proofs.Work

/-!
# Routes that do not look at passwords

What is done for a request reads and writes repositories, reviews, issues and comments, and of a
user the preferences at most. All this is blind, request by request, and so are all routes but four:
three take a password, and one shows users all that is stored about them.
-/

namespace ReviewDesk

open List Outcome Repositories

variable {α β γ δ : Type} {sight : β → δ} {view : α → γ}

/-!
## Work that does not look at passwords

A row is veiled when its password is taken out of it. Work is run twice, at desks that differ in
passwords only: `Twins` says that two pieces of work then show the same and leave such desks again,
and `Blind` says this of one piece and of all that it gives.
-/

variable {x : Outcome α} {f g : α → Outcome β} {d e : Desk}

/-- Outcomes that show the same in a view still do when each goes on in the same way. -/
lemma map_bind_congr {y : Outcome α} (hx : x.map view = y.map view)
    (hf : ∀ a b, view a = view b → (f a).map sight = (g b).map sight) :
    (x >>= f).map sight = (y >>= g).map sight := by
  rcases cases_of_map_eq hx with ⟨e, rfl, rfl⟩ | ⟨a, b, rfl, rfl, hab⟩
  · rfl
  · exact hf a b hab

lemma map_bind_same
    (hf : ∀ a, (f a).map sight = (g a).map sight) : (x >>= f).map sight = (x >>= g).map sight := by
  cases x with
  | error e => rfl
  | ok a => exact hf a

/-! ## The veil -/

/-- The row without its password. -/
def User.veiled (u : User) : User := { u with password := "" }

def Store.veiled (s : Store) : Store := { s with users := s.users.map User.veiled }

def Desk.veiled (d : Desk) : Desk :=
  { d with store := d.store.veiled, lasting := d.lasting.veiled }

lemma User.veiled_veiled (u : User) : u.veiled.veiled = u.veiled := rfl

lemma Store.veiled_veiled (s : Store) : s.veiled.veiled = s.veiled := by
  simp only [veiled, map_map, Function.comp_def, User.veiled_veiled]

lemma Desk.exists_of_veiled_eq (h : d.veiled = e.veiled) :
    ∃ s l, e = { d with store := s, lasting := l } ∧ s.veiled = d.store.veiled ∧
      l.veiled = d.lasting.veiled := by
  cases d
  cases e
  simp only [Desk.veiled, Desk.mk.injEq] at h
  obtain ⟨hs, hl, rfl, rfl, rfl, rfl, rfl, rfl, rfl, rfl, rfl⟩ := h
  exact ⟨_, _, rfl, hs.symm, hl.symm⟩

lemma Desk.now_of_veiled (h : d.veiled = e.veiled) : d.now = e.now := by
  show d.veiled.now = e.veiled.now
  rw [h]

lemma User.eq_of_veiled {u v : User} (h : u.veiled = v.veiled) (hp : u.password = v.password) :
    u = v := by
  have hrow : { u.veiled with password := v.password } = { v.veiled with password := v.password } :=
    congrArg (fun w : User => { w with password := v.password }) h
  have hu : { u.veiled with password := v.password } = u := by rw [← hp]; rfl
  exact hu.symm.trans hrow

namespace Work

/-! ## Two runs -/

/-- Pieces of work that show the same in the view of their results, fail by the same faults, and
leave the same but for passwords, at desks that are the same but for passwords. -/
def Twins (view : α → γ) (x y : Work α) : Prop :=
  ∀ d e : Desk, d.veiled = e.veiled →
    (run x d).1.map view = (run y e).1.map view ∧ (run x d).2.veiled = (run y e).2.veiled

/-- Work that gives the same at desks that are the same but for passwords. -/
def Blind (x : Work α) : Prop := Twins id x x

section

variable {x y : Work α} {f g : α → Work β}

lemma Twins.cases (h : Twins view x y) (hd : d.veiled = e.veiled) :
    (∃ f d' e', run x d = (.error f, d') ∧ run y e = (.error f, e') ∧ d'.veiled = e'.veiled) ∨
      ∃ a b d' e', run x d = (.ok a, d') ∧ run y e = (.ok b, e') ∧ view a = view b ∧
        d'.veiled = e'.veiled := by
  obtain ⟨hview, hleft⟩ := h d e hd
  rcases hx : run x d with ⟨_ | a, d'⟩ <;> rcases hy : run y e with ⟨_ | b, e'⟩ <;>
    rw [hx, hy] at hview hleft
  · cases hview
    exact .inl ⟨_, _, _, rfl, rfl, hleft⟩
  · cases hview
  · cases hview
  · exact .inr ⟨_, _, _, _, rfl, rfl, Except.ok.inj hview, hleft⟩

lemma twins_pure {a b : α} (h : view a = view b) : Twins view (pure a) (pure b) :=
  fun _ _ hd => ⟨congrArg Except.ok h, hd⟩

lemma twins_throw (e : Fault) : Twins view (throw e : Work α) (throw e) :=
  fun _ _ hd => ⟨rfl, hd⟩

lemma Twins.bind (hx : Twins view x y) (hf : ∀ a b, view a = view b → Twins sight (f a) (g b)) :
    Twins sight (x >>= f) (y >>= g) := by
  intro d e hd
  rw [run_bind, run_bind]
  rcases hx.cases hd with ⟨_, d', e', hxd, hye, hleft⟩ | ⟨a, b, d', e', hxd, hye, hab, hleft⟩
  · rw [hxd, hye]
    exact ⟨rfl, hleft⟩
  · rw [hxd, hye]
    exact hf a b hab d' e' hleft

/-- What goes on with a result may look at no more of it than the view shows. -/
lemma Twins.bind_view {look : α → α} (hx : Twins look x x) (hsame : ∀ a, f (look a) = f a)
    (hf : ∀ a, Twins sight (f a) (f a)) : Twins sight (x >>= f) (x >>= f) := by
  refine hx.bind fun a b hab => ?_
  rw [← hsame a, hab, hsame b]
  exact hf b

lemma Twins.tryCatch {h k : Fault → Work α} (hx : Twins view x y)
    (hh : ∀ e, Twins view (h e) (k e)) : Twins view (tryCatch x h) (tryCatch y k) := by
  intro d e hd
  rw [run_tryCatch, run_tryCatch]
  rcases hx.cases hd with ⟨f, d', e', hxd, hye, hleft⟩ | ⟨a, b, d', e', hxd, hye, hab, hleft⟩
  · rw [hxd, hye]
    exact hh f d' e' hleft
  · rw [hxd, hye]
    exact ⟨congrArg Except.ok hab, hleft⟩

lemma Twins.orElse (hx : Twins view x y) (a : α) : Twins view (orElse x a) (orElse y a) :=
  hx.tryCatch fun _ => twins_pure rfl

lemma twins_ofOutcome {o p : Outcome α} (h : o.map view = p.map view) :
    Twins view (ofOutcome o) (ofOutcome p) := by
  intro d e hd
  rw [run_ofOutcome, run_ofOutcome]
  exact ⟨h, hd⟩

lemma twins_get {f g : Desk → Work α}
    (h : ∀ (d : Desk) (s l : Store), s.veiled = d.store.veiled → l.veiled = d.lasting.veiled →
      Twins view (f d) (g { d with store := s, lasting := l })) :
    Twins view (get >>= f) (get >>= g) := by
  intro d e hd
  obtain ⟨s, l, rfl, hs, hl⟩ := Desk.exists_of_veiled_eq hd
  rw [run_bind, run_bind, run_get, run_get]
  exact h d s l hs hl d _ hd

lemma twins_set (h : d.veiled = e.veiled) : Twins (id : PUnit → PUnit) (set d) (set e) :=
  fun _ _ _ => ⟨rfl, h⟩

end

section

variable {x : Work α} {f : α → Work β}

lemma Blind.outcome (hx : Blind x) (hd : d.veiled = e.veiled) : (run x d).1 = (run x e).1 := by
  have hview := (hx d e hd).1
  rwa [Except.map_id, id, id] at hview

lemma blind_pure (a : α) : Blind (pure a) := twins_pure rfl

lemma blind_throw (e : Fault) : Blind (throw e : Work α) := twins_throw e

lemma blind_ofOutcome (o : Outcome α) : Blind (ofOutcome o) := twins_ofOutcome rfl

lemma blind_throw_bind (e : Fault) (f : α → Work β) : Blind (throw e >>= f) :=
  fun _ _ hd => ⟨rfl, hd⟩

lemma blind_unless {c : Prop} [Decidable c] {e : Fault} {f : Unit → Work β} (hf : Blind (f ())) :
    Blind (if c then throw e >>= f else f ()) := by
  split
  · exact blind_throw_bind e f
  · exact hf

lemma Blind.twins {g : α → Work β} (hx : Blind x)
    (hf : ∀ a, Twins sight (f a) (g a)) : Twins sight (x >>= f) (x >>= g) := by
  refine Twins.bind hx fun a b hab => ?_
  cases hab
  exact hf a

lemma Blind.bind (hx : Blind x) (hf : ∀ a, Blind (f a)) : Blind (x >>= f) := hx.twins hf

lemma Blind.bind_found {x : Work (Option α)} {f : Option α → Work β} (hx : Blind x)
    (hnone : Blind (f none)) (hsome : ∀ a, Blind (f (some a))) : Blind (x >>= f) := by
  refine hx.bind fun found => ?_
  cases found with
  | none => exact hnone
  | some a => exact hsome a

lemma blind_get {f : Desk → Work α} (hsame : ∀ d : Desk, f d.veiled = f d)
    (hf : ∀ d, Blind (f d)) : Blind (get >>= f) := by
  refine twins_get fun d s l hs hl => ?_
  have hd : ({ d with store := s, lasting := l } : Desk).veiled = d.veiled := by
    simp only [Desk.veiled, hs, hl]
  rw [← hsame { d with store := s, lasting := l }, hd, hsame d]
  exact hf d

lemma blind_now : Blind now := blind_get (fun _ => rfl) fun _ => blind_pure _

lemma blind_settings : Blind settings := blind_get (fun _ => rfl) fun _ => blind_pure _

lemma Blind.discard (hx : Blind x) : Blind (discard x) := hx.bind fun _ => blind_pure _

lemma Blind.tryCatch {h : Fault → Work α} (hx : Blind x) (hh : ∀ e, Blind (h e)) :
    Blind (tryCatch x h) :=
  Twins.tryCatch hx hh

lemma Blind.orElse (hx : Blind x) (a : α) : Blind (orElse x a) := Twins.orElse hx a

lemma Blind.mapM {xs : List α} (hf : ∀ a, Blind (f a)) : Blind (xs.mapM f) := by
  induction xs with
  | nil => exact blind_pure []
  | cons a xs ih =>
    rw [mapM_cons]
    exact (hf a).bind fun _ => ih.bind fun _ => blind_pure _

end

/-! ## Statements -/

section

variable {x : Work α}
variable {q : Store → Outcome α} {f : Store → Outcome Store}

lemma blind_statement : Blind statement := by
  refine twins_get fun d s l hs hl => (twins_set ?_).bind fun _ _ _ => ?_
  · simp only [Desk.veiled, hs, hl]
  · show Blind (if d.fails then _ else _)
    split
    · exact blind_throw _
    · exact blind_pure _

lemma twins_query (h : ∀ s, (q s.veiled).map view = (q s).map view) :
    Twins view (query q) (query q) := by
  refine blind_statement.twins fun _ => twins_get fun d s _ hs _ => twins_ofOutcome ?_
  show (q d.store).map view = (q s).map view
  rw [← h s, hs, h]

lemma blind_query (h : ∀ s, q s.veiled = q s) : Blind (query q) :=
  twins_query fun s => congrArg _ (h s)

lemma blind_changeUsers
    (h : ∀ s, (f s.veiled).map Store.veiled = (f s).map Store.veiled) : Blind (change f) := by
  refine blind_statement.twins fun _ => twins_get fun d s l hs hl => ?_
  have hwritten : Twins Store.veiled (ofOutcome (f d.store)) (ofOutcome (f s)) :=
    twins_ofOutcome (by rw [← h s, hs, h])
  refine hwritten.bind fun s' t' hst => twins_set ?_
  simp only [Desk.veiled, hst, hl]

lemma blind_change (h : ∀ s, f s.veiled = (f s).map Store.veiled) : Blind (change f) := by
  refine blind_changeUsers fun s => ?_
  rw [h]
  cases f s with
  | error e => rfl
  | ok s' => exact congrArg Except.ok (Store.veiled_veiled s')

lemma blind_commit : Blind commit := by
  refine twins_get fun d s l hs _ => ?_
  cases d.trouble.commit with
  | some f => exact blind_throw f
  | none => exact twins_set (by simp only [Desk.veiled, hs])

lemma blind_rollback : Blind rollback := by
  intro d e hd
  obtain ⟨s, l, rfl, _, hl⟩ := Desk.exists_of_veiled_eq hd
  refine ⟨rfl, ?_⟩
  show ({ d with store := d.lasting } : Desk).veiled =
    ({ d with store := l, lasting := l } : Desk).veiled
  simp only [Desk.veiled, hl]

lemma twins_add {f : Store → Outcome (α × Store)}
    (h : ∀ s, (f s.veiled).map (Prod.map view Store.veiled) =
      (f s).map (Prod.map view Store.veiled)) : Twins view (add f) (add f) := by
  refine twins_get fun d s l hs _ => ?_
  cases d.trouble.commit with
  | some f => exact twins_throw f
  | none =>
    have hadded : Twins (Prod.map view Store.veiled) (ofOutcome (f d.store)) (ofOutcome (f s)) :=
      twins_ofOutcome (by rw [← h s, hs, h])
    refine hadded.bind fun p q hpq => ?_
    obtain ⟨hview, hleft⟩ := Prod.mk.inj hpq
    refine (twins_set ?_).bind fun _ _ _ => twins_pure hview
    simp only [Desk.veiled, hleft]

lemma blind_add {f : Store → Outcome (α × Store)}
    (h : ∀ s, f s.veiled = (f s).map (Prod.map id Store.veiled)) : Blind (add f) := by
  refine twins_add fun s => ?_
  rw [h]
  cases f s with
  | error e => rfl
  | ok p => exact congrArg (fun s' => Except.ok (p.1, s')) (Store.veiled_veiled p.2)

lemma blind_web (w : Web α) : Blind (web w) := by
  refine twins_get fun d s l hs hl => (twins_set ?_).bind fun _ _ _ => blind_ofOutcome _
  simp only [Desk.veiled, hs, hl]

lemma blind_enqueue (j : Job) : Blind (enqueue j) := by
  refine twins_get fun d s l hs hl => ?_
  cases d.queueUp with
  | true => exact (twins_set (by simp only [Desk.veiled, hs, hl])).bind fun _ _ _ => blind_pure _
  | false => exact blind_throw _

lemma Blind.succeeds {x : Work Unit} (hx : Blind x) : Blind (succeeds x) :=
  (hx.bind fun _ => blind_pure true).tryCatch fun _ => blind_rollback.bind fun _ => blind_pure false

lemma Blind.orRollback (hx : Blind x) : Blind (orRollback x) :=
  hx.tryCatch fun e => blind_rollback.bind fun _ => blind_throw e

lemma Twins.orRollback {y : Work α} (hx : Twins view x y) :
    Twins view (orRollback x) (orRollback y) :=
  hx.tryCatch fun e => blind_rollback.twins fun _ => twins_throw e

end

end Work

/-! ## Users under the veil -/

namespace Store

lemma one_map (f : α → β) (rows : List α) : one (rows.map f) = (one rows).map (Option.map f) := by
  rcases rows with _ | ⟨a, _ | ⟨b, rows⟩⟩ <;> rfl

lemma one_filter_veiled {picks : User → Bool} (h : ∀ u : User, picks u.veiled = picks u)
    (s : Store) : one (s.veiled.users.filter picks) =
      (one (s.users.filter picks)).map (Option.map User.veiled) := by
  have hpicks : picks ∘ User.veiled = picks := funext h
  rw [← one_map, veiled, filter_map, hpicks]

lemma findSome?_clash_veiled (u : User) (us : List User) :
    (us.map User.veiled).findSome? u.veiled.clash = us.findSome? u.clash := by
  rw [findSome?_map]
  rfl

lemma checkUsers_veiled (us : List User) : checkUsers (us.map User.veiled) = checkUsers us := by
  induction us with
  | nil => rfl
  | cons u us ih =>
    rw [map_cons, checkUsers, checkUsers, findSome?_clash_veiled, ih]

section

variable {f : User → Outcome User}
variable (hf : ∀ u : User, (f u.veiled).map User.veiled = (f u).map User.veiled)

include hf

lemma changeWhere_veiled (picks : User → Bool) (hpicks : ∀ u : User, picks u.veiled = picks u)
    (us : List User) : (changeWhere picks f (us.map User.veiled)).map (List.map User.veiled) =
      (changeWhere picks f us).map (List.map User.veiled) := by
  induction us with
  | nil => rfl
  | cons u us ih =>
    have hrow : (if picks u.veiled then f u.veiled else .ok u.veiled).map User.veiled =
        (if picks u then f u else .ok u).map User.veiled := by
      rw [hpicks]
      split
      · exact hf u
      · rfl
    simp only [changeWhere, map_cons, mapM_cons] at ih ⊢
    refine map_bind_congr hrow fun v w hrow => ?_
    refine map_bind_congr ih fun vs ws hrest => ?_
    show Except.ok (v.veiled :: vs.map User.veiled) = Except.ok (w.veiled :: ws.map User.veiled)
    rw [hrow, hrest]

lemma changeUser_veiled (id : Value) (s : Store) :
    (changeUser id f s.veiled).map veiled = (changeUser id f s).map veiled := by
  refine map_bind_same fun p => ?_
  have hrows := changeWhere_veiled hf (fun u => intIs u.id p) (fun _ => rfl) s.users
  refine map_bind_congr hrows fun us vs husers => ?_
  rw [← checkUsers_veiled us, husers, checkUsers_veiled vs]
  refine map_bind_same fun _ => ?_
  exact congrArg (fun users => Except.ok { s with users }) husers

end

lemma addUser_veiled (make : Int → Outcome User) (s : Store) :
    (addUser make s.veiled).map (Prod.map User.veiled veiled) =
      (addUser make s).map (Prod.map User.veiled veiled) := by
  have hids : s.veiled.users.map (·.id) = s.users.map (·.id) := map_map ..
  unfold addUser
  rw [hids]
  refine map_bind_same fun u => ?_
  have husers : (s.veiled.users ++ [u]).map User.veiled = (s.users ++ [u]).map User.veiled := by
    simp [veiled, User.veiled_veiled]
  dsimp only
  rw [← checkUsers_veiled (s.veiled.users ++ [u]), husers, checkUsers_veiled]
  refine map_bind_same fun _ => ?_
  exact congrArg (fun users => Except.ok (u.veiled, { s with users })) husers

end Store

/-! ## Signing in at a host -/

namespace Accounts

open Work Store

variable (id : Value) (v : Visitor)

/-- What is seen of a user who was looked for. -/
abbrev seen : Option User → Option User := Option.map User.veiled

lemma twins_search {q : Store → Outcome (Option User)}
    (h : ∀ s : Store, q s.veiled = (q s).map seen) : Twins seen (query q) (query q) := by
  refine twins_query fun s => ?_
  rw [h]
  rcases q s with _ | _ | u <;> rfl

lemma Twins.bind_seen {x y : Work (Option User)}
    {f g : Option User → Work β} (hx : Twins seen x y) (hnone : Twins sight (f none) (g none))
    (hsome : ∀ u v : User, u.veiled = v.veiled → Twins sight (f (some u)) (g (some v))) :
    Twins sight (x >>= f) (y >>= g) := by
  refine hx.bind fun a b hab => ?_
  cases a with
  | none =>
    cases b with
    | none => exact hnone
    | some v => cases hab
  | some u =>
    cases b with
    | none => cases hab
    | some v => exact hsome u v (Option.some.inj hab)

lemma twins_userById : Twins seen (query (userById id)) (query (userById id)) := by
  refine twins_search fun s => ?_
  unfold userById
  cases parameter id with
  | error e => rfl
  | ok p => exact one_filter_veiled (fun _ => rfl) s

lemma twins_find : Twins seen (find id) (find id) := (twins_userById id).orElse none

lemma twins_findByEmail (email : Value) : Twins seen (findByEmail email) (findByEmail email) := by
  unfold findByEmail
  split
  · exact (twins_search (one_filter_veiled fun _ => rfl)).orElse none
  · exact twins_pure rfl

lemma twins_findByUsername (name : Value) :
    Twins seen (findByUsername name) (findByUsername name) := by
  refine (twins_search fun s => ?_).orElse none
  unfold withUsername
  cases parameter name with
  | error e => rfl
  | ok p => exact one_filter_veiled (fun _ => rfl) s

lemma twins_findByIdentity (provider id : Value) :
    Twins seen (findByIdentity provider id) (findByIdentity provider id) := by
  unfold findByIdentity
  split
  · rename_i p _
    refine (twins_search fun s => ?_).orElse none
    unfold withIdentity
    cases parameter id with
    | error e => rfl
    | ok q => exact one_filter_veiled (fun u => by cases p <;> rfl) s
  · exact twins_pure rfl

lemma blind_write {f : User → Outcome User}
    (hf : ∀ u : User, (f u.veiled).map User.veiled = (f u).map User.veiled) :
    Blind (write id f) := by
  refine blind_now.bind fun t => Blind.bind ?_ fun _ => blind_commit
  refine blind_changeUsers (changeUser_veiled (fun u => ?_) id)
  refine map_bind_congr (hf u) fun v w hvw => ?_
  exact congrArg (fun r : User => Except.ok { r with updatedAt := some t }) hvw

lemma twins_writeFound (u : User) {f : User → Outcome User}
    (hf : ∀ u : User, (f u.veiled).map User.veiled = (f u).map User.veiled) :
    Twins User.veiled (writeFound u f) (writeFound u f) := by
  refine (blind_write _ hf).twins fun _ => ?_
  exact Twins.bind_seen (twins_find _) (twins_throw _) fun _ _ => twins_pure

lemma blind_freeFrom (base : String) (n count : Nat) : Blind (freeFrom base n count) := by
  induction count generalizing n with
  | zero => exact blind_pure none
  | succ count ih =>
    refine (twins_findByUsername _).bind_view (fun found => by cases found <;> rfl) fun found => ?_
    cases found with
    | none => exact blind_pure _
    | some u => exact ih (n + 1)

lemma blind_freeUsername (base : Value) : Blind (freeUsername base) := by
  refine (twins_findByUsername base).bind_view (fun found => by cases found <;> rfl) fun found => ?_
  cases found with
  | none => exact blind_pure _
  | some u =>
    exact (blind_freeFrom _ 1 mostEndings).bind_found
      (blind_get (fun _ => rfl) fun _ => blind_pure _) fun _ => blind_pure _

lemma twins_addVisitor : Twins User.veiled (addVisitor v) (addVisitor v) := by
  unfold addVisitor
  have hadd (email : String) : Twins User.veiled
      (do let username ← freeUsername v.username
          let t ← now
          add (addUser (v.newcomer email username t)))
      (do let username ← freeUsername v.username
          let t ← now
          add (addUser (v.newcomer email username t))) :=
    (blind_freeUsername _).twins fun _ => blind_now.twins fun _ => twins_add (addUser_veiled _)
  split
  · exact hadd _
  · exact (blind_ofOutcome _).twins hadd

lemma refreshed_veiled (now : Moment) (u : User) :
    (v.refreshed now u.veiled).map User.veiled = (v.refreshed now u).map User.veiled := by
  refine map_bind_same fun _ => map_bind_same fun _ => ?_
  dsimp only
  split
  all_goals exact map_bind_same fun _ => map_bind_same fun _ => rfl

lemma linked_veiled (now : Moment) (u : User) :
    (v.linked now u.veiled).map User.veiled = (v.linked now u).map User.veiled := by
  unfold Visitor.linked
  split
  · rfl
  · rename_i p _
    refine map_bind_same fun _ => map_bind_same fun _ =>
      map_bind_same fun _ => ?_
    cases p <;> rfl

lemma twins_signIn : Twins User.veiled (signIn v) (signIn v) := by
  refine Twins.orRollback ((twins_findByIdentity _ _).bind_view
    (fun found => by cases found <;> rfl) fun found => ?_)
  cases found with
  | some u => exact blind_now.twins fun t => twins_writeFound u (refreshed_veiled v t)
  | none =>
    refine (twins_findByEmail _).bind_view (fun found => by cases found <;> rfl) fun found => ?_
    cases found with
    | some u => exact blind_now.twins fun t => twins_writeFound u (linked_veiled v t)
    | none => exact twins_addVisitor v

end Accounts

namespace Api

open Work Accounts

lemma blind_issueTokens (n : Int) : Blind (issueTokens n) :=
  blind_settings.bind fun _ => blind_now.bind fun _ => (blind_ofOutcome _).bind fun _ =>
    (blind_ofOutcome _).bind fun _ => blind_pure _

/-- Who asks is found without a look at the password, but is given with it. -/
lemma twins_currentUser (token : String) :
    Twins User.veiled (currentUser token) (currentUser token) := by
  refine blind_settings.twins fun _ => blind_now.twins fun _ => ?_
  refine (blind_ofOutcome _).twins fun found => ?_
  cases found with
  | none => exact twins_throw _
  | some subject =>
    refine (blind_ofOutcome _).twins fun id =>
      Twins.bind_seen (twins_userById id) (twins_throw _) fun u v huv => ?_
    have hactive : u.isActive = v.isActive := congrArg (·.isActive) huv
    simp only [hactive]
    split
    · exact twins_pure huv
    · exact twins_throw _

lemma blind_refresh (token : String) : Blind (refresh token) := by
  refine blind_settings.bind fun _ => blind_now.bind fun _ => ?_
  refine (blind_ofOutcome _).bind_found (blind_throw _) fun subject => ?_
  refine blind_unless ((blind_ofOutcome _).bind fun id => ?_)
  refine (twins_find id).bind_view (fun found => by cases found <;> rfl) fun found => ?_
  cases found with
  | none => exact blind_throw _
  | some u =>
    dsimp only
    split
    · exact blind_issueTokens _
    · exact blind_throw _

lemma blind_visitorOf (a : Arrival) : Blind (visitorOf a) := by
  obtain ⟨p, code, address, keepsToken⟩ := a
  cases p
  case bitbucket => exact blind_throw_bind _ _
  -- The two other hosts differ in how the token is asked for only.
  all_goals
    refine blind_settings.bind fun _ => (blind_web _).bind fun token => blind_unless ?_
    refine (blind_web _).bind fun info => blind_unless ((blind_ofOutcome _).bind fun id => ?_)
    exact (blind_ofOutcome _).bind fun email => blind_pure _

lemma blind_arrive (a : Arrival) : Blind (arrive a) :=
  (blind_visitorOf a).bind fun v => (twins_signIn v).bind_view (fun _ => rfl) fun u =>
    blind_issueTokens u.id

lemma blind_finishSignIn (provider code : Value) : Blind (finishSignIn provider code) :=
  (blind_ofOutcome _).bind fun _ => (blind_arrive _).tryCatch fun _ => blind_throw _

lemma blind_signInRedirect (provider code : Value) : Blind (signInRedirect provider code) := by
  refine (blind_ofOutcome _).bind fun _ => Blind.bind ?_ fun _ => blind_pure _
  exact ((blind_arrive _).bind fun _ => blind_pure _).tryCatch fun _ => blind_pure _

end Api

open List Work

lemma map_bind_eq (x : Outcome α) (f : α → Outcome β) (k : β → γ) :
    (x >>= f).map k = x >>= fun a => (f a).map k := by
  cases x <;> rfl

/-! ## Repositories -/

namespace Repositories

variable (id user : Value)

lemma blind_find : Blind (find id) := (blind_query fun _ => rfl).orElse none

lemma blind_findOwned : Blind (findOwned id user) :=
  (blind_query fun _ => rfl).orElse none

lemma blind_list (f : Filter) (skip limit : Value) : Blind (list user f skip limit) :=
  (blind_query fun _ => rfl).orElse []

lemma blind_write (f : Repository → Outcome Repository) : Blind (write id f) := by
  refine blind_now.bind fun t => (blind_change fun s => ?_).bind fun _ => blind_commit
  simp only [Store.changeRepository, map_bind_eq]
  rfl

lemma blind_update (f : Filled) : Blind (update id f) := by
  refine Blind.orRollback ?_
  split
  · exact (blind_write id _).bind fun _ => blind_find id
  · exact blind_find id

lemma blind_disconnect : Blind (disconnect id) := by
  refine Blind.succeeds ((blind_change fun s => ?_).bind fun _ => blind_commit)
  simp only [Store.dropRepository, map_bind_eq]
  rfl

lemma blind_connect (f : Filled) (owner : Value) : Blind (connect f owner) := by
  refine Blind.tryCatch ?_ fun fault => ?_
  · refine (blind_query fun _ => rfl).bind fun found => blind_unless ?_
    refine blind_now.bind fun t => blind_add fun s => ?_
    simp only [Store.addRepository, map_bind_eq]
    rfl
  · split
    · exact blind_throw _
    · exact blind_rollback.bind fun _ => blind_throw _

lemma blind_qualityTrend (days : Value) : Blind (qualityTrend id days) :=
  Blind.orElse (blind_now.bind fun _ => (blind_ofOutcome _).bind fun _ =>
    blind_query fun _ => rfl) []

lemma blind_withFigures : Blind (withFigures id user) := by
  refine Blind.orElse (Blind.bind_found (blind_query fun _ => rfl) ?_ fun r => ?_) none
  · exact blind_pure none
  refine blind_get (fun _ => rfl) fun d => Blind.bind ((blind_query fun _ => rfl).orElse []) fun _ => ?_
  exact (blind_qualityTrend _ _).bind fun _ => blind_pure _

end Repositories

/-! ## Reviews -/

namespace Reviews

variable (id user : Value)

lemma blind_find : Blind (find id) := (blind_query fun _ => rfl).orElse none

lemma blind_findOwned : Blind (findOwned id user) :=
  (blind_query fun _ => rfl).orElse none

lemma blind_create (f : Filled) (author : Value) : Blind (create f author) := by
  refine Blind.tryCatch ?_ fun fault => ?_
  · refine Blind.bind_found ((blind_query fun _ => rfl).orElse none) (blind_throw _) fun r => ?_
    refine blind_unless (blind_now.bind fun t => blind_add fun s => ?_)
    simp only [Store.addReview, map_bind_eq]
    rfl
  · split
    · exact blind_throw _
    · exact blind_rollback.bind fun _ => blind_throw _

lemma blind_write (f : Review → Outcome Review) : Blind (write id f) := by
  refine blind_now.bind fun t => (blind_change fun s => ?_).bind fun _ => blind_commit
  simp only [Store.changeReview, map_bind_eq]
  rfl

lemma blind_update (f : Filled) : Blind (update id f) := by
  refine Blind.orRollback ?_
  split
  · exact (blind_write id _).bind fun _ => blind_find id
  · exact blind_find id

lemma blind_remove : Blind (remove id) := by
  refine Blind.succeeds ((blind_change fun s => ?_).bind fun _ => blind_commit)
  simp only [Store.dropReview, map_bind_eq]
  rfl

lemma blind_list (repository status skip limit : Value) :
    Blind (list user repository status skip limit) :=
  Blind.orElse ((blind_query fun _ => rfl).bind fun _ =>
    Blind.mapM fun _ => (blind_ofOutcome _).bind fun _ => blind_pure _) []

end Reviews

namespace Issues

lemma blind_find (id : Value) : Blind (find id) := (blind_query fun _ => rfl).orElse none

lemma blind_list (review : Value) (f : Filter) : Blind (list review f) :=
  (blind_query fun _ => rfl).orElse []

lemma blind_update (id : Value) (f : Filled) : Blind (update id f) := by
  refine Blind.orRollback ?_
  split
  · refine blind_now.bind fun t => (blind_change fun s => ?_).bind fun _ =>
      blind_commit.bind fun _ => blind_find id
    simp only [Store.changeIssue, map_bind_eq]
    rfl
  · exact blind_find id

end Issues

namespace Comments

lemma blind_list (review : Value) : Blind (list review) := (blind_query fun _ => rfl).orElse []

lemma blind_create (f : Filled) (author review : Value) : Blind (create f author review) := by
  refine Blind.orRollback (blind_now.bind fun t => blind_add fun s => ?_)
  simp only [Store.addComment, map_bind_eq]
  rfl

end Comments

/-! ## Requests -/

namespace Api

section

variable (user : User) (id : Value) (f : Filled)

lemma blind_preferencesOf (n : Int) : Blind (preferencesOf n) := by
  refine (Accounts.twins_userById _).bind_view (fun found => ?_) fun _ => blind_pure _
  cases found <;> rfl

lemma blind_ownRepository : Blind (ownRepository user id) :=
  (blind_findOwned _ _).bind_found (blind_throw _) blind_pure

lemma blind_availableRepositories : Blind (availableRepositories user) := by
  refine blind_unless (Blind.tryCatch ?_ fun _ => blind_throw _)
  refine Blind.bind ((blind_preferencesOf _).bind fun _ => blind_web _) fun found => ?_
  refine (blind_list _ _ _ _).bind fun connected => Blind.mapM fun r => ?_
  exact (blind_ofOutcome _).bind fun _ => blind_pure _

lemma blind_branches : Blind (branches user id) := by
  refine (blind_ownRepository user id).bind fun r => Blind.tryCatch ?_ fun _ => blind_throw _
  exact Blind.bind ((blind_preferencesOf _).bind fun _ => blind_web _) fun _ => blind_pure _

lemma blind_tryHook (r : Repository) : Blind (tryHook user r) := by
  refine Blind.orElse (blind_settings.bind fun s => ?_) ()
  refine Blind.bind ((blind_preferencesOf _).bind fun _ => blind_web _) fun hook => ?_
  split
  · refine (Blind.succeeds ((blind_ofOutcome _).bind fun _ => ?_)).discard
    exact blind_write _ _
  · exact blind_pure ()

lemma blind_connectById (externalId : Value) : Blind (connectById user externalId) := by
  refine blind_unless (Blind.tryCatch ?_ fun fault => ?_)
  · refine Blind.bind ((blind_query fun _ => rfl).orElse none) fun found => blind_unless ?_
    refine Blind.bind ((blind_preferencesOf _).bind fun _ => blind_web _) fun info => ?_
    refine (blind_ofOutcome _).bind fun form => (blind_connect _ _).bind fun r => ?_
    refine (blind_tryHook user r).bind fun _ => ?_
    refine Blind.bind ((blind_enqueue _).discard.orElse ()) fun _ => ?_
    exact blind_get (fun _ => rfl) fun _ => blind_pure _
  · split <;> exact blind_throw _

lemma blind_syncRepository : Blind (syncRepository user id) := by
  refine (blind_ownRepository user id).bind fun r => Blind.tryCatch ?_ fun _ => blind_throw _
  refine Blind.bind ((blind_preferencesOf _).bind fun _ => blind_web _) fun info => ?_
  refine (blind_ofOutcome _).bind fun name => (blind_ofOutcome _).discard.bind fun _ => ?_
  refine (blind_ofOutcome _).discard.bind fun _ => (blind_ofOutcome _).bind fun form => ?_
  exact (blind_update id form).bind fun _ => blind_pure _

lemma blind_disconnectRepository : Blind (disconnectRepository user id) := by
  refine (blind_ownRepository user id).bind fun r => ?_
  dsimp only
  split
  · exact ((blind_ofOutcome _).discard.orElse ()).bind fun _ =>
      (blind_disconnect id).discard
  · exact (blind_disconnect id).discard

lemma blind_ownReview : Blind (ownReview user id) :=
  (Reviews.blind_findOwned _ _).bind_found (blind_throw _) blind_pure

lemma blind_repositoryFor : Blind (repositoryFor user id) := by
  refine Blind.bind_found ((blind_query fun _ => rfl).orElse none) (blind_throw _) fun r => ?_
  dsimp only
  split
  · exact blind_pure r
  · exact blind_throw _

lemma blind_createReview : Blind (createReview user f) := by
  refine Blind.bind (Blind.tryCatch ?_ fun fault => ?_) fun made => ?_
  · refine (blind_repositoryFor user _).bind fun repository => ?_
    refine (Reviews.blind_create f _).bind fun review => (blind_ofOutcome _).bind fun summary => ?_
    exact blind_pure _
  · split <;> exact blind_throw _
  · obtain ⟨summary, analysis⟩ := made
    cases analysis with
    | none => exact blind_pure summary
    | some job =>
      exact Blind.bind ((blind_enqueue _).discard.orElse ()) fun _ => blind_pure summary

lemma blind_startAnalysis (request : Filled) : Blind (startAnalysis user request) := by
  refine Blind.tryCatch ?_ fun _ => blind_throw _
  refine (blind_repositoryFor user _).bind fun repository => (blind_ofOutcome _).bind fun form => ?_
  refine (Reviews.blind_create form _).bind fun review => ?_
  refine Blind.bind (((blind_enqueue _).bind fun _ => blind_pure _).orElse none) fun task => ?_
  exact blind_pure _

lemma blind_updateIssue : Blind (updateIssue user id f) := by
  refine (Issues.blind_find id).bind_found (blind_throw _) fun before => ?_
  refine (Reviews.blind_findOwned _ _).bind fun owned => blind_unless ?_
  exact (Issues.blind_update id f).bind fun _ => blind_pure _

lemma blind_requestSummary : Blind (requestSummary user id) := by
  refine (blind_ownReview user id).discard.bind fun _ => ?_
  refine Blind.bind (((blind_enqueue _).bind fun _ => blind_pure _).orElse none) fun task => ?_
  exact blind_pure _

end

end Api

namespace Analytics

variable (user : Int)

lemma blind_repositories : Blind (repositories user) := blind_query fun _ => rfl

lemma blind_overview : Blind (overview user) := by
  refine Blind.orElse ((blind_repositories user).bind fun rs => ?_) _
  split
  · exact blind_pure _
  · exact (blind_query fun _ => rfl).bind fun _ => blind_now.bind fun _ => blind_ofOutcome _

lemma blind_qualityTrend : Blind (qualityTrend user) := by
  refine Blind.orElse ((blind_repositories user).bind fun rs => ?_) _
  split
  · exact blind_pure _
  · exact blind_now.bind fun _ => (blind_query fun _ => rfl).bind fun _ => blind_ofOutcome _

lemma blind_dashboard : Blind (dashboard user) := by
  refine Blind.tryCatch ?_ fun _ => blind_throw _
  refine (blind_overview user).bind fun _ => blind_now.bind fun t => ?_
  refine (blind_repositories user).bind fun rs => ?_
  split
  all_goals
    refine Blind.bind ?_ fun recent => (blind_ofOutcome _).bind fun weekly =>
      Blind.bind ((blind_query fun _ => rfl).orElse []) fun languages =>
        (blind_qualityTrend user).bind fun trend => blind_pure _
  · exact blind_pure _
  · exact blind_query fun _ => rfl

lemma blind_repositoryPage : Blind (repositoryPage user) := by
  refine Blind.tryCatch ((blind_query fun _ => rfl).bind fun rs => ?_) fun _ => blind_throw _
  refine Blind.bind (Blind.mapM fun r => (blind_query fun _ => rfl).bind fun count => ?_) fun _ =>
    blind_pure _
  exact (blind_query fun _ => rfl).bind fun _ => blind_pure _

lemma blind_performancePage : Blind (performancePage user) := by
  refine Blind.tryCatch ((blind_repositories user).bind fun rs => ?_) fun _ => blind_throw _
  split
  · exact blind_now.bind fun _ => blind_ofOutcome _
  · exact (blind_query fun _ => rfl).bind fun _ => blind_now.bind fun _ => blind_ofOutcome _

end Analytics

/-! ## Routes -/

namespace Http

variable {r : Route}

/-- A route that uses no passwords: it is blind, and it treats all users alike who differ in their
passwords only. -/
def Route.Discreet (r : Route) : Prop :=
  match r.act with
  | .anybody f => ∀ g, Blind (f g)
  | .user f => ∀ u g, f u.veiled g = f u g ∧ Blind (f u g)

/-- The ends of the paths at which requests bring a password. -/
def passwordPages : List String := ["register", "login", "change-password"]

def Route.TakesPassword (r : Route) : Prop :=
  r.methods = ["POST"] ∧ ∃ w ∈ passwordPages, r.parts = authPath [.word w]

lemma blind_shown {x : Work α} {answer : α → Answer} (hx : Blind x) :
    Blind (x >>= fun a => pure (answer a)) :=
  hx.bind fun _ => blind_pure _

lemma discreet_docsRoutes (hr : r ∈ docsRoutes) : r.Discreet := by
  fin_cases hr <;> exact fun _ => blind_pure _

lemma discreet_entryRoutes (hr : r ∈ entryRoutes) : r.Discreet := by
  fin_cases hr <;> intro g
  · exact blind_settings.bind fun _ => blind_now.bind fun _ => blind_pure _
  · exact blind_settings.bind fun _ => blind_pure _
  · exact (Api.blind_signInRedirect _ _).bind fun _ => blind_pure _
  · exact (blind_pure _).bind fun _ => blind_pure _

lemma discreet_authRoutes (hr : r ∈ authRoutes) : r.Discreet ∨ r.TakesPassword := by
  fin_cases hr
  · exact .inr ⟨rfl, "register", by simp [passwordPages], rfl⟩
  · exact .inr ⟨rfl, "login", by simp [passwordPages], rfl⟩
  · exact .inl fun _ => blind_shown ((Api.blind_refresh _).bind fun _ => blind_pure _)
  · exact .inr ⟨rfl, "change-password", by simp [passwordPages], rfl⟩
  · exact .inl fun _ _ => ⟨rfl, blind_pure _⟩
  · exact .inl fun _ => blind_shown (blind_settings.bind fun _ => blind_ofOutcome _)
  · exact .inl fun _ => blind_shown ((Api.blind_finishSignIn _ _).bind fun _ => blind_pure _)
  · exact .inl fun _ => blind_shown (blind_settings.bind fun _ => blind_ofOutcome _)

lemma discreet_userRoutes (hr : r ∈ userRoutes) : r.Discreet ∨ r = Route.account := by
  fin_cases hr
  · exact .inl fun _ => blind_pure _
  · exact .inr rfl
  · exact .inl fun _ => blind_pure _

lemma discreet_repositoryRoutes (hr : r ∈ repositoryRoutes) : r.Discreet := by
  fin_cases hr <;> refine fun u g => ⟨rfl, blind_shown ?_⟩
  · exact blind_list _ _ _ _
  · exact Api.blind_availableRepositories u
  · exact Api.blind_connectById u _
  · exact (blind_withFigures _ _).bind_found (blind_throw _) blind_pure
  · exact (blind_web _).bind fun _ => (blind_ofOutcome _).bind fun _ =>
      (blind_connect _ _).discard.bind fun _ => blind_throw _
  · exact (Api.blind_ownRepository u _).bind fun _ => (blind_update _ _).bind fun _ => blind_pure _
  · exact Api.blind_disconnectRepository u _
  · exact (Api.blind_ownRepository u _).bind fun _ => blind_unless (blind_throw _)
  · exact Api.blind_branches u _
  · exact Api.blind_syncRepository u _

lemma discreet_reviewRoutes (hr : r ∈ reviewRoutes) : r.Discreet := by
  fin_cases hr <;> refine fun u g => ⟨rfl, blind_shown ?_⟩
  · exact Reviews.blind_list _ _ _ _ _
  · exact Blind.bind_found ((blind_query fun _ => rfl).orElse none) (blind_throw _) blind_pure
  · exact Api.blind_createReview u _
  · exact (Api.blind_ownReview u _).bind fun _ =>
      (Reviews.blind_update _ _).bind fun _ => blind_pure _
  · exact (Api.blind_ownReview u _).discard.bind fun _ => (Reviews.blind_remove _).discard
  · exact Api.blind_startAnalysis u _
  · exact (Api.blind_ownReview u _).discard.bind fun _ => (Reviews.blind_find _).bind_found
      (blind_throw _) fun _ => blind_now.bind fun _ => blind_ofOutcome _
  · exact (Api.blind_ownReview u _).discard.bind fun _ => Issues.blind_list _ _
  · exact Api.blind_updateIssue u _ _
  · exact (Api.blind_ownReview u _).discard.bind fun _ => Comments.blind_list _
  · exact (Api.blind_ownReview u _).discard.bind fun _ => Comments.blind_create _ _ _
  · exact Api.blind_requestSummary u _

lemma discreet_analyticsRoutes (hr : r ∈ analyticsRoutes) : r.Discreet := by
  fin_cases hr
  · exact fun _ => blind_pure _
  all_goals refine fun u g => ⟨rfl, blind_shown ?_⟩
  · exact (Analytics.blind_overview u.id).bind fun _ => blind_pure _
  · exact Analytics.blind_dashboard u.id
  · exact Analytics.blind_repositoryPage u.id
  · exact Analytics.blind_performancePage u.id

lemma discreet_hostRoutes (hr : r ∈ hostRoutes) : r.Discreet := by
  fin_cases hr
  · exact fun _ => blind_pure _
  · exact fun _ _ => ⟨rfl, blind_pure _⟩
  · exact fun _ _ => ⟨rfl, blind_pure _⟩
  · exact fun _ => blind_pure _
  · exact fun _ => blind_pure _
  · exact fun _ => blind_pure _
  · exact fun _ => (blind_pure _).bind fun _ => blind_pure _

/-- All routes but those that take a password and the one that shows an account are discreet. -/
lemma discreet_routes (hr : r ∈ routes) : r.Discreet ∨ r.TakesPassword ∨ r = Route.account := by
  simp only [routes, mem_append] at hr
  rcases hr with ((((((hr | hr) | hr) | hr) | hr) | hr) | hr) | hr
  · exact .inl (discreet_docsRoutes hr)
  · exact .inl (discreet_entryRoutes hr)
  · exact (discreet_authRoutes hr).imp_right .inl
  · exact (discreet_userRoutes hr).imp_right .inr
  · exact .inl (discreet_repositoryRoutes hr)
  · exact .inl (discreet_reviewRoutes hr)
  · exact .inl (discreet_analyticsRoutes hr)
  · exact .inl (discreet_hostRoutes hr)

lemma Route.Discreet.blind_run (h : r.Discreet) (holes : List (String × String))
    (q : Request) : Blind (r.run holes q) := by
  refine (blind_ofOutcome _).bind fun payload => ?_
  cases payload with
  | error es => exact blind_pure _
  | ok payload =>
    unfold Discreet at h
    cases hact : r.act with
    | anybody f =>
      rw [hact] at h
      refine (blind_ofOutcome _).bind fun given => ?_
      cases given with
      | error es => exact blind_pure _
      | ok given => exact (h given).bind fun _ => blind_pure _
    | user f =>
      rw [hact] at h
      refine (blind_ofOutcome _).bind fun token =>
        (Api.twins_currentUser token).bind_view (fun u => ?_) fun u =>
          (blind_ofOutcome _).bind fun given => ?_
      · simp only [fun g => (h u g).1]
      · cases given with
        | error es => exact blind_pure _
        | ok given => exact (h u given).2.bind fun _ => blind_pure _

end Http

end ReviewDesk
