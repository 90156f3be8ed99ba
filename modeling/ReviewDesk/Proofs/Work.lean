import Mathlib.Tactic.FinCases
import ReviewDesk.Desk

/-!
# Runs of work at the desk

What each step of work gives and leaves, and how steps are put together. `Gives` follows work
through a desk where nothing fails; `Ends` says what holds at any desk when work is over, whether it
succeeds or not, and `Within` that an invariant of the store is kept.
-/

namespace ReviewDesk

open List

variable {α β γ : Type} {a : α} {s : Store}

abbrev Desk.fails (d : Desk) : Bool := d.trouble.statement (d.statements + 1)

abbrev Desk.asked (d : Desk) : Desk := { d with statements := d.statements + 1 }

namespace Outcome

variable {ε : Type} {x : Outcome α} {f : α → Outcome β} {g : α → Outcome γ}

lemma bind_ok (a : α) (f : α → Outcome β) : (Except.ok a >>= f) = f a := rfl

lemma bind_of_ok (h : x = .ok a) (f : α → Outcome β) : (x >>= f) = f a := by
  rw [h, bind_ok]

lemma bind_eq_ok {x : Except ε α} {f : α → Except ε β} {b : β}
    (h : x >>= f = .ok b) : ∃ a, x = .ok a ∧ f a = .ok b := by
  cases x with
  | error e => cases h
  | ok a => exact ⟨a, rfl, h⟩

lemma foldlM_keeps {step : α → β → Except ε α} {P : α → Prop} {xs : List β}
    {b : α} (h : xs.foldlM step a = .ok b) (ha : P a)
    (hstep : ∀ x ∈ xs, ∀ c d, P c → step c x = .ok d → P d) : P b := by
  induction xs generalizing a with
  | nil => cases h; exact ha
  | cons x xs ih =>
    obtain ⟨c, hc, h⟩ := bind_eq_ok h
    refine ih h (hstep x (.head _) a c ha hc) fun y hy => ?_
    exact hstep y (.tail _ hy)

lemma bind_congr {g : α → Outcome β} (h : ∀ a, x = .ok a → f a = g a) : (x >>= f) = (x >>= g) := by
  cases x with
  | error e => rfl
  | ok a => exact h a rfl

lemma bind_eq_map (x : Outcome α)
    {h : γ → β} (hfg : ∀ a, f a = (g a).map h) : (x >>= f) = (x >>= g).map h := by
  cases x with
  | error e => rfl
  | ok a => exact hfg a

/-- Outcomes that give the same after a map fail alike or give alike. -/
lemma cases_of_map_eq {y : Outcome α} {f : α → β} (h : x.map f = y.map f) :
    (∃ e, x = .error e ∧ y = .error e) ∨ ∃ a b, x = .ok a ∧ y = .ok b ∧ f a = f b := by
  cases x with
  | error e =>
    cases y with
    | error e' =>
      cases h
      exact .inl ⟨e, rfl, rfl⟩
    | ok b => cases h
  | ok a =>
    cases y with
    | error e => cases h
    | ok b => exact .inr ⟨a, b, rfl, rfl, Except.ok.inj h⟩

lemma getD_eq_some {x : Outcome (Option α)} (h : x.getD none = some a) : x = .ok (some a) := by
  cases x with
  | ok b => exact congrArg Except.ok h
  | error e => cases h

lemma isOk_bind (x : Outcome α) (f : α → Outcome β) : (x >>= f).isOk = match x with
      | .ok a => (f a).isOk
      | .error _ => false := by
  cases x <;> rfl

lemma isOk_bind_congr (x : Outcome α)
    (h : ∀ a, (f a).isOk = (g a).isOk) : (x >>= f).isOk = (x >>= g).isOk := by
  cases x with
  | error e => rfl
  | ok a => exact h a

section

variable {f : α → Outcome β} {xs : List α}

lemma mapM_of_ok {g : α → β} (h : ∀ x ∈ xs, f x = .ok (g x)) : xs.mapM f = .ok (xs.map g) := by
  induction xs with
  | nil => rfl
  | cons x xs ih =>
    rw [mapM_cons, h x (.head _), bind_ok,
      ih fun y hy => h y (.tail _ hy), bind_ok]
    rfl

lemma ok_of_mapM {ys : List β} (h : xs.mapM f = .ok ys) : ∀ x ∈ xs, ∃ y, f x = .ok y := by
  induction xs generalizing ys with
  | nil => exact fun x hx => by cases hx
  | cons x xs ih =>
    rw [mapM_cons] at h
    obtain ⟨y, hy, h⟩ := bind_eq_ok h
    obtain ⟨zs, hzs, _⟩ := bind_eq_ok h
    exact forall_mem_cons.mpr ⟨⟨y, hy⟩, ih hzs⟩

lemma mem_of_mapM {ys : List β} (h : xs.mapM f = .ok ys) : ∀ y ∈ ys, ∃ x ∈ xs, f x = .ok y := by
  induction xs generalizing ys with
  | nil =>
    cases h
    exact fun y hy => by cases hy
  | cons x xs ih =>
    rw [mapM_cons] at h
    obtain ⟨y, hy, h⟩ := bind_eq_ok h
    obtain ⟨zs, hzs, h⟩ := bind_eq_ok h
    cases h
    refine forall_mem_cons.mpr ⟨⟨x, mem_cons_self .., hy⟩, fun z hz => ?_⟩
    obtain ⟨w, hw, hwz⟩ := ih hzs z hz
    exact ⟨w, mem_cons_of_mem _ hw, hwz⟩

end

end Outcome

namespace Work

variable (x : Work α) (d : Desk)

/-! ## Equations -/

@[simp]
lemma run_pure (a : α) (d : Desk) : run (pure a) d = (.ok a, d) := rfl

@[simp]
lemma run_throw (f : Fault) (d : Desk) : run (throw f : Work α) d = (.error f, d) := rfl

lemma run_bind (f : α → Work β) (d : Desk) : run (x >>= f) d = match run x d with
      | (.ok a, d') => run (f a) d'
      | (.error e, d') => (.error e, d') := by
  show (ExceptT.bindCont f (x d).1 : StateM Desk _) (x d).2 = _
  unfold run
  rcases h : x d with ⟨_ | _, _⟩ <;> simp [ExceptT.run, StateT.run, h] <;> rfl

lemma run_tryCatch (h : Fault → Work α) (d : Desk) : run (tryCatch x h) d = match run x d with
      | (.ok a, d') => (.ok a, d')
      | (.error e, d') => run (h e) d' := by
  unfold run
  rcases hx : x d with ⟨_ | _, _⟩ <;>
    simp [tryCatch, tryCatchThe, MonadExceptOf.tryCatch, ExceptT.tryCatch, ExceptT.mk, ExceptT.run,
      StateT.run, bind, StateT.bind, hx]
  rfl

lemma run_get : run get d = (.ok d, d) := rfl

lemma run_set (e : Desk) : run (set e) d = (.ok (), e) := rfl

lemma run_ofOutcome (x : Outcome α) (d : Desk) : run (ofOutcome x) d = (x, d) := by
  cases x <;> rfl

lemma run_map (f : α → β) (x : Work α) (d : Desk) : run (f <$> x) d =
      match run x d with
      | (.ok a, d') => (.ok (f a), d')
      | (.error e, d') => (.error e, d') := by
  rw [← bind_pure_comp, run_bind]
  rfl

lemma run_bind_of_ok {x : Work α} {d d' : Desk} (h : run x d = (.ok a, d'))
    (f : α → Work β) : run (x >>= f) d = run (f a) d' := by
  rw [run_bind, h]

lemma run_discard : run (discard x) d = match run x d with
      | (.ok _, d') => (.ok (), d')
      | (.error e, d') => (.error e, d') :=
  run_map (fun _ => ()) x d

lemma run_web (x : Web α) (d : Desk) :
    run (web x) d = ((x.run d.wire).1, { d with wire := (x.run d.wire).2 }) := by
  simp only [web, run_bind, run_get, run_set, run_ofOutcome]

/-! ## Calm desks

At a calm desk no statement and no commit fails. `Gives x t s o s'` follows work through such a desk
at the moment `t`: from the lasting store `s` it has the outcome `o` and leaves the lasting store
`s'`.
-/

/-- A desk without troubles, with nothing that waits to be committed. -/
structure Calm (d : Desk) (t : Moment) (s : Store) : Prop where
  statement : ∀ n, d.trouble.statement n = false
  commit : d.trouble.commit = none
  now : d.now = t
  store : d.store = s
  lasting : d.lasting = s

def Gives (t : Moment) (s : Store) (o : Outcome α) (s' : Store) : Prop :=
  ∀ d, Calm d t s → ∃ d', run x d = (o, d') ∧ Calm d' t s'

section

variable {x : Work α} {f : α → Work β} {t : Moment} {s₁ s₂ : Store}
variable {o : Outcome α} {e : Fault} {h : Fault → Work α} {xs : List γ}

lemma gives_pure (a : α) (t : Moment) (s : Store) : Gives (pure a) t s (.ok a) s :=
  fun d hd => ⟨d, rfl, hd⟩

lemma gives_throw (e : Fault) (t : Moment) (s : Store) :
    Gives (throw e : Work α) t s (.error e) s :=
  fun d hd => ⟨d, rfl, hd⟩

lemma gives_ofOutcome (o : Outcome α) (t : Moment) (s : Store) : Gives (ofOutcome o) t s o s :=
  fun d hd => ⟨d, run_ofOutcome o d, hd⟩

lemma gives_ok (h : o = .ok a) (t : Moment) (s : Store) : Gives (ofOutcome o) t s (.ok a) s :=
  h ▸ gives_ofOutcome o t s

lemma gives_fault (h : o = .error e) (t : Moment) (s : Store) :
    Gives (ofOutcome o) t s (.error e) s :=
  h ▸ gives_ofOutcome o t s

lemma gives_now (t : Moment) (s : Store) : Gives now t s (.ok t) s :=
  fun d hd => ⟨d, by rw [← hd.now]; rfl, hd⟩

lemma Gives.bind {o : Outcome β} (hx : Gives x t s (.ok a) s₁)
    (hf : Gives (f a) t s₁ o s₂) : Gives (x >>= f) t s o s₂ := by
  intro d hd
  obtain ⟨d₁, h₁, hd₁⟩ := hx d hd
  obtain ⟨d₂, h₂, hd₂⟩ := hf d₁ hd₁
  exact ⟨d₂, by rw [run_bind, h₁]; exact h₂, hd₂⟩

lemma Gives.bind_error (hx : Gives x t s (.error e) s₁) : Gives (x >>= f) t s (.error e) s₁ := by
  intro d hd
  obtain ⟨d₁, h₁, hd₁⟩ := hx d hd
  exact ⟨d₁, by rw [run_bind, h₁], hd₁⟩

lemma Gives.map (g : α → β) (hx : Gives x t s (.ok a) s₁) : Gives (g <$> x) t s (.ok (g a)) s₁ := by
  rw [← bind_pure_comp]
  exact hx.bind (gives_pure _ _ _)

lemma Gives.discard (hx : Gives x t s (.ok a) s₁) : Gives (discard x) t s (.ok ()) s₁ :=
  hx.map fun _ => ()

lemma Gives.tryCatch_ok (hx : Gives x t s (.ok a) s₁) : Gives (tryCatch x h) t s (.ok a) s₁ := by
  intro d hd
  obtain ⟨d₁, h₁, hd₁⟩ := hx d hd
  exact ⟨d₁, by rw [run_tryCatch, h₁], hd₁⟩

lemma Gives.tryCatch_error (hx : Gives x t s (.error e) s₁) (hh : Gives (h e) t s₁ o s₂) :
    Gives (tryCatch x h) t s o s₂ := by
  intro d hd
  obtain ⟨d₁, h₁, hd₁⟩ := hx d hd
  obtain ⟨d₂, h₂, hd₂⟩ := hh d₁ hd₁
  exact ⟨d₂, by rw [run_tryCatch, h₁]; exact h₂, hd₂⟩

lemma gives_tell (state : String) (details : Fields) (t : Moment) (s : Store) :
    Gives (tell state details) t s (.ok ()) s :=
  fun _ hd => ⟨_, rfl, hd.statement, hd.commit, hd.now, hd.store, hd.lasting⟩

lemma gives_statement (t : Moment) (s : Store) : Gives statement t s (.ok ()) s := by
  intro d hd
  refine ⟨d.asked, ?_, hd.statement, hd.commit, hd.now, hd.store,
    hd.lasting⟩
  simp [statement, run_bind, run_get, run_set, hd.statement]

lemma gives_get {f : Desk → Work β} {o : Outcome β}
    (h : ∀ d, Calm d t s → Gives (f d) t s o s₁) : Gives (get >>= f) t s o s₁ := by
  intro d hd
  rw [run_bind, run_get]
  exact h d hd d hd

lemma gives_query (q : Store → Outcome α) (t : Moment) (s : Store) :
    Gives (query q) t s (q s) s := by
  refine (gives_statement t s).bind fun d hd => ⟨d, ?_, hd⟩
  rw [run_bind, run_get]
  simp only
  rw [run_ofOutcome, hd.store]

lemma gives_query_ok {q : Store → Outcome α} (h : q s = .ok a) (t : Moment) :
    Gives (query q) t s (.ok a) s :=
  h ▸ gives_query q t s

lemma gives_rollback (t : Moment) (s : Store) : Gives rollback t s (.ok ()) s :=
  fun _ hd => ⟨_, rfl, hd.statement, hd.commit, hd.now, hd.lasting, hd.lasting⟩

lemma gives_forIn {f : γ → PUnit → Work (ForInStep PUnit)}
    (h : ∀ x ∈ xs, Gives (f x ⟨⟩) t s (.ok (.yield ⟨⟩)) s) :
    Gives (forIn xs PUnit.unit f) t s (.ok ⟨⟩) s := by
  induction xs with
  | nil => exact gives_pure _ t s
  | cons x xs ih =>
    rw [forIn_cons]
    exact (h x (.head _)).bind (ih fun y hy => h y (.tail _ hy))

lemma gives_forIn_error {x : γ}
    {f : γ → PUnit → Work (ForInStep PUnit)} (h : Gives (f x ⟨⟩) t s (.error e) s₁) :
    Gives (forIn (x :: xs) PUnit.unit f) t s (.error e) s₁ := by
  rw [forIn_cons]
  exact h.bind_error

lemma gives_change_commit {f : Store → Outcome Store} (h : f s = .ok s₁) (t : Moment) :
    Gives (change f >>= fun _ => commit) t s (.ok ()) s₁ := by
  have hchange : Gives (do change f; commit) t s (.ok ()) s₁ ↔
      Gives (do statement
                let d ← get
                let store ← ofOutcome (f d.store)
                set { d with store }
                commit) t s (.ok ()) s₁ := by
    simp only [change, bind_assoc]
  refine hchange.mpr ((gives_statement t s).bind fun d hd => ?_)
  refine ⟨{ d with store := s₁, lasting := s₁ }, ?_, hd.statement, hd.commit, hd.now, rfl, rfl⟩
  simp [run_bind, run_get, run_set, run_ofOutcome, hd.store, h, commit, hd.commit]

lemma gives_change_error {f : Store → Outcome Store} (h : f s = .error e)
    (t : Moment) : Gives (change f) t s (.error e) s := by
  refine (gives_statement t s).bind fun d hd => ⟨d, ?_, hd⟩
  simp [run_bind, run_get, run_ofOutcome, hd.store, h]

lemma gives_add {f : Store → Outcome (α × Store)} (h : f s = .ok (a, s₁)) (t : Moment) :
    Gives (add f) t s (.ok a) s₁ := by
  intro d hd
  refine ⟨{ d with store := s₁, lasting := s₁ }, ?_, hd.statement, hd.commit, hd.now, rfl, rfl⟩
  simp [add, run_bind, run_get, run_set, run_map, run_ofOutcome, hd.store, h, hd.commit]

lemma gives_add_error {f : Store → Outcome (α × Store)} (h : f s = .error e)
    (t : Moment) : Gives (add f) t s (.error e) s := by
  intro d hd
  refine ⟨d, ?_, hd⟩
  simp [add, run_bind, run_get, run_ofOutcome, hd.store, h, hd.commit]

lemma Gives.orElse_ok (hx : Gives x t s (.ok a) s₁) (b : α) : Gives (orElse x b) t s (.ok a) s₁ :=
  hx.tryCatch_ok

lemma Gives.orElse_error (hx : Gives x t s (.error e) s₁) (b : α) :
    Gives (orElse x b) t s (.ok b) s₁ :=
  hx.tryCatch_error (gives_pure _ _ _)

lemma Gives.orElse (hx : Gives x t s o s₁) (b : α) :
    Gives (orElse x b) t s (.ok (o.getD b)) s₁ := by
  cases o with
  | ok a => exact hx.orElse_ok b
  | error e => exact hx.orElse_error b

lemma gives_orElse_query (q : Store → Outcome α) (b : α) (t : Moment) (s : Store) :
    Gives (Work.orElse (query q) b) t s (.ok ((q s).getD b)) s :=
  (gives_query q t s).orElse b

lemma Gives.attempt_ok (hx : Gives x t s (.ok a) s₁) : Gives (attempt x) t s (.ok (some a)) s₁ :=
  (hx.map some).orElse_ok none

lemma Gives.attempt_error (hx : Gives x t s (.error e) s₁) :
    Gives (attempt x) t s (.ok none) s₁ := by
  have hmap : Gives (some <$> x) t s (.error e) s₁ := by
    rw [← bind_pure_comp]
    exact hx.bind_error
  exact hmap.orElse_error none

lemma Gives.succeeds_error {x : Work Unit} (hx : Gives x t s (.error e) s₁) :
    Gives (succeeds x) t s (.ok false) s₁ :=
  hx.bind_error.tryCatch_error ((gives_rollback t s₁).bind (gives_pure false t s₁))

lemma Gives.succeeds {x : Work Unit} (hx : Gives x t s (.ok ()) s₁) :
    Gives (succeeds x) t s (.ok true) s₁ :=
  (hx.bind (gives_pure true t s₁)).tryCatch_ok

lemma Gives.orRollback_ok (hx : Gives x t s (.ok a) s₁) : Gives (orRollback x) t s (.ok a) s₁ :=
  hx.tryCatch_ok

lemma Gives.orRollback_error (hx : Gives x t s (.error e) s₁) :
    Gives (orRollback x) t s (.error e) s₁ :=
  hx.tryCatch_error ((gives_rollback t s₁).bind (gives_throw e t s₁))

end

/-! ## Any desk

Statements and commits may fail here. A desk is at a store if nothing waits to be committed.
-/

structure At (s : Store) (d : Desk) : Prop where
  store : d.store = s
  lasting : d.lasting = s

/-- What has been committed is `s` when work fails. -/
abbrev Lasts (s : Store) (_ : Fault) (d : Desk) : Prop := d.lasting = s

/-- From a desk of `P`, work ends with a result and a desk of `Q` or with a fault and a desk of
`E`. -/
def Ends (P : Desk → Prop) (x : Work α) (Q : α → Desk → Prop) (E : Fault → Desk → Prop) : Prop :=
  ∀ d, P d →
    match run x d with
    | (.ok a, d') => Q a d'
    | (.error e, d') => E e d'

section

variable {x : Work α} {f : α → Work β} {P P' : Desk → Prop} {Q Q' R : α → Desk → Prop}
variable {E E' F : Fault → Desk → Prop}

lemma ends_pure (h : ∀ d, P d → Q a d) : Ends P (pure a) Q E := h

lemma ends_throw {e : Fault} (h : ∀ d, P d → E e d) : Ends P (throw e) Q E := h

lemma Ends.bind {Q : β → Desk → Prop} (hx : Ends P x R E) (hf : ∀ a, Ends (R a) (f a) Q E) :
    Ends P (x >>= f) Q E := by
  intro d hd
  have h := hx d hd
  rw [run_bind]
  rcases hrun : run x d with ⟨_ | a, d'⟩ <;> rw [hrun] at h
  · exact h
  · exact hf a d' h

lemma ends_throw_bind {e : Fault} {Q : β → Desk → Prop} (h : ∀ d, P d → E e d) :
    Ends P (throw e >>= f) Q E :=
  Ends.bind (R := fun _ _ => False) (ends_throw h) fun _ _ h => h.elim

lemma Ends.tryCatch {h : Fault → Work α} (hx : Ends P x Q F) (hh : ∀ e, Ends (F e) (h e) Q E) :
    Ends P (tryCatch x h) Q E := by
  intro d hd
  have hxd := hx d hd
  rw [run_tryCatch]
  rcases hrun : run x d with ⟨e | _, d'⟩ <;> rw [hrun] at hxd
  · exact hh e d' hxd
  · exact hxd

lemma Ends.mono (hx : Ends P x Q E) (hQ : ∀ a d, Q a d → Q' a d) (hE : ∀ e d, E e d → E' e d) :
    Ends P x Q' E' := by
  intro d hd
  have h := hx d hd
  rcases hrun : run x d with ⟨e | a, d'⟩ <;> rw [hrun] at h
  · exact hE e d' h
  · exact hQ a d' h

lemma Ends.imp (hx : Ends P x Q E) (hQ : ∀ a d, Q a d → Q' a d) : Ends P x Q' E :=
  hx.mono hQ fun _ _ h => h

lemma Ends.imp_error (hx : Ends P x Q E) (hE : ∀ e d, E e d → E' e d) : Ends P x Q E' :=
  hx.mono (fun _ _ h => h) hE

lemma Ends.pre (h : ∀ d, P' d → P d) (hx : Ends P x Q E) : Ends P' x Q E :=
  fun d hd => hx d (h d hd)

lemma Ends.of_ok {d : Desk} (hx : Ends P x Q E) (hd : P d) (ha : (run x d).1 = .ok a) :
    Q a (run x d).2 := by
  have hend := hx d hd
  rcases hrun : run x d with ⟨e | b, d'⟩ <;> rw [hrun] at hend ha
  · cases ha
  · cases ha
    exact hend

lemma Ends.map {Q : β → Desk → Prop} {g : α → β} (hx : Ends P x (fun a => Q (g a)) E) :
    Ends P (g <$> x) Q E := by
  rw [← bind_pure_comp]
  exact hx.bind fun _ => ends_pure fun _ h => h

lemma Ends.discard {Q : Desk → Prop} (hx : Ends P x (fun _ => Q) E) :
    Ends P (discard x) (fun _ => Q) E :=
  hx.map (Q := fun _ => Q)

/-- What is known of a desk and not only of that desk. -/
lemma Ends.assume {φ : Prop} (h : φ → Ends P x Q E) : Ends (fun d => P d ∧ φ) x Q E :=
  fun d hd => h hd.2 d hd.1

lemma Ends.exists {ι : Type} {P : ι → Desk → Prop} (h : ∀ i, Ends (P i) x Q E) :
    Ends (fun d => ∃ i, P i d) x Q E :=
  fun d ⟨i, hd⟩ => h i d hd

lemma ends_ofOutcome (o : Outcome α) :
    Ends P (ofOutcome o) (fun a d => P d ∧ o = .ok a) (fun _ => P) := by
  intro d hd
  rw [run_ofOutcome]
  cases o with
  | error e => exact hd
  | ok a => exact ⟨hd, rfl⟩

lemma ends_ofOutcome_bind {o : Outcome α} {Q : β → Desk → Prop} (hE : ∀ e d, P d → E e d)
    (hf : ∀ a, o = .ok a → Ends P (f a) Q E) : Ends P (ofOutcome o >>= f) Q E :=
  ((ends_ofOutcome o).imp_error hE).bind fun a => Ends.assume (hf a)

lemma ends_value (o : Outcome α) : Ends (At s) (ofOutcome o) (fun _ => At s) (Lasts s) :=
  (ends_ofOutcome o).mono (fun _ _ h => h.1) fun _ _ h => h.lasting

lemma ends_now : Ends P now (fun _ => P) E := fun _ hd => hd

lemma ends_settings : Ends P settings (fun _ => P) E := fun _ hd => hd

lemma ends_enqueue (j : Job) : Ends (At s) (enqueue j) (fun _ => At s) (fun _ => At s) := by
  intro d hd
  simp only [enqueue, run_bind, run_get]
  cases d.queueUp with
  | true => exact ⟨hd.store, hd.lasting⟩
  | false => exact hd

lemma ends_web (x : Web α) : Ends (At s) (web x) (fun _ => At s) (fun _ => At s) := by
  intro d hd
  rw [run_web]
  cases (x.run d.wire).1 <;> exact ⟨hd.store, hd.lasting⟩

lemma ends_statement : Ends (At s) statement (fun _ => At s) (fun _ => At s) := by
  intro d hd
  simp only [statement, run_bind, run_get, run_set]
  cases d.trouble.statement (d.statements + 1) with
  | true => exact ⟨hd.store, hd.lasting⟩
  | false => exact ⟨hd.store, hd.lasting⟩

lemma ends_query (q : Store → Outcome α) :
    Ends (At s) (query q) (fun a d => At s d ∧ q s = .ok a) (fun _ => At s) := by
  refine ends_statement.bind fun _ d hd => ?_
  simp only [run_bind, run_get]
  rw [hd.store]
  exact ends_ofOutcome (q s) d hd

lemma ends_change (f : Store → Outcome Store) :
    Ends (At s) (change f) (fun _ d => d.lasting = s ∧ f s = .ok d.store) (Lasts s) := by
  refine (ends_statement.imp_error fun _ _ h => h.lasting).bind fun _ d hd => ?_
  simp only [run_bind, run_get, run_set, run_ofOutcome]
  rw [hd.store]
  cases f s with
  | error e => exact hd.lasting
  | ok s' => exact ⟨hd.lasting, rfl⟩

lemma ends_commit (φ : Store → Prop) :
    Ends (fun d => d.lasting = s ∧ φ d.store) commit (fun _ d => ∃ s', At s' d ∧ φ s')
      (Lasts s) := by
  intro d hd
  simp only [commit, run_bind, run_get]
  cases d.trouble.commit with
  | some e => exact hd.1
  | none => exact ⟨d.store, ⟨rfl, rfl⟩, hd.2⟩

lemma ends_change_commit (f : Store → Outcome Store) :
    Ends (At s) (change f >>= fun _ => commit) (fun _ d => ∃ s', At s' d ∧ f s = .ok s')
      (Lasts s) :=
  (ends_change f).bind fun _ => ends_commit fun s' => f s = .ok s'

lemma ends_add (f : Store → Outcome (α × Store)) :
    Ends (At s) (add f) (fun a d => ∃ s', At s' d ∧ f s = .ok (a, s')) (fun _ => At s) := by
  intro d hd
  simp only [add, run_bind, run_get]
  cases d.trouble.commit with
  | some e => exact hd
  | none =>
    simp only [run_bind, run_ofOutcome]
    rw [hd.store]
    cases f s with
    | error e => exact hd
    | ok a => exact ⟨a.2, ⟨rfl, rfl⟩, rfl⟩

lemma ends_rollback : Ends (fun d => d.lasting = s) rollback (fun _ => At s) E :=
  fun _ hd => ⟨hd, hd⟩

lemma Ends.orElse {b : α} (hx : Ends P x Q F) (hb : ∀ e d, F e d → Q b d) :
    Ends P (orElse x b) Q E :=
  hx.tryCatch fun e => ends_pure (hb e)

lemma Ends.succeeds {x : Work Unit} {Q : Desk → Prop}
    (hx : Ends P x (fun _ => Q) (Lasts s)) (hQ : ∀ d, At s d → Q d) :
    Ends P (succeeds x) (fun _ => Q) E := by
  refine Ends.tryCatch (hx.bind fun _ => ends_pure fun _ h => h) fun _ => ?_
  exact ends_rollback.bind fun _ => ends_pure hQ

/-- Whether work was done or taken back is what it answers. -/
lemma ends_answer {x : Work Unit} {Q : Desk → Prop}
    (hx : Ends P x (fun _ => Q) (Lasts s)) :
    Ends P (succeeds x) (fun b d => b = true ∧ Q d ∨ b = false ∧ At s d) E := by
  refine Ends.tryCatch (hx.bind fun _ => ends_pure fun _ h => .inl ⟨rfl, h⟩) fun _ => ?_
  exact ends_rollback.bind fun _ => ends_pure fun _ h => .inr ⟨rfl, h⟩

lemma ends_removal (f : Store → Outcome Store) : Ends (At s) (succeeds do change f; commit)
      (fun b d => b = true ∧ (∃ s', At s' d ∧ f s = .ok s') ∨ b = false ∧ At s d) (fun _ => At s) :=
  ends_answer (ends_change_commit f)

lemma Ends.orRollback (hx : Ends P x Q (Lasts s)) : Ends P (orRollback x) Q (fun _ => At s) :=
  hx.tryCatch fun _ => ends_rollback.bind fun _ => ends_throw fun _ h => h

lemma ends_mapM {g : α → Work β} {φ : α → β → Prop} {xs : List α}
    (h : ∀ x ∈ xs, Ends P (g x) (fun b d => P d ∧ φ x b) (fun _ => P)) :
    Ends P (xs.mapM g) (fun bs d => P d ∧ ∀ b ∈ bs, ∃ x ∈ xs, φ x b) (fun _ => P) := by
  induction xs with
  | nil => exact ends_pure fun d hd => ⟨hd, fun b hb => by cases hb⟩
  | cons x xs ih =>
    rw [mapM_cons]
    refine (h x (.head _)).bind fun b => Ends.assume fun hb => ?_
    refine (ih fun y hy => h y (.tail _ hy)).bind fun bs => Ends.assume fun hbs => ?_
    refine ends_pure fun d hd => ⟨hd, fun c hc => ?_⟩
    rcases mem_cons.mp hc with rfl | hc
    · exact ⟨x, mem_cons_self .., hb⟩
    · obtain ⟨y, hy, hφ⟩ := hbs c hc
      exact ⟨y, mem_cons_of_mem _ hy, hφ⟩

lemma ends_forIn {xs : List γ} {g : γ → PUnit → Work (ForInStep PUnit)}
    (h : ∀ x ∈ xs, Ends P (g x ⟨⟩) (fun r d => P d ∧ r = .yield ⟨⟩) E) :
    Ends P (forIn xs PUnit.unit g) (fun _ => P) E := by
  induction xs with
  | nil => exact ends_pure fun _ h => h
  | cons x xs ih =>
    rw [forIn_cons]
    refine (h x (.head _)).bind fun r => Ends.assume fun hr => ?_
    cases hr
    exact ih fun y hy => h y (.tail _ hy)

end

/-! ## Invariants of the store -/

section

variable {I : Store → Prop}
variable {x : Work α}

def Holds (I : Store → Prop) (d : Desk) : Prop := I d.store ∧ I d.lasting

/-- Work that keeps an invariant of the store, also if it fails. -/
def Within (I : Store → Prop) (x : Work α) : Prop :=
  Ends (Holds I) x (fun _ => Holds I) (fun _ => Holds I)

lemma holds_at {d : Desk} (hd : At s d) (h : I s) : Holds I d :=
  ⟨hd.store ▸ h, hd.lasting ▸ h⟩

lemma within_pure (a : α) : Within I (pure a) := ends_pure fun _ h => h

lemma within_throw (f : Fault) : Within I (throw f : Work α) := ends_throw fun _ h => h

lemma Within.bind {f : α → Work β} (hx : Within I x) (hf : ∀ a, Within I (f a)) :
    Within I (x >>= f) :=
  Ends.bind hx hf

lemma Within.bind_found {x : Work (Option α)} {f : Option α → Work β} (hx : Within I x)
    (hnone : Within I (f none)) (hsome : ∀ a, Within I (f (some a))) : Within I (x >>= f) := by
  refine hx.bind fun found => ?_
  cases found with
  | none => exact hnone
  | some a => exact hsome a

lemma Within.tryCatch {h : Fault → Work α} (hx : Within I x)
    (hh : ∀ e, Within I (h e)) : Within I (tryCatch x h) :=
  Ends.tryCatch hx hh

lemma Within.orElse (hx : Within I x) (a : α) : Within I (orElse x a) :=
  hx.tryCatch fun _ => within_pure a

lemma Within.discard (hx : Within I x) : Within I (discard x) := Ends.discard hx

lemma within_ofOutcome (o : Outcome α) : Within I (ofOutcome o) :=
  (ends_ofOutcome o).imp fun _ _ h => h.1

lemma within_now : Within I now := ends_now

lemma within_settings : Within I settings := ends_settings

lemma within_get : Within I get := fun _ hd => hd

lemma within_rollback : Within I rollback := fun _ hd => ⟨hd.2, hd.2⟩

lemma within_statement : Within I statement := by
  intro d hd
  simp only [statement, run_bind, run_get, run_set]
  cases d.trouble.statement (d.statements + 1) with
  | true => exact hd
  | false => exact hd

lemma within_query (q : Store → Outcome α) : Within I (query q) :=
  within_statement.bind fun _ => within_get.bind fun _ => within_ofOutcome _

lemma within_web (x : Web α) : Within I (web x) := by
  intro d hd
  rw [run_web]
  cases (x.run d.wire).1 <;> exact hd

lemma within_enqueue (j : Job) : Within I (enqueue j) := by
  intro d hd
  simp only [enqueue, run_bind, run_get]
  cases d.queueUp with
  | true => exact hd
  | false => exact hd

lemma within_change {f : Store → Outcome Store} (hf : ∀ s s', I s → f s = .ok s' → I s') :
    Within I (change f) := by
  refine within_statement.bind fun _ d hd => ?_
  simp only [run_bind, run_get, run_set, run_ofOutcome]
  cases hs : f d.store with
  | error e => exact hd
  | ok s' => exact ⟨hf _ _ hd.1 hs, hd.2⟩

lemma within_commit : Within I commit := by
  intro d hd
  simp only [commit, run_bind, run_get]
  cases d.trouble.commit with
  | some e => exact hd
  | none => exact ⟨hd.1, hd.1⟩

lemma within_add {f : Store → Outcome (α × Store)}
    (hf : ∀ s a s', I s → f s = .ok (a, s') → I s') : Within I (add f) := by
  intro d hd
  simp only [add, run_bind, run_get]
  cases d.trouble.commit with
  | some e => exact hd
  | none =>
    simp only [run_bind, run_ofOutcome]
    cases hs : f d.store with
    | error e => exact hd
    | ok a => exact ⟨hf _ _ _ hd.1 hs, hf _ _ _ hd.1 hs⟩

lemma Within.succeeds {x : Work Unit} (hx : Within I x) : Within I (succeeds x) :=
  (hx.bind fun _ => within_pure true).tryCatch fun _ => within_rollback.bind fun _ =>
    within_pure false

lemma Within.orRollback (hx : Within I x) : Within I (orRollback x) :=
  hx.tryCatch fun e => within_rollback.bind fun _ => within_throw e

lemma Within.mapM {g : α → Work β} {xs : List α} (hg : ∀ x, Within I (g x)) :
    Within I (xs.mapM g) := by
  induction xs with
  | nil => exact within_pure []
  | cons x xs ih =>
    rw [mapM_cons]
    exact (hg x).bind fun _ => ih.bind fun _ => within_pure _

end

end Work

/-- A desk at which the store is another one. -/
def Desk.holding (d : Desk) (s : Store) : Desk := { d with store := s, lasting := s }

lemma Desk.holding_at (d : Desk) (s : Store) : Work.At s (d.holding s) := ⟨rfl, rfl⟩

/-- The store that work leaves. -/
def Work.result (x : Work α) (d : Desk) (s : Store) : Store := (run x (d.holding s)).2.lasting

section

variable {κ : Type} {work : κ → Work α}

/-- The store after a run of calls, each at a desk of its own. -/
def Store.after (work : κ → Work α) (s : Store) (steps : List (Desk × κ)) : Store :=
  steps.foldl (fun s step => (work step.2).result step.1 s) s

lemma Store.after_keeps {P : Store → Prop} (h : ∀ s d c, P s → P ((work c).result d s)) (hs : P s)
    (steps : List (Desk × κ)) : P (s.after work steps) := by
  induction steps generalizing s with
  | nil => exact hs
  | cons step steps ih => exact ih (h s step.1 step.2 hs)

end

end ReviewDesk
