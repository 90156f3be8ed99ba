import ReviewDesk.Proofs.Work

/-!
# Calls that take turns

Several calls are under way at the same time. Each is done in turns: a turn is work that nobody
interrupts, and what it commits is there for the turns after it. A run is any order of the turns of
any number of calls, so what is proved of every list of turns holds however the calls overlap.
-/

namespace ReviewDesk

variable {ι σ α : Type}

namespace Work

variable {d : Desk} {β γ : Type}

lemma ext {x y : Work α} (h : ∀ d, run x d = run y d) : x = y := funext h

lemma run_query (q : Store → Outcome α) (hd : d.fails = false) :
    run (query q) d = (q d.store, d.asked) := by
  cases hq : q d.store <;>
    simp [query, statement, run_bind, run_get, run_set, run_ofOutcome, hd, hq]

lemma run_search (q : Store → Outcome (Option α)) (d : Desk) :
    ∃ found, run (orElse (query q) none) d = (.ok found, d.asked) ∧
      ∀ r, found = some r → q d.store = .ok (some r) := by
  cases hd : d.trouble.statement (d.statements + 1) with
  | true =>
    refine ⟨none, ?_, fun r hr => by cases hr⟩
    simp [orElse, query, statement, run_tryCatch, run_bind, run_get, run_set, hd]
  | false =>
    cases hq : q d.store with
    | error e =>
      refine ⟨none, ?_, fun r hr => by cases hr⟩
      simp [orElse, query, statement, run_tryCatch, run_bind, run_get, run_set, run_ofOutcome, hd, hq]
    | ok found =>
      refine ⟨found, ?_, fun r hr => by rw [hr]⟩
      simp [orElse, query, statement, run_tryCatch, run_bind, run_get, run_set, run_ofOutcome, hd, hq]

lemma run_add (f : Store → Outcome (α × Store)) (d : Desk) : run (add f) d =
      match d.trouble.commit with
      | some e => (.error e, d)
      | none =>
        match f d.store with
        | .ok (a, s) => (.ok a, { d with store := s, lasting := s })
        | .error e => (.error e, d) := by
  cases hc : d.trouble.commit with
  | some e => simp [add, run_bind, run_get, hc]
  | none =>
    cases hf : f d.store <;>
      simp [add, run_bind, run_get, run_set, run_map, run_ofOutcome, hc, hf]

section

variable (search : Work (Option β)) (taken : Fault) (rest : Work α)

/-- Work that is only done if a search finds nothing. -/
def unlessFound : Work α := do
  if (← search).isSome then throw taken
  rest

lemma run_unlessFound (d : Desk) :
    run (unlessFound search taken rest) d = match run search d with
      | (.ok (some _), d') => (.error taken, d')
      | (.ok none, d') => run rest d'
      | (.error e, d') => (.error e, d') := by
  rw [unlessFound, run_bind]
  rcases run search d with ⟨_ | _ | _, _⟩ <;> rfl

lemma run_of_unlessFound {search : Work (Option β)} {taken : Fault} {rest : Work α}
    {a : α} {d' : Desk} (h : run (unlessFound search taken rest) d = (.ok a, d')) :
    ∃ d₁, run rest d₁ = (.ok a, d') := by
  rw [run_unlessFound] at h
  rcases hsearch : run search d with ⟨_ | _ | _, d₁⟩
  · rw [hsearch] at h
    cases h
  · rw [hsearch] at h
    exact ⟨d₁, h⟩
  · rw [hsearch] at h
    cases h

lemma unlessFound_bind
    (f : α → Work γ) :
    unlessFound search taken rest >>= f = unlessFound search taken (rest >>= f) := by
  apply ext
  intro d
  rw [run_bind, run_unlessFound, run_unlessFound]
  rcases run search d with ⟨_ | _ | _, d'⟩
  · rfl
  · exact (run_bind ..).symm
  · rfl

lemma map_unlessFound
    (f : α → γ) : f <$> unlessFound search taken rest = unlessFound search taken (f <$> rest) := by
  rw [map_eq_pure_bind, map_eq_pure_bind, unlessFound_bind]

end

lemma map_tryCatch (f : α → β) (x : Work α) (h : Fault → Work α) :
    f <$> tryCatch x h = tryCatch (f <$> x) fun e => f <$> h e := by
  apply ext
  intro d
  rw [run_map, run_tryCatch, run_tryCatch, run_map]
  rcases run x d with ⟨e | a, d'⟩
  · exact (run_map ..).symm
  · rfl

end Work

open Work List

/-- What a call does in a turn from each of its stages: it goes on to another stage, or it is over,
with a result or a fault. -/
abbrev Procedure (σ α : Type) := σ → Work (σ ⊕ α)

namespace Procedure

/-- Turns of a call one right after the other, `n` at most. -/
def straight (p : Procedure σ α) : Nat → σ → Work (σ ⊕ α)
  | 0, stage => return .inl stage
  | n + 1, stage => do
    match ← p stage with
    | .inl next => p.straight n next
    | .inr a => return .inr a

lemma straight_succ (p : Procedure σ α) (n : Nat) (stage : σ) :
    p.straight (n + 1) stage = p stage >>= fun
      | .inl next => p.straight n next
      | .inr a => pure (.inr a) := rfl

/-- A call that a fault ends in the way of `h`. -/
def guarded (p : Procedure σ α) (h : Fault → Work α) : Procedure σ α := fun stage =>
  tryCatch (p stage) fun e => Sum.inr <$> h e

lemma run_guarded (p : Procedure σ α) (h : Fault → Work α) (stage : σ) (d : Desk) :
    run (p.guarded h stage) d =
      match run (p stage) d with
      | (.ok r, d') => (.ok r, d')
      | (.error e, d') => run (Sum.inr <$> h e) d' := by
  rw [guarded, run_tryCatch]
  rcases run (p stage) d with ⟨_ | _, _⟩ <;> rfl

/-- A call that goes on has not been in a fault. -/
lemma run_of_guarded {p : Procedure σ α} {h : Fault → Work α} {stage next : σ} {d d' : Desk}
    (hrun : run (p.guarded h stage) d = (.ok (.inl next), d')) :
    run (p stage) d = (.ok (.inl next), d') := by
  rw [run_guarded] at hrun
  rcases hp : run (p stage) d with ⟨e | r, d₁⟩
  · rw [hp] at hrun
    simp only [run_map] at hrun
    rcases hh : run (h e) d₁ with ⟨_ | _, _⟩
    · rw [hh] at hrun
      cases hrun
    · rw [hh] at hrun
      cases hrun
  · rw [hp] at hrun
    exact hrun

/-- It makes no difference whether each turn is guarded or all of them together. -/
lemma straight_guarded (p : Procedure σ α) (h : Fault → Work α) (n : Nat) (stage : σ) :
    (p.guarded h).straight n stage = tryCatch (p.straight n stage) fun e => Sum.inr <$> h e := by
  apply Work.ext
  induction n generalizing stage with
  | zero => intro d; rfl
  | succ n ih =>
    intro d
    rw [run_tryCatch]
    simp only [straight, run_bind, run_guarded]
    rcases run (p stage) d with ⟨e | next | a, d₁⟩
    · simp only [run_map]
      rcases run (h e) d₁ with ⟨_ | _, _⟩
      · rfl
      · rfl
    · simp only [ih, run_tryCatch]
    · rfl

end Procedure

/-- How far a call is. -/
inductive CallState (σ α : Type) where
  | going (stage : σ)
  | ended (outcome : Outcome α)

def CallState.fault? : CallState σ α → Option Fault
  | .ended (.error e) => some e
  | _ => none

def CallState.result? : CallState σ α → Option α
  | .ended (.ok a) => some a
  | _ => none

lemma CallState.eq_of_result? {state : CallState σ α} {a : α}
    (h : state.result? = some a) : state = .ended (.ok a) := by
  rcases state with stage | (e | b)
  · cases h
  · cases h
  · cases h
    rfl

/-- How far a call is after a turn. -/
def CallState.ofTurn : Outcome (σ ⊕ α) → CallState σ α
  | .ok (.inl stage) => .going stage
  | .ok (.inr a) => .ended (.ok a)
  | .error e => .ended (.error e)

/-- Whose turn it is, and at which moment. -/
structure Turn (ι : Type) where
  caller : ι
  moment : Moment

def turnsOf (order : List ι) : List (Turn ι) := order.map (⟨·, ⟨0⟩⟩)

lemma map_caller_turnsOf (order : List ι) : (turnsOf order).map (·.caller) = order := by
  rw [turnsOf, map_map]
  exact map_id _

lemma countP_turnsOf [DecidableEq ι] (order : List ι) (i : ι) :
    (turnsOf order).countP (·.caller = i) = order.count i := by
  rw [turnsOf, countP_map, count_eq_countP]
  congr 1

/-- The calls that are under way, each at a desk of its own, and the store that they share. -/
structure Floor (ι σ α : Type) where
  store : Store
  desk : ι → Desk
  state : ι → CallState σ α

namespace Floor

/-- Calls that have not had a turn yet. -/
def opened (s : Store) (desks : ι → Desk) (stage : σ) : Floor ι σ α :=
  { store := s, desk := desks, state := fun _ => .going stage }

/-- The desk of a call when it has its turn. -/
def deskFor (w : Floor ι σ α) (x : Turn ι) : Desk :=
  { (w.desk x.caller).holding w.store with now := x.moment }

lemma deskFor_at (w : Floor ι σ α) (x : Turn ι) : At w.store (w.deskFor x) := ⟨rfl, rfl⟩

lemma deskFor_trouble (w : Floor ι σ α) (x : Turn ι) :
    (w.deskFor x).trouble = (w.desk x.caller).trouble := rfl

variable [DecidableEq ι]

/-- The floor after work that a call has done in a turn. -/
def left (w : Floor ι σ α) (i : ι) (done : Outcome (σ ⊕ α) × Desk) : Floor ι σ α where
  store := done.2.lasting
  desk := Function.update w.desk i done.2
  state := Function.update w.state i (.ofTurn done.1)

/-- A turn of a call that is over changes nothing. -/
def afterTurn (p : ι → Procedure σ α) (w : Floor ι σ α) (x : Turn ι) : Floor ι σ α :=
  match w.state x.caller with
  | .going stage => w.left x.caller (run (p x.caller stage) (w.deskFor x))
  | .ended _ => w

def after (p : ι → Procedure σ α) (w : Floor ι σ α) (xs : List (Turn ι)) : Floor ι σ α :=
  xs.foldl (afterTurn p) w

section

variable {p : ι → Procedure σ α} {w : Floor ι σ α} {x : Turn ι} {xs : List (Turn ι)} {i : ι}
variable {stage : σ} {o : Outcome α} {j : ι}

lemma after_cons : w.after p (x :: xs) = (w.afterTurn p x).after p xs := rfl

lemma afterTurn_going (h : w.state x.caller = .going stage) :
    w.afterTurn p x = w.left x.caller (run (p x.caller stage) (w.deskFor x)) := by
  rw [afterTurn, h]

lemma afterTurn_ended (h : w.state x.caller = .ended o) : w.afterTurn p x = w := by
  rw [afterTurn, h]

lemma state_left_self (w : Floor ι σ α) (i : ι) (done : Outcome (σ ⊕ α) × Desk) :
    (w.left i done).state i = .ofTurn done.1 := Function.update_self ..

lemma state_left_ne (done : Outcome (σ ⊕ α) × Desk) (h : j ≠ i) :
    (w.left i done).state j = w.state j := Function.update_of_ne h ..

lemma state_afterTurn_ne (h : i ≠ x.caller) : (w.afterTurn p x).state i = w.state i := by
  unfold afterTurn
  split
  · exact state_left_ne _ h
  · rfl

lemma state_after_ended (h : w.state i = .ended o) (xs : List (Turn ι)) :
    (w.after p xs).state i = .ended o := by
  induction xs generalizing w with
  | nil => exact h
  | cons x xs ih =>
    rw [after_cons]
    apply ih
    by_cases hx : i = x.caller
    · rw [afterTurn_ended (hx ▸ h)]
      exact h
    · rw [state_afterTurn_ne hx]
      exact h

/-- A turn leaves the troubles of all as they are if it does so to its own. -/
lemma trouble_left {trouble : ι → Trouble} {done : Outcome (σ ⊕ α) × Desk}
    (h : ∀ j, (w.desk j).trouble = trouble j) (hdone : done.2.trouble = trouble i) (j : ι) :
    ((w.left i done).desk j).trouble = trouble j := by
  by_cases hj : j = i
  · simpa only [left, hj, Function.update_self] using hdone
  · simpa only [left, Function.update_of_ne hj] using h j

/-- What every turn of a call that is still going keeps, a run keeps. -/
lemma after_induction {I : Floor ι σ α → Prop} (hw : I w)
    (hturn : ∀ w x stage, I w → w.state x.caller = .going stage →
      I (w.left x.caller (run (p x.caller stage) (w.deskFor x))))
    (xs : List (Turn ι)) : I (w.after p xs) := by
  induction xs generalizing w with
  | nil => exact hw
  | cons x xs ih =>
    rw [after_cons]
    apply ih
    cases hx : w.state x.caller with
    | going stage =>
      rw [afterTurn_going hx]
      exact hturn w x stage hw hx
    | ended o =>
      rw [afterTurn_ended hx]
      exact hw

/-- A call is over when it has had more turns than its stage is away from the last one. -/
lemma ended_of_turns (rank : σ → Nat)
    (hrank : ∀ stage next d d', run (p i stage) d = (.ok (.inl next), d') → rank next < rank stage)
    (h : w.state i = .going stage) (hturns : rank stage < xs.countP (·.caller = i)) :
    ∃ o, (w.after p xs).state i = .ended o := by
  -- A turn of the call lowers the rank of its stage, and the turns of others leave its stage alone.
  induction xs generalizing w stage with
  | nil => simp at hturns
  | cons x xs ih =>
    rw [after_cons]
    by_cases hx : x.caller = i
    · have hcount : rank stage < xs.countP (·.caller = i) + 1 := by
        simpa [countP_cons, hx] using hturns
      rw [afterTurn_going (hx ▸ h), hx]
      have hself := state_left_self w i (run (p i stage) (w.deskFor x))
      rcases hrun : run (p i stage) (w.deskFor x) with ⟨e | next | a, d'⟩
      · rw [hrun] at hself
        exact ⟨_, state_after_ended hself xs⟩
      · rw [hrun] at hself
        have hless := hrank stage next _ _ hrun
        exact ih hself (by omega)
      · rw [hrun] at hself
        exact ⟨_, state_after_ended hself xs⟩
    · have hcount : rank stage < xs.countP (·.caller = i) := by
        simpa [countP_cons, hx] using hturns
      apply ih _ hcount
      rw [state_afterTurn_ne (Ne.symm hx)]
      exact h

end

end Floor

end ReviewDesk
