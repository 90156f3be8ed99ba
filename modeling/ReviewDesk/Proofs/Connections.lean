import ReviewDesk.Proofs.Forms
import ReviewDesk.Proofs.Tables
import ReviewDesk.Proofs.Turns
import ReviewDesk.Repositories.Basic

/-!
# Connections at the same time

A connection takes two turns: it looks for the same repository of the same user, and it adds the
row. The table does not keep such rows apart, so all connections for one repository go through that
have looked before the first of them adds its row.
-/

namespace ReviewDesk

open List Work Store Floor

namespace Repositories

/-- Which repository of which user: what no two rows should share. -/
@[ext]
structure Key where
  owner : Int
  provider : String
  externalId : String
  deriving DecidableEq

def Key.isOf (k : Key) (r : Repository) : Bool :=
  r.externalId == k.externalId && r.provider == k.provider && r.ownedBy (.int k.owner)

def rowsOf (k : Key) (s : Store) : List Repository := s.repositories.filter k.isOf

lemma connected_eq (k : Key) (hfits : fits k.owner) (s : Store) :
    connected (.text k.externalId) (.text k.provider) (.int k.owner) s = one (rowsOf k s) := by
  simp only [connected, parameter, hfits, Outcome.bind_ok, rowsOf, ite_true]
  rfl

/-! ## One connection -/

/-- A request to connect a repository, with the form that is read from it. -/
structure Connection where
  body : Value
  form : Filled
  isRead : Form.repositoryCreate.read body = .ok form
  owner : Int
  ownerFits : fits owner

namespace Connection

variable (c : Connection)

inductive Stage where
  | search
  | row

def key : Key := ⟨c.owner, c.form.text "provider", c.form.text "external_id"⟩

def part : Procedure Stage Repository
  | .search =>
    unlessFound (query (connected (c.form.get "external_id") (c.form.get "provider") (.int c.owner)))
      alreadyConnected (return .inl .row)
  | .row => do
    let t ← now
    Sum.inr <$> add (Store.addRepository (newRepository c.form (.int c.owner) t))

def turn : Procedure Stage Repository :=
  c.part.guarded fun fault => do
    match fault with
    | .invalid _ => throw fault
    | _ =>
      rollback
      throw (Accounts.conflictAs (.invalid "Repository with this external ID already exists") fault)

lemma straight_turn : c.turn.straight 2 .search = Sum.inr <$> connect c.form (.int c.owner) := by
  have hpart : c.part.straight 2 .search = Sum.inr <$>
      unlessFound
        (query (connected (c.form.get "external_id") (c.form.get "provider") (.int c.owner)))
        alreadyConnected (do
          let t ← now
          add (Store.addRepository (newRepository c.form (.int c.owner) t))) := by
    simp only [map_unlessFound, Procedure.straight_succ, part, unlessFound_bind, pure_bind]
    simp
  rw [turn, Procedure.straight_guarded, hpart, connect, map_tryCatch]
  rfl

lemma get_externalId : c.form.get "external_id" = .text (c.form.text "external_id") := by
  obtain ⟨e, he⟩ := Form.get_need_text c.isRead "external_id" rfl (Form.givesText_text 0 none)
  rw [Filled.text, he, Value.plain]

lemma get_provider : c.form.get "provider" = .text (c.form.text "provider") := by
  obtain ⟨p, hp⟩ := Form.get_need_text c.isRead "provider" rfl (Form.givesText_text 0 none)
  rw [Filled.text, hp, Value.plain]

lemma newRepository_eq (t : Moment) (n : Int) :
    ∃ r, newRepository c.form (.int c.owner) t n = .ok r ∧
      ∀ k : Key, k.isOf r = decide (c.key = k) := by
  have hcolumn : integerColumn (.int c.owner) = .ok (.int c.owner) := by
    rw [integerColumn, parameter_int c.ownerFits]
    rfl
  refine ⟨_, by simp only [newRepository, hcolumn, Outcome.bind_ok]; rfl, ?_⟩
  intro k
  rw [Bool.eq_iff_iff]
  simp [Key.isOf, Repository.ownedBy, figureIs_int, key, Key.ext_iff]
  tauto

lemma run_lookup {d : Desk} (h : d.fails = false) :
    run (query (connected (c.form.get "external_id") (c.form.get "provider") (.int c.owner))) d =
      (one (rowsOf c.key d.store), d.asked) := by
  rw [run_query _ h, get_externalId, get_provider]
  exact congrArg (·, _) (connected_eq c.key c.ownerFits _)

lemma run_addRow (d : Desk) : ∃ r, (∀ k : Key, k.isOf r = decide (c.key = k)) ∧
      run (add (Store.addRepository (newRepository c.form (.int c.owner) d.now))) d =
        match d.trouble.commit with
        | some e => (.error e, d)
        | none =>
          let s := { d.store with repositories := d.store.repositories ++ [r] }
          (.ok r, { d with store := s, lasting := s }) := by
  obtain ⟨r, hr, hown⟩ := c.newRepository_eq d.now (nextId (d.store.repositories.map (·.id)))
  have hadd : d.store.addRepository (newRepository c.form (.int c.owner) d.now) =
      .ok (r, { d.store with repositories := d.store.repositories ++ [r] }) := by
    rw [addRepository, hr]
    rfl
  refine ⟨r, hown, ?_⟩
  cases hcommit : d.trouble.commit <;> simp only [run_add, hcommit, hadd]

lemma run_part_row (d : Desk) : run (c.part .row) d =
      run (Sum.inr <$> add (Store.addRepository (newRepository c.form (.int c.owner) d.now))) d := rfl

/-- What a turn can do to the store `s`. -/
inductive Leads (c : Connection) (s : Store) : Stage → Outcome (Stage ⊕ Repository) → Store → Prop
  | free (none : rowsOf c.key s = []) : Leads c s .search (.ok (.inl .row)) s
  | taken (one : (rowsOf c.key s).length = 1) : Leads c s .search (.error alreadyConnected) s
  | doubled (several : 2 ≤ (rowsOf c.key s).length) : Leads c s .search (.error .severalRows) s
  | added (r : Repository) (own : ∀ k : Key, k.isOf r = decide (c.key = k)) :
    Leads c s .row (.ok (.inr r)) { s with repositories := s.repositories ++ [r] }

lemma leads_turn (stage : Stage) {s : Store} {d : Desk} (hd : At s d)
    (htrouble : d.trouble = {}) :
    c.Leads s stage (run (c.turn stage) d).1 (run (c.turn stage) d).2.lasting ∧
      (run (c.turn stage) d).2.trouble = {} := by
  obtain ⟨hstore, rfl⟩ := hd
  rw [turn, Procedure.run_guarded]
  cases stage with
  | search =>
    rw [part, run_unlessFound, c.run_lookup (by rw [Desk.fails, htrouble]), hstore]
    cases hrows : rowsOf c.key d.lasting with
    | nil => exact ⟨.free hrows, htrouble⟩
    | cons r rest =>
      cases rest with
      | nil => exact ⟨.taken (by rw [hrows]; rfl), htrouble⟩
      | cons r' rest => exact ⟨.doubled (by rw [hrows]; simp), htrouble⟩
  | row =>
    obtain ⟨r, hown, hrun⟩ := c.run_addRow d
    rw [run_part_row, run_map, hrun, htrouble, hstore]
    exact ⟨.added r hown, rfl⟩

/-! ## Many connections -/

section

variable {ι : Type} {cs : ι → Connection} {desks : ι → Desk} {s : Store} {k : Key}
  {b : Nat} {seen added : List ι} {w : Floor ι Stage Repository}

/-- How the connections for `k` stand: those of `seen` have found nothing, those of `added` have
added their row to the `b` rows that there were, and all others have not looked yet or are refused. -/
structure Stand (cs : ι → Connection) (k : Key) (b : Nat) (seen added : List ι)
    (w : Floor ι Stage Repository) : Prop where
  trouble : ∀ i, (w.desk i).trouble = {}
  rows : (rowsOf k w.store).length = b + added.length
  own : ∀ i ∈ seen, (cs i).key = k
  once : seen.Nodup
  addedOnce : added.Nodup
  addedSeen : added ⊆ seen
  waiting : ∀ i ∈ seen, i ∉ added → w.state i = .going .row
  through : ∀ i ∈ added, ∃ r, w.state i = .ended (.ok r)
  others : ∀ i, (cs i).key = k → i ∉ seen → w.state i = .going .search ∨ 1 ≤ b + added.length ∧
    (w.state i = .ended (.error alreadyConnected) ∨
      w.state i = .ended (.error .severalRows) ∧ 2 ≤ b + seen.length)

lemma stand_opened (hdesks : ∀ i, (desks i).trouble = {}) :
    Stand cs k (rowsOf k s).length [] [] (opened s desks .search) where
  trouble := hdesks
  rows := rfl
  own i h := by cases h
  once := nodup_nil
  addedOnce := nodup_nil
  addedSeen := nil_subset _
  waiting i h := by cases h
  through i h := by cases h
  others i _ _ := .inl rfl

lemma rowsOf_added {r : Repository} {k' : Key} (h : ∀ k : Key, k.isOf r = decide (k' = k)) :
    rowsOf k { s with repositories := s.repositories ++ [r] } =
      rowsOf k s ++ if k' = k then [r] else [] := by
  unfold rowsOf
  rw [filter_append]
  congr 1
  rw [filter_singleton, h, Bool.cond_decide]

lemma Leads.rowsOf_other {c : Connection} {stage : Stage} {o : Outcome (Stage ⊕ Repository)}
    {s' : Store} (h : c.Leads s stage o s') (hc : c.key ≠ k) : rowsOf k s' = rowsOf k s := by
  cases h with
  | free none => rfl
  | taken one => rfl
  | doubled several => rfl
  | added r own => rw [rowsOf_added own, if_neg hc, append_nil]

/-- Whose turns the turns of connections for `k` are. -/
def callers (cs : ι → Connection) (k : Key) (turns : List (Turn ι)) : List ι :=
  (turns.map (·.caller)).filter fun i => (cs i).key = k

lemma callers_cons (cs : ι → Connection) (k : Key) (x : Turn ι) (turns : List (Turn ι)) :
    callers cs k (x :: turns) =
      if (cs x.caller).key = k then x.caller :: callers cs k turns else callers cs k turns := by
  simp only [callers, map_cons, filter_cons, decide_eq_true_eq]

/-- `i` may have come to the end of a list. -/
def Joins (i : ι) (l l' : List ι) : Prop := l' = l ∨ l' = l ++ [i] ∧ i ∉ l

section

variable {i j : ι} {l l' : List ι}

lemma Joins.mem_iff (h : Joins i l l') (hj : j ≠ i) : j ∈ l' ↔ j ∈ l := by
  rcases h with rfl | ⟨rfl, _⟩ <;> simp [hj]

lemma Joins.nodup (h : Joins i l l') (hl : l.Nodup) : l'.Nodup := by
  rcases h with rfl | ⟨rfl, hi⟩
  · exact hl
  · exact concat_eq_append ▸ hl.concat hi

lemma Joins.length_le (h : Joins i l l') : l.length ≤ l'.length := by
  rcases h with rfl | ⟨rfl, _⟩ <;> simp

end

variable [DecidableEq ι]

/-- A turn changes nothing but the place of its caller. -/
lemma Stand.turn (h : Stand cs k b seen added w) {x : Turn ι} {stage : Stage}
    {seen' added' : List ι} (hstate : w.state x.caller = .going stage)
    (hseen : Joins x.caller seen seen') (hadded : Joins x.caller added added')
    (hown : x.caller ∈ seen' → (cs x.caller).key = k) (hsub : x.caller ∈ added' → x.caller ∈ seen')
    (hself : ∀ o s', (cs x.caller).Leads w.store stage o s' →
      (rowsOf k s').length = b + added'.length ∧
        (x.caller ∈ seen' → x.caller ∉ added' → o = .ok (.inl .row)) ∧
        (x.caller ∈ added' → ∃ r, o = .ok (.inr r)) ∧
        ((cs x.caller).key = k → x.caller ∉ seen' → 1 ≤ b + added'.length ∧
          (o = .error alreadyConnected ∨ o = .error .severalRows ∧ 2 ≤ b + seen'.length))) :
    Stand cs k b seen' added' (w.afterTurn (fun i => (cs i).turn) x) := by
  rw [afterTurn_going hstate]
  obtain ⟨hleads, htrouble⟩ := (cs x.caller).leads_turn stage (w.deskFor_at x) (h.trouble x.caller)
  generalize run ((cs x.caller).turn stage) (w.deskFor x) = done at hleads htrouble
  obtain ⟨hrows, hwaiting, hthrough, hothers⟩ := hself _ _ hleads
  have hlength := hseen.length_le
  have hlengthAdded := hadded.length_le
  refine
    { trouble := trouble_left h.trouble htrouble
      rows := hrows
      own := fun i hi => ?_
      once := hseen.nodup h.once
      addedOnce := hadded.nodup h.addedOnce
      addedSeen := fun i hi => ?_
      waiting := fun i hi hnot => ?_
      through := fun i hi => ?_
      others := fun i hi hnot => ?_ }
  all_goals by_cases heq : i = x.caller
  · exact heq ▸ hown (heq ▸ hi)
  · exact h.own i ((hseen.mem_iff heq).mp hi)
  · exact heq ▸ hsub (heq ▸ hi)
  · exact (hseen.mem_iff heq).mpr (h.addedSeen ((hadded.mem_iff heq).mp hi))
  · subst heq
    rw [state_left_self, hwaiting hi hnot]
    rfl
  · rw [state_left_ne _ heq]
    exact h.waiting i ((hseen.mem_iff heq).mp hi) (mt (hadded.mem_iff heq).mpr hnot)
  · subst heq
    obtain ⟨r, hr⟩ := hthrough hi
    rw [state_left_self, hr]
    exact ⟨r, rfl⟩
  · rw [state_left_ne _ heq]
    exact h.through i ((hadded.mem_iff heq).mp hi)
  · subst heq
    rw [state_left_self]
    obtain ⟨hsome, hwhy | ⟨hwhy, hseveral⟩⟩ := hothers hi hnot <;> rw [hwhy]
    · exact .inr ⟨hsome, .inl rfl⟩
    · exact .inr ⟨hsome, .inr ⟨rfl, hseveral⟩⟩
  · rw [state_left_ne _ heq]
    rcases h.others i hi (mt (hseen.mem_iff heq).mpr hnot) with hgoing | ⟨hsome, hwhy⟩
    · exact .inl hgoing
    · exact .inr ⟨by omega, hwhy.imp_right fun hwhy => ⟨hwhy.1, by omega⟩⟩

lemma Stand.other (h : Stand cs k b seen added w) (x : Turn ι) (hx : (cs x.caller).key ≠ k) :
    Stand cs k b seen added (w.afterTurn (fun i => (cs i).turn) x) := by
  cases hstate : w.state x.caller with
  | ended o =>
    rw [afterTurn_ended hstate]
    exact h
  | going stage =>
    have hnew : x.caller ∉ seen := fun hi => hx (h.own _ hi)
    refine h.turn hstate (.inl rfl) (.inl rfl) (h.own _) (h.addedSeen ·) fun o s' hleads => ?_
    refine ⟨?_, fun hi => absurd hi hnew, fun hi => absurd (h.addedSeen hi) hnew,
      fun hk => absurd hk hx⟩
    rw [hleads.rowsOf_other hx]
    exact h.rows

lemma Stand.search_free (h : Stand cs k b seen added w) (x : Turn ι) (hx : (cs x.caller).key = k)
    (hnew : x.caller ∉ seen) (hnone : b + added.length = 0) :
    Stand cs k b (seen ++ [x.caller]) added (w.afterTurn (fun i => (cs i).turn) x) := by
  have hstate : w.state x.caller = .going .search := by
    rcases h.others x.caller hx hnew with hgoing | ⟨hsome, _⟩
    · exact hgoing
    · omega
  refine h.turn hstate (.inr ⟨rfl, hnew⟩) (.inl rfl) (fun _ => hx) (fun _ => by simp)
    fun o s' hleads => ?_
  have hrows := h.rows
  cases hleads with
  | free none =>
    exact ⟨hrows, fun _ _ => rfl, fun hi => absurd (h.addedSeen hi) hnew,
      fun _ hnot => by simp at hnot⟩
  | taken one => rw [hx] at one; omega
  | doubled several => rw [hx] at several; omega

lemma Stand.search_taken (h : Stand cs k b seen added w) (x : Turn ι) (hx : (cs x.caller).key = k)
    (hnew : x.caller ∉ seen) (hsome : 1 ≤ b + added.length) :
    Stand cs k b seen added (w.afterTurn (fun i => (cs i).turn) x) := by
  rcases h.others x.caller hx hnew with hstate | ⟨_, hended | ⟨hended, _⟩⟩
  · refine h.turn hstate (.inl rfl) (.inl rfl) (h.own _) (h.addedSeen ·) fun o s' hleads => ?_
    have hrows := h.rows
    have hless := (subperm_of_subset h.addedOnce h.addedSeen).length_le
    refine ⟨?_, fun hi => absurd hi hnew, fun hi => absurd (h.addedSeen hi) hnew,
      fun _ _ => ⟨hsome, ?_⟩⟩
    all_goals
      cases hleads with
      | free none =>
        rw [hx] at none
        simp only [none, length_nil] at hrows
        omega
      | taken one => first | exact hrows | exact .inl rfl
      | doubled several =>
        rw [hx] at several
        first | exact hrows | exact .inr ⟨rfl, by omega⟩
  all_goals
    rw [afterTurn_ended hended]
    exact h

/-- A connection that has found nothing adds its row, whatever has been added since. -/
lemma Stand.row (h : Stand cs k b seen added w) (x : Turn ι) (hx : x.caller ∈ seen) :
    ∃ added', added' ≠ [] ∧ Stand cs k b seen added' (w.afterTurn (fun i => (cs i).turn) x) := by
  by_cases hadded : x.caller ∈ added
  · obtain ⟨r, hr⟩ := h.through x.caller hadded
    rw [afterTurn_ended hr]
    exact ⟨added, ne_nil_of_mem hadded, h⟩
  · -- It does not look again, so its row comes beside those that were added since it looked.
    refine ⟨added ++ [x.caller], by simp, ?_⟩
    refine h.turn (h.waiting x.caller hx hadded) (.inl rfl) (.inr ⟨rfl, hadded⟩) (h.own _)
      (fun _ => hx) fun o s' hleads => ?_
    cases hleads with
    | added r own =>
      refine ⟨?_, fun _ hnot => by simp at hnot, fun _ => ⟨r, rfl⟩, fun _ hnot => absurd hx hnot⟩
      rw [rowsOf_added own, if_pos (h.own _ hx), length_append, h.rows, length_append,
        Nat.add_assoc]
      rfl

/-- The connections of a list of callers that come before one comes again. -/
def firsts : List ι → List ι → List ι
  | seen, [] => seen
  | seen, i :: rest => if i ∈ seen then seen else firsts (seen ++ [i]) rest

/-- When there is a row, nobody finds nothing any more. -/
lemma Stand.after_row (h : Stand cs k b seen added w) (hsome : 1 ≤ b + added.length)
    (turns : List (Turn ι)) :
    ∃ added', Stand cs k b seen added' (w.after (fun i => (cs i).turn) turns) := by
  induction turns generalizing w added with
  | nil => exact ⟨added, h⟩
  | cons x turns ih =>
    rw [after_cons]
    by_cases hx : (cs x.caller).key = k
    · by_cases hseen : x.caller ∈ seen
      · obtain ⟨added', hne, h'⟩ := h.row x hseen
        have hpos := length_pos_iff.mpr hne
        exact ih h' (by omega)
      · exact ih (h.search_taken x hx hseen hsome) hsome
    · exact ih (h.other x hx) hsome

/-- When there is none, those find nothing who look before one of them adds its row. -/
lemma Stand.after_none (h : Stand cs k 0 seen [] w) (turns : List (Turn ι)) :
    ∃ added, Stand cs k 0 (firsts seen (callers cs k turns)) added
      (w.after (fun i => (cs i).turn) turns) := by
  induction turns generalizing w seen with
  | nil => exact ⟨[], h⟩
  | cons x turns ih =>
    rw [after_cons, callers_cons]
    by_cases hx : (cs x.caller).key = k
    · rw [if_pos hx, firsts]
      by_cases hseen : x.caller ∈ seen
      · rw [if_pos hseen]
        obtain ⟨added', hne, h'⟩ := h.row x hseen
        have hpos := length_pos_iff.mpr hne
        exact h'.after_row (by omega) turns
      · rw [if_neg hseen]
        exact ih (h.search_free x hx hseen rfl)
    · rw [if_neg hx]
      exact ih (h.other x hx)

/-- The floor after turns of connections that all begin with the store `s`. -/
def floor (cs : ι → Connection) (desks : ι → Desk) (s : Store) (turns : List (Turn ι)) :
    Floor ι Stage Repository :=
  (opened s desks .search).after (fun i => (cs i).turn) turns

/-- The connections for `k` that find nothing when they look. -/
def unwarned (cs : ι → Connection) (k : Key) (s : Store) (turns : List (Turn ι)) : List ι :=
  if (rowsOf k s).isEmpty then firsts [] (callers cs k turns) else []

lemma exists_stand (cs : ι → Connection) (k : Key) (s : Store)
    (hdesks : ∀ i, (desks i).trouble = {}) (turns : List (Turn ι)) :
    ∃ added, Stand cs k (rowsOf k s).length (unwarned cs k s turns) added
      (floor cs desks s turns) := by
  have hopened : Stand cs k (rowsOf k s).length [] [] (opened s desks .search) :=
    stand_opened hdesks
  unfold unwarned
  split
  · rename_i hnone
    have hzero : (rowsOf k s).length = 0 := by rw [isEmpty_iff.mp hnone]; rfl
    rw [hzero] at hopened ⊢
    exact hopened.after_none turns
  · rename_i hsome
    apply hopened.after_row
    have hpos := length_pos_iff.mpr fun hnil => hsome (isEmpty_iff.mpr hnil)
    omega

def rank : Stage → Nat
  | .search => 1
  | .row => 0

lemma rank_turn (c : Connection) (stage next : Stage) (d d' : Desk)
    (h : run (c.turn stage) d = (.ok (.inl next), d')) : rank next < rank stage := by
  have hpart := Procedure.run_of_guarded h
  cases stage with
  | search =>
    obtain ⟨_, hnext⟩ := run_of_unlessFound hpart
    cases hnext
    decide
  | row =>
    rw [run_part_row, run_map] at hpart
    split at hpart
    · cases hpart
    · cases hpart

/-- When all connections for `k` are over, those that had found nothing have gone through. -/
lemma Stand.settled (h : Stand cs k b seen added w)
    (hended : ∀ i, (cs i).key = k → ∃ o, w.state i = .ended o) :
    (rowsOf k w.store).length = b + seen.length ∧ (∀ i ∈ seen, ∃ r, w.state i = .ended (.ok r)) ∧
      ∀ i, (cs i).key = k → i ∉ seen → w.state i = .ended (.error alreadyConnected) ∨
        w.state i = .ended (.error .severalRows) ∧ 2 ≤ b + seen.length := by
  have hall : seen ⊆ added := by
    intro i hi
    by_contra hnot
    obtain ⟨o, ho⟩ := hended i (h.own i hi)
    rw [h.waiting i hi hnot] at ho
    cases ho
  have hle := (subperm_of_subset h.once hall).length_le
  have hge := (subperm_of_subset h.addedOnce h.addedSeen).length_le
  have hrows := h.rows
  refine ⟨by omega, fun i hi => h.through i (hall hi), ?_⟩
  intro i hi hseen
  rcases h.others i hi hseen with hgoing | ⟨_, hrefused⟩
  · obtain ⟨o, ho⟩ := hended i hi
    rw [hgoing] at ho
    cases ho
  · exact hrefused

/-- One row at most, and all connections but one are refused as invalid. -/
def Unrepeated (cs : ι → Connection) (k : Key) (w : Floor ι Stage Repository) : Prop :=
  (rowsOf k w.store).length ≤ 1 ∧ ∀ i j, (cs i).key = k → (cs j).key = k → i ≠ j →
    (∃ m, w.state i = .ended (.error (.invalid m))) ∨ ∃ m, w.state j = .ended (.error (.invalid m))

/-- It is enough that all are refused but those of a list that has one at most. -/
lemma Unrepeated.of_refused {through : List ι}
    (hrows : (rowsOf k w.store).length ≤ 1) (hone : through.length ≤ 1)
    (hrefused : ∀ i, (cs i).key = k → i ∉ through → ∃ m, w.state i = .ended (.error (.invalid m))) :
    Unrepeated cs k w := by
  refine ⟨hrows, fun i j hi hj hne => ?_⟩
  by_cases hmem : i ∈ through
  · have hpos := length_pos_of_mem hmem
    obtain ⟨l, rfl⟩ := length_eq_one_iff.mp (show through.length = 1 by omega)
    refine .inr (hrefused j hj fun hmem' => ?_)
    rw [mem_singleton] at hmem hmem'
    exact hne (hmem.trans hmem'.symm)
  · exact .inl (hrefused i hi hmem)

/-- However the turns of connections are mixed: if all those for `k` have had their two turns, those
have gone through that found nothing when they looked, each with a row of its own, so that the row
is not repeated exactly if at most one of them found nothing. -/
theorem unrepeated_iff (cs : ι → Connection) (desks : ι → Desk)
    (hdesks : ∀ i, (desks i).trouble = {}) (hs : (rowsOf k s).length ≤ 1) (turns : List (Turn ι))
    (hturns : ∀ i, (cs i).key = k → 2 ≤ turns.countP (·.caller = i)) :
    (∀ i, (cs i).turn.straight 2 .search = Sum.inr <$> connect (cs i).form (.int (cs i).owner)) ∧
      (∀ i, (cs i).key = k →
        ((∃ r, (floor cs desks s turns).state i = .ended (.ok r)) ↔ i ∈ unwarned cs k s turns)) ∧
      (rowsOf k (floor cs desks s turns).store).length =
        (rowsOf k s).length + (unwarned cs k s turns).length ∧
      (Unrepeated cs k (floor cs desks s turns) ↔ (unwarned cs k s turns).length ≤ 1) := by
  obtain ⟨added, h⟩ := exists_stand cs k s hdesks turns
  obtain ⟨hrows, hthrough, hothers⟩ := h.settled fun i hi =>
    Floor.ended_of_turns (p := fun i => (cs i).turn) rank (cs i).rank_turn rfl (hturns i hi)
  refine ⟨fun i => (cs i).straight_turn, ?_, hrows, ?_, ?_⟩
  · intro i hi
    refine ⟨fun hok => ?_, hthrough i⟩
    obtain ⟨r, hr⟩ := hok
    by_contra hnot
    rcases hothers i hi hnot with hrefused | ⟨hrefused, _⟩
    · rw [hr] at hrefused
      cases hrefused
    · rw [hr] at hrefused
      cases hrefused
  · intro hunrepeated
    have hone := hunrepeated.1
    omega
  · intro hone
    have htotal : (rowsOf k s).length + (unwarned cs k s turns).length ≤ 1 := by
      unfold unwarned at hone ⊢
      split
      · rename_i hnone
        rw [if_pos hnone] at hone
        rw [List.isEmpty_iff.mp hnone, length_nil]
        omega
      · exact hs
    refine .of_refused (by omega) hone fun i hi hnot => ?_
    rcases hothers i hi hnot with hrefused | ⟨_, hseveral⟩
    · exact ⟨_, hrefused⟩
    · omega

end

def depotBody : Value :=
  .object [("name", .text "depot"), ("full_name", .text "ann/depot"), ("url", .text "u"),
    ("clone_url", .text "c"), ("provider", .text "github"), ("external_id", .text "7")]

def depot : Connection where
  body := depotBody
  form := Form.repositoryCreate.filled depotBody (by decide +kernel)
  isRead := Form.read_filled ..
  owner := 1
  ownerFits := by decide

lemma callers_depot (order : List Bool) :
    callers (fun _ => depot) depot.key (turnsOf order) = order := by
  rw [callers, map_caller_turnsOf]
  simp

/-- Asked for twice, a repository is connected twice if both look before one adds its row, and once
if the first is done when the second looks. -/
theorem connected_twice :
    let floorOf (order : List Bool) :=
      floor (fun _ => depot) (fun _ => { now := ⟨0⟩ }) {} (turnsOf order)
    ¬Unrepeated (fun _ => depot) depot.key (floorOf [true, false, true, false]) ∧
      (rowsOf depot.key (floorOf [true, false, true, false]).store).length = 2 ∧
      (∀ i, ∃ r, (floorOf [true, false, true, false]).state i = .ended (.ok r)) ∧
      Unrepeated (fun _ => depot) depot.key (floorOf [true, true, false, false]) := by
  intro floorOf
  have hunwarned (order : List Bool) :
      unwarned (fun _ => depot) depot.key {} (turnsOf order) = firsts [] order := by
    rw [unwarned, callers_depot]
    rfl
  have hrun (order : List Bool) (horder : ∀ i, 2 ≤ order.count i) :=
    unrepeated_iff (k := depot.key) (s := {}) (fun _ : Bool => depot) (fun _ => { now := ⟨0⟩ })
      (fun _ => rfl) (by decide) (turnsOf order) fun i _ => by
        rw [countP_turnsOf]
        exact horder i
  obtain ⟨_, hthrough, hrows, hmixed⟩ := hrun [true, false, true, false] (by decide)
  obtain ⟨_, _, _, hinOrder⟩ := hrun [true, true, false, false] (by decide)
  rw [hunwarned] at hrows hmixed hinOrder
  refine ⟨fun h => absurd (hmixed.mp h) (by decide), hrows, fun i => ?_, hinOrder.mpr (by decide)⟩
  apply (hthrough i rfl).mpr
  rw [hunwarned]
  cases i <;> decide

end Connection

end Repositories

end ReviewDesk
