import Mathlib.Data.List.Induction
import ReviewDesk.Proofs.SignIns

/-!
# Changes of preferences at the same time

A change of what a user prefers, or is told about, takes two turns: it reads the whole column and
puts its own fields on top, and it writes the column back. So a change can report success and still
be lost.
-/

namespace ReviewDesk

open List Floor Function

variable {ι : Type} {i : ι} {news : ι → Fields} {s : Store} {n : Int}

/-!
## Writes that get lost

Callers that share a value read it in one turn and write it back, with something of their own on
top, in another. A write takes away what others have written since its caller has read, so all
writes are left exactly if nobody writes between the read and the write of another.
-/

/-- What a caller has in hand between reading a shared value and writing it back. -/
inductive Hand (ι : Type) where
  | empty
  /-- The value was read when it had the writes of `found` in it. -/
  | holds (found : List ι)
  | done

/-- Whose writes are in a shared value, and what each caller has in hand. -/
structure Trail (ι : Type) where
  left : List ι := []
  hand : ι → Hand ι := fun _ => .empty

namespace Trail

variable [DecidableEq ι] {order pre mid : List ι} {j : ι}

/-- A caller reads at its first turn and at its second writes what it read with its own on top. -/
def turn (t : Trail ι) (i : ι) : Trail ι :=
  match t.hand i with
  | .empty => { t with hand := update t.hand i (.holds t.left) }
  | .holds found => { left := found ++ [i], hand := update t.hand i .done }
  | .done => t

def of (order : List ι) : Trail ι := order.foldl turn {}

lemma of_snoc (order : List ι) (i : ι) : of (order ++ [i]) = (of order).turn i :=
  foldl_append ..

lemma hand_turn_ne (t : Trail ι) (h : i ≠ j) : (t.turn j).hand i = t.hand i := by
  unfold turn
  split
  · exact update_of_ne h ..
  · exact update_of_ne h ..
  · rfl

lemma count_split (hpre : i ∉ pre) (hmid : i ∉ mid) : (pre ++ i :: mid).count i = 1 := by
  rw [count_append, count_cons_self, count_eq_zero.mpr hpre,
    count_eq_zero.mpr hmid]

lemma count_write (hpre : i ∉ pre) (hmid : i ∉ mid) : (pre ++ i :: mid ++ [i]).count i = 2 := by
  rw [count_append, count_split hpre hmid, count_singleton_self]

lemma hand_cases (order : List ι) (i : ι) : (order.count i = 0 ∧ (of order).hand i = .empty) ∨
      (∃ pre mid, order = pre ++ i :: mid ∧ i ∉ pre ∧ i ∉ mid ∧
        (of order).hand i = .holds (of pre).left) ∨
      (2 ≤ order.count i ∧ (of order).hand i = .done) := by
  induction order using List.reverseRecOn with
  | nil => exact .inl ⟨rfl, rfl⟩
  | append_singleton order j ih =>
    rw [of_snoc]
    by_cases hij : i = j
    · subst hij
      rcases ih with ⟨hcount, hhand⟩ | ⟨pre, mid, rfl, hpre, hmid, hhand⟩ | ⟨hcount, hhand⟩
      · right; left
        refine ⟨order, [], by simp, count_eq_zero.mp hcount, by simp, ?_⟩
        rw [turn, hhand]
        exact update_self ..
      · right; right
        refine ⟨?_, ?_⟩
        · exact Nat.le_of_eq (count_write hpre hmid).symm
        · rw [turn, hhand]
          exact update_self ..
      · right; right
        refine ⟨?_, ?_⟩
        · rw [count_append]
          omega
        · rw [turn, hhand]
          exact hhand
    · have hcount : (order ++ [j]).count i = order.count i := by
        rw [count_append, count_singleton]
        simp [Ne.symm hij]
      rw [hand_turn_ne _ hij, hcount]
      rcases ih with h | ⟨pre, mid, rfl, hpre, hmid, hhand⟩ | h
      · exact .inl h
      · right; left
        refine ⟨pre, mid ++ [j], by simp, hpre, ?_, hhand⟩
        simp [hmid, hij]
      · exact .inr (.inr h)

lemma left_write (hpre : i ∉ pre) (hmid : i ∉ mid) :
    (of (pre ++ i :: mid ++ [i])).left = (of pre).left ++ [i] := by
  have hcount := count_split hpre hmid
  rw [of_snoc]
  rcases hand_cases (pre ++ i :: mid) i with ⟨hnone, _⟩ | ⟨pre', mid', horder, hpre', hmid', hhand⟩ |
    ⟨htwice, _⟩
  · omega
  · obtain ⟨rfl, _⟩ := (append_cons_inj_of_notMem hpre hmid).mp horder
    rw [turn, hhand]
  · omega

lemma left_other (h : order.count i ≠ 1) : (of (order ++ [i])).left = (of order).left := by
  rw [of_snoc]
  rcases hand_cases order i with ⟨_, hhand⟩ | ⟨pre, mid, rfl, hpre, hmid, _⟩ | ⟨_, hhand⟩
  · rw [turn, hhand]
  · exact absurd (count_split hpre hmid) h
  · rw [turn, hhand]

/-- A turn writes, or it changes nothing of what is left. -/
lemma split_or_other (order : List ι) (i : ι) :
    (∃ pre mid, order = pre ++ i :: mid ∧ i ∉ pre ∧ i ∉ mid) ∨ order.count i ≠ 1 := by
  rcases hand_cases order i with ⟨hcount, _⟩ | ⟨pre, mid, horder, hpre, hmid, _⟩ | ⟨hcount, _⟩
  · right; omega
  · exact .inl ⟨pre, mid, horder, hpre, hmid⟩
  · right; omega

lemma two_le_count_of_left (h : j ∈ (of order).left) : 2 ≤ order.count j := by
  induction hn : order.length using Nat.strongRecOn generalizing order with
  | _ n ih =>
    subst hn
    cases order using List.reverseRecOn with
    | nil => cases h
    | append_singleton order i =>
      rcases split_or_other order i with ⟨pre, mid, rfl, hpre, hmid⟩ | hcount
      · rw [left_write hpre hmid] at h
        rcases mem_append.mp h with h | h
        · have htwice := ih pre.length (by simp) h rfl
          simp only [count_append, count_cons]
          omega
        · rw [mem_singleton.mp h]
          exact Nat.le_of_eq (count_write hpre hmid).symm
      · rw [left_other hcount] at h
        have htwice := ih order.length (by simp) h rfl
        rw [count_append]
        omega

lemma left_eq_of_quiet (h : ∀ j, 2 ≤ (pre ++ mid).count j → 2 ≤ pre.count j) :
    (of (pre ++ mid)).left = (of pre).left := by
  induction mid using List.reverseRecOn with
  | nil => rw [append_nil]
  | append_singleton mid i ih =>
    have hcount : (pre ++ mid).count i ≠ 1 := by
      intro hone
      have htwice := h i (by rw [← append_assoc, count_append]; simp [hone])
      rw [count_append] at hone
      omega
    rw [← append_assoc, left_other hcount]
    apply ih
    intro j hj
    apply h j
    rw [← append_assoc, count_append]
    omega

def Full (order : List ι) : Prop := ∀ j, 2 ≤ order.count j → j ∈ (of order).left

/-- Nobody writes between the read and the write of another. -/
def Undivided (order : List ι) : Prop :=
  ∀ pre mid post i, order = pre ++ i :: (mid ++ i :: post) → i ∉ pre → i ∉ mid →
    ∀ j, 2 ≤ (pre ++ mid).count j → 2 ≤ pre.count j

/-- What is lost once does not come back. -/
lemma Full.of_snoc (h : Full (order ++ [i])) : Full order := by
  rcases split_or_other order i with ⟨pre, mid, rfl, hpre, hmid⟩ | hcount
  · have hread : ∀ j, 2 ≤ (pre ++ i :: mid).count j → j ∈ (of pre).left := by
      intro j hj
      have hleft := h j (by rw [count_append]; omega)
      rw [left_write hpre hmid] at hleft
      rcases mem_append.mp hleft with hleft | hself
      · exact hleft
      · rw [mem_singleton.mp hself, count_split hpre hmid] at hj
        omega
    intro j hj
    rw [left_eq_of_quiet fun j hj => two_le_count_of_left (hread j hj)]
    exact hread j hj
  · intro j hj
    have hleft := h j (by rw [count_append]; omega)
    rwa [left_other hcount] at hleft

lemma Full.of_append (post : List ι) (h : Full (order ++ post)) : Full order := by
  induction post using List.reverseRecOn with
  | nil => rwa [append_nil] at h
  | append_singleton post i ih =>
    rw [← append_assoc] at h
    exact ih h.of_snoc

lemma Undivided.of_append {post : List ι} (h : Undivided (order ++ post)) : Undivided order := by
  intro pre mid rest i horder hpre hmid j hj
  refine h pre mid (rest ++ post) i ?_ hpre hmid j hj
  rw [horder]
  simp

lemma full_of_undivided (h : Undivided order) : Full order := by
  -- What the last write leaves was there at its read, so the induction goes back to `pre`.
  induction hn : order.length using Nat.strongRecOn generalizing order with
  | _ n ih =>
    subst hn
    cases order using List.reverseRecOn with
    | nil => intro j hj; simp at hj
    | append_singleton order i =>
      rcases split_or_other order i with ⟨pre, mid, rfl, hpre, hmid⟩ | hcount
      · intro j hj
        rw [left_write hpre hmid, mem_append, mem_singleton]
        by_cases hji : j = i
        · exact .inr hji
        · left
          have hquiet := h pre mid [] i (by simp) hpre hmid j (by
            simpa [count_append, count_cons, Ne.symm hji] using hj)
          have hpart : Undivided pre := by
            rw [append_assoc] at h
            exact h.of_append
          exact ih pre.length (by simp) hpart rfl j hquiet
      · intro j hj
        rw [left_other hcount]
        apply ih order.length (by simp) h.of_append rfl
        by_cases hji : j = i
        · subst hji
          simp only [count_append, count_singleton_self] at hj
          omega
        · simpa [count_append, count_cons, Ne.symm hji] using hj

lemma full_iff_undivided : Full order ↔ Undivided order := by
  refine ⟨?_, full_of_undivided⟩
  rintro h pre mid post i rfl hpre hmid j hj
  have hwritten : Full (pre ++ i :: mid ++ [i]) := Full.of_append post (by simpa using h)
  have hleft := hwritten j (by
    simp only [count_append, count_cons] at hj ⊢
    omega)
  rw [left_write hpre hmid] at hleft
  rcases mem_append.mp hleft with hleft | hself
  · exact two_le_count_of_left hleft
  · rw [mem_singleton.mp hself, count_append, count_eq_zero.mpr hpre,
      count_eq_zero.mpr hmid] at hj
    omega

end Trail

open List Work Store

namespace Fields

def keys (fs : Fields) : List String := fs.map (·.1)

lemma get?_merge_of_notMem {new : Fields} {key : String} (h : key ∉ new.keys) (fs : Fields) :
    get? (fs.merge new) key = get? fs key := by
  induction new generalizing fs with
  | nil => rfl
  | cons f new ih =>
    have hne : key ≠ f.1 := fun heq => h (heq ▸ mem_cons_self ..)
    have hrest : key ∉ keys new := fun hmem => h (.tail _ hmem)
    exact (ih hrest (fs.set f.1 f.2)).trans (get?_set_ne hne f.2)

lemma get?_merge_of_mem {new : Fields} (hnew : new.keys.Nodup) {key : String} {v : Value}
    (h : (key, v) ∈ new) (fs : Fields) : get? (fs.merge new) key = some v := by
  induction new generalizing fs with
  | nil => cases h
  | cons f new ih =>
    obtain ⟨hf, hrest⟩ := nodup_cons.mp hnew
    rcases mem_cons.mp h with rfl | h
    · exact (get?_merge_of_notMem hf _).trans (get?_set_self fs key v)
    · exact ih hrest h (fs.set f.1 f.2)

def mergeAll {ι : Type} (fs : Fields) (news : ι → Fields) (callers : List ι) : Fields :=
  callers.foldl (fun fs i => fs.merge (news i)) fs

variable {callers : List ι} {key : String}

lemma mergeAll_snoc (fs : Fields) (news : ι → Fields) (callers : List ι) (i : ι) :
    mergeAll fs news (callers ++ [i]) = (mergeAll fs news callers).merge (news i) :=
  foldl_append ..

lemma get?_mergeAll_of_notMem (h : ∀ i ∈ callers, key ∉ (news i).keys) (fs : Fields) :
    get? (mergeAll fs news callers) key = get? fs key := by
  induction callers generalizing fs with
  | nil => rfl
  | cons i callers ih =>
    have hrest := ih (fun j hj => h j (.tail _ hj)) (fs.merge (news i))
    exact hrest.trans (get?_merge_of_notMem (h i (.head _)) fs)

lemma get?_mergeAll_of_mem (hnodup : ∀ i, (news i).keys.Nodup)
    (hdisjoint : ∀ i j, i ≠ j → ∀ key ∈ (news i).keys, key ∉ (news j).keys) {v : Value}
    (hi : i ∈ callers) (h : (key, v) ∈ news i) (fs : Fields) :
    get? (mergeAll fs news callers) key = some v := by
  induction callers using List.reverseRecOn with
  | nil => cases hi
  | append_singleton callers j ih =>
    rw [mergeAll_snoc]
    by_cases hij : i = j
    · subst hij
      exact get?_merge_of_mem (hnodup i) h _
    · have hmem : i ∈ callers := by
        rcases mem_append.mp hi with hi | hi
        · exact hi
        · exact absurd (mem_singleton.mp hi) hij
      rw [get?_merge_of_notMem (hdisjoint i j hij key (mem_map_of_mem h))]
      exact ih hmem

end Fields

/-! ## One change -/

namespace Accounts

/-- The columns that are changed field by field. -/
inductive Column where
  | preferences
  | notifications

namespace Column

variable (c : Column) (id new : Value)

def get : Column → User → Value
  | preferences, u => u.preferences
  | notifications, u => u.notificationSettings

def set : Column → User → Value → User
  | preferences, u, v => { u with preferences := v }
  | notifications, u, v => { u with notificationSettings := v }

def call : Column → Value → Value → Work Bool
  | preferences => setPreferences
  | notifications => setNotifications

inductive Stage where
  | reads
  | writes (v : Value)

def part : Procedure Stage Bool
  | .reads => do
    match ← find id with
    | none => return .inr false
    | some u => return .inl (.writes (← ofOutcome (merged (c.get u) new)))
  | .writes v => do
    write id fun u => .ok (c.set u v)
    return .inr true

def turn : Procedure Stage Bool :=
  (c.part id new).guarded fun _ => do
    rollback
    return false

lemma straight_turn : (c.turn id new).straight 2 .reads = Sum.inr <$> c.call id new := by
  have hpart : (c.part id new).straight 2 .reads = Sum.inr <$> (do
      match ← find id with
      | none => return false
      | some u =>
        let v ← ofOutcome (merged (c.get u) new)
        write id fun u => .ok (c.set u v)
        return true) := by
    simp only [Procedure.straight_succ, part, bind_assoc, map_bind]
    congr 1
    funext found
    cases found with
    | none => simp
    | some u => simp
  rw [turn, Procedure.straight_guarded, hpart]
  cases c with
  | preferences => rw [call, setPreferences, mergeInto, map_tryCatch]; rfl
  | notifications => rw [call, setNotifications, mergeInto, map_tryCatch]; rfl

section

variable {c : Column} {s' : Store} {v : Value} {fs new : Fields}

/-- What a turn can do to the store `s`: a change that fails says so and leaves nothing behind. -/
inductive Leads (c : Column) (id new : Value) (s : Store) : Stage → Stage ⊕ Bool → Store → Prop
  | read {u : User} {v : Value} (found : s.userById id = .ok (some u))
    (value : merged (c.get u) new = .ok v) : Leads c id new s .reads (.inl (.writes v)) s
  | written {v : Value} {t : Moment} {s' : Store}
    (change : s.changeUser id (stamped (fun u => .ok (c.set u v)) t) = .ok s') :
    Leads c id new s (.writes v) (.inr true) s'
  | failed (stage : Stage) : Leads c id new s stage (.inr false) s

lemma ends_write (id : Value) (f : User → Outcome User) (s : Store) : Ends (At s) (write id f)
      (fun _ d => ∃ s', At s' d ∧ ∃ t, s.changeUser id (stamped f t) = .ok s') (Lasts s) :=
  ends_now.bind fun t => (ends_change_commit _).imp fun _ _ ⟨s', hd, h⟩ => ⟨s', hd, t, h⟩

lemma ends_turn (c : Column) (id new : Value) (s : Store) (stage : Stage) :
    Ends (At s) (c.turn id new stage) (fun r d => c.Leads id new s stage r d.lasting)
      (fun _ _ => False) := by
  have hpart : Ends (At s) (c.part id new stage) (fun r d => c.Leads id new s stage r d.lasting)
      (Lasts s) := by
    cases stage with
    | reads =>
      refine ends_bind_found (ends_pure fun d hd => ?_) fun u hfound => ?_
      · rw [hd.lasting]
        exact .failed .reads
      · refine ends_ofOutcome_bind (fun _ d hd => hd.lasting) fun v hv => ?_
        refine ends_pure fun d hd => ?_
        rw [hd.lasting]
        exact .read hfound hv
    | writes v =>
      refine (ends_write id _ s).bind fun _ => Ends.exists fun s' => ?_
      refine ends_pure fun d hd => ?_
      obtain ⟨hd, t, hchange⟩ := hd
      rw [hd.lasting]
      exact .written hchange
  refine hpart.tryCatch fun e => Ends.map (ends_rollback.bind fun _ => ends_pure fun d hd => ?_)
  rw [hd.lasting]
  exact .failed stage

lemma run_turn (c : Column) (id new : Value) (stage : Stage) {d : Desk} (hd : At s d) :
    ∃ r d', run (c.turn id new stage) d = (.ok r, d') ∧ c.Leads id new s stage r d'.lasting := by
  have hends := c.ends_turn id new s stage d hd
  rcases hrun : run (c.turn id new stage) d with ⟨e | r, d'⟩
  · rw [hrun] at hends
    exact hends.elim
  · rw [hrun] at hends
    exact ⟨r, d', rfl, hends⟩

/-- The column of the user `n` holds the fields `fs`. -/
def Holds (c : Column) (n : Int) (s : Store) (fs : Fields) : Prop :=
  ∃ u ∈ s.users, u.id = n ∧ fieldsOrNone (c.get u) = .ok fs

lemma fieldsOrNone_object (fs : Fields) : fieldsOrNone (.object fs) = .ok fs := by
  cases fs with
  | nil => rfl
  | cons f fs => rfl

/-- What a change reads from a column that holds `fs`, with its own fields on top. -/
lemma Holds.merged (hs : s.Distinct) (h : c.Holds n s fs) {u : User}
    (hu : s.userById (.int n) = .ok (some u)) (hv : Accounts.merged (c.get u) (.object new) = .ok v) :
    v = .object (fs.merge new) := by
  obtain ⟨w, hw, hid, hfs⟩ := h
  obtain ⟨hmem, hid'⟩ := userById_int hu
  obtain rfl := hs.eq_of_id hmem hw (hid'.trans hid.symm)
  rw [Accounts.merged, Outcome.bind_of_ok hfs] at hv
  exact (Except.ok.inj hv).symm

lemma Holds.changeUser (hs : s.Distinct) (h : c.Holds n s fs) {t : Moment}
    (hchange : s.changeUser (.int n) (stamped (fun u => .ok (c.set u (.object new))) t) = .ok s') :
    s'.Distinct ∧ c.Holds n s' new := by
  have hid : ∀ u u', stamped (fun u => .ok (c.set u (.object new))) t u = .ok u' → u'.id = u.id := by
    intro u u' hu
    obtain ⟨w, hw, rfl⟩ := stamped_eq_ok hu
    cases hw
    cases c <;> rfl
  refine ⟨hs.changeUser hid hchange, ?_⟩
  obtain ⟨g, husers, hg⟩ := changeUser_int hchange
  obtain ⟨u, hu, hn, _⟩ := h
  obtain ⟨w, hw, hgu⟩ := stamped_eq_ok ((hg u hu).1 hn)
  cases hw
  refine ⟨g u, husers ▸ mem_map_of_mem hu, (hid u _ ((hg u hu).1 hn)).trans hn, ?_⟩
  rw [hgu]
  cases c with
  | preferences => exact fieldsOrNone_object new
  | notifications => exact fieldsOrNone_object new

end

/-! ## Many changes -/

section

variable {c : Column} {base : Fields} {desks : ι → Desk} {s : Store} {trail : Trail ι}
variable {w : Floor ι Stage Bool}

def stateOf (base : Fields) (news : ι → Fields) (i : ι) : Hand ι → CallState Stage Bool
  | .empty => .going .reads
  | .holds found => .going (.writes (.object (base.mergeAll news (found ++ [i]))))
  | .done => .ended (.ok true)

/-- The column holds what the trail says, and so does everybody who has read it. -/
structure Follows (c : Column) (n : Int) (base : Fields) (news : ι → Fields) (trail : Trail ι)
    (w : Floor ι Stage Bool) : Prop where
  distinct : w.store.Distinct
  column : c.Holds n w.store (base.mergeAll news trail.left)
  states : ∀ i, w.state i = stateOf base news i (trail.hand i)

lemma follows_opened (hs : s.Distinct) (h : c.Holds n s base) :
    Follows c n base news {} (opened s desks .reads) where
  distinct := hs
  column := h
  states _ := rfl

variable [DecidableEq ι]

/-- What a turn puts into a hand fits the state that it leads to. -/
lemma states_left (h : ∀ i, w.state i = stateOf base news i (trail.hand i)) {hand : Hand ι}
    {done : Outcome (Stage ⊕ Bool) × Desk} (hi : .ofTurn done.1 = stateOf base news i hand) (j : ι) :
    (w.left i done).state j = stateOf base news j (Function.update trail.hand i hand j) := by
  by_cases hj : j = i
  · subst hj
    rw [state_left_self, Function.update_self]
    exact hi
  · rw [state_left_ne _ hj, Function.update_of_ne hj]
    exact h j

/-- A turn that does not fail does to the floor what it does to the trail. -/
lemma Follows.turn (h : Follows c n base news trail w) (x : Turn ι)
    (hx : (w.afterTurn (fun i => c.turn (.int n) (.object (news i))) x).state x.caller ≠
      .ended (.ok false)) : Follows c n base news (trail.turn x.caller)
      (w.afterTurn (fun i => c.turn (.int n) (.object (news i))) x) := by
  have hstate := h.states x.caller
  cases hhand : trail.hand x.caller with
  | done =>
    rw [hhand] at hstate
    rw [afterTurn_ended hstate, Trail.turn, hhand]
    exact h
  | empty =>
    rw [hhand] at hstate
    rw [afterTurn_going hstate] at hx ⊢
    obtain ⟨r, d, hrun, hleads⟩ :=
      c.run_turn (.int n) (.object (news x.caller)) .reads (w.deskFor_at x)
    rw [hrun] at hx ⊢
    generalize hlasting : d.lasting = s' at hleads
    cases hleads with
    | failed => exact absurd (state_left_self ..) hx
    | read found value =>
      obtain rfl := h.column.merged h.distinct found value
      have hstore (done : Outcome (Stage ⊕ Bool)) : (w.left x.caller (done, d)).store = w.store :=
        hlasting
      rw [Trail.turn, hhand]
      refine ⟨hstore _ ▸ h.distinct, hstore _ ▸ h.column, states_left h.states ?_⟩
      rw [← Fields.mergeAll_snoc]
      rfl
  | holds found =>
    -- The value was merged when it was read, so the writes since then are not in it.
    rw [hhand] at hstate
    rw [afterTurn_going hstate] at hx ⊢
    obtain ⟨r, d, hrun, hleads⟩ := c.run_turn (.int n) (.object (news x.caller))
      (.writes (.object (base.mergeAll news (found ++ [x.caller])))) (w.deskFor_at x)
    rw [hrun] at hx ⊢
    generalize hlasting : d.lasting = s' at hleads
    cases hleads with
    | failed => exact absurd (state_left_self ..) hx
    | written change =>
      obtain ⟨hdistinct, hcolumn⟩ := h.column.changeUser h.distinct change
      have hstore : (w.left x.caller (.ok (.inr true), d)).store = s' := hlasting
      rw [Trail.turn, hhand]
      exact ⟨hstore ▸ hdistinct, hstore ▸ hcolumn, states_left h.states rfl⟩

/-- The floor after turns of changes that all begin with the store `s`. -/
def floor (c : Column) (n : Int) (news : ι → Fields) (desks : ι → Desk) (s : Store)
    (turns : List (Turn ι)) : Floor ι Stage Bool :=
  (opened s desks .reads).after (fun i => c.turn (.int n) (.object (news i))) turns

/-- If no change has failed in the end, the floor follows the trail of the turns. -/
lemma Follows.after (h : Follows c n base news trail w) (turns : List (Turn ι))
    (hturns : ∀ i, (w.after (fun i => c.turn (.int n) (.object (news i))) turns).state i ≠
      .ended (.ok false)) : Follows c n base news ((turns.map (·.caller)).foldl Trail.turn trail)
      (w.after (fun i => c.turn (.int n) (.object (news i))) turns) := by
  induction turns generalizing w trail with
  | nil => exact h
  | cons x turns ih =>
    rw [after_cons] at hturns ⊢
    refine ih (h.turn x ?_) hturns
    intro hfailed
    exact hturns x.caller (state_after_ended hfailed turns)

/-- Every change is stored, and the fields that nobody changes are as before. -/
def AllStored (base : Fields) (news : ι → Fields) (fs : Fields) : Prop :=
  (∀ i key v, (key, v) ∈ news i → fs.get? key = some v) ∧
    ∀ key, (∀ i, key ∉ (news i).keys) → fs.get? key = base.get? key

lemma allStored_mergeAll_iff (hnodup : ∀ i, (news i).keys.Nodup)
    (hdisjoint : ∀ i j, i ≠ j → ∀ key ∈ (news i).keys, key ∉ (news j).keys) (callers : List ι) :
    AllStored base news (base.mergeAll news callers) ↔
      ∀ i, i ∉ callers → ∀ key v, (key, v) ∈ news i → base.get? key = some v := by
  have hlost : ∀ i, i ∉ callers → ∀ key v, (key, v) ∈ news i →
      (base.mergeAll news callers).get? key = base.get? key := by
    intro i hi key v hv
    apply Fields.get?_mergeAll_of_notMem
    intro j hj
    exact hdisjoint i j (fun heq => hi (heq ▸ hj)) key (mem_map_of_mem hv)
  constructor
  · intro h i hi key v hv
    rw [← hlost i hi key v hv]
    exact h.1 i key v hv
  · intro h
    refine ⟨fun i key v hv => ?_, fun key hkey => ?_⟩
    · by_cases hi : i ∈ callers
      · exact Fields.get?_mergeAll_of_mem hnodup hdisjoint hi hv base
      · rw [hlost i hi key v hv]
        exact h i hi key v hv
    · exact Fields.get?_mergeAll_of_notMem (fun i _ => hkey i) base

/-- A change that has reported success has had both of its turns. -/
lemma Follows.two_le_count {order : List ι} (h : Follows c n base news (Trail.of order) w)
    (hi : w.state i = .ended (.ok true)) : 2 ≤ order.count i := by
  have hstate := (h.states i).symm.trans hi
  rcases Trail.hand_cases order i with ⟨_, hhand⟩ | ⟨_, _, _, _, _, hhand⟩ | ⟨hcount, _⟩
  · rw [hhand] at hstate
    cases hstate
  · rw [hhand] at hstate
    cases hstate
  · exact hcount

/-- However the turns of changes of a column are mixed, if all of them report success in the end,
the column holds the fields of those whose writes are left. So all are stored exactly if those that
are lost had nothing to change, and none is lost exactly if no change writes between the turns of
another. -/
theorem all_stored_iff (c : Column) (n : Int) (news : ι → Fields) (desks : ι → Desk)
    (hs : s.Distinct) (hbase : c.Holds n s base) (hnodup : ∀ i, (news i).keys.Nodup)
    (hdisjoint : ∀ i j, i ≠ j → ∀ key ∈ (news i).keys, key ∉ (news j).keys) (turns : List (Turn ι))
    (hdone : ∀ i, (floor c n news desks s turns).state i = .ended (.ok true)) :
    (∀ i, (c.turn (.int n) (.object (news i))).straight 2 .reads =
        Sum.inr <$> c.call (.int n) (.object (news i))) ∧
      ∃ fs, c.Holds n (floor c n news desks s turns).store fs ∧
        (AllStored base news fs ↔ ∀ i, i ∉ (Trail.of (turns.map (·.caller))).left →
          ∀ key v, (key, v) ∈ news i → base.get? key = some v) ∧
        ((∀ i, i ∈ (Trail.of (turns.map (·.caller))).left) ↔
          Trail.Undivided (turns.map (·.caller))) := by
  have h :
      Follows c n base news (Trail.of (turns.map (·.caller))) (floor c n news desks s turns) := by
    refine (follows_opened hs hbase).after turns fun i hfailed => ?_
    have htrue := hdone i
    rw [floor, hfailed] at htrue
    cases htrue
  refine ⟨fun i => c.straight_turn _ _, _, h.column, ?_, ?_⟩
  · exact allStored_mergeAll_iff hnodup hdisjoint _
  · rw [← Trail.full_iff_undivided]
    constructor
    · intro hall i _
      exact hall i
    · intro hfull i
      exact hfull i (h.two_le_count (hdone i))

end

def reader : User :=
  { id := 1, email := "ann@x.io", username := "ann", password := "secret-1",
    preferences := .object [("theme", .text "light")], createdAt := ⟨0⟩, updatedAt := none }

/-- Two changes that both report success: one of them is lost if both read before one writes, and
none is if the first is done when the second reads. -/
theorem language_lost :
    let news : Bool → Fields := fun first =>
      if first then [("language", .text "fr")] else [("timezone", .text "CET")]
    let floorOf (order : List Bool) :=
      floor .preferences 1 news (fun _ => { now := ⟨0⟩ }) { users := [reader] } (turnsOf order)
    (∃ fs, Holds .preferences 1 (floorOf [true, false, true, false]).store fs ∧
        ¬AllStored [("theme", .text "light")] news fs) ∧
      ∃ fs, Holds .preferences 1 (floorOf [true, true, false, false]).store fs ∧
        AllStored [("theme", .text "light")] news fs := by
  intro news floorOf
  have hbase : Holds .preferences 1 { users := [reader] } [("theme", .text "light")] :=
    ⟨reader, mem_singleton_self _, rfl, rfl⟩
  have hdisjoint : ∀ i j, i ≠ j → ∀ key ∈ (news i).keys, key ∉ (news j).keys := by
    decide
  have hrun (order : List Bool) (hdone : ∀ i, ((floorOf order).state i).result? = some true) :=
    all_stored_iff .preferences 1 news (fun _ => { now := ⟨0⟩ }) ⟨by decide, rfl⟩ hbase
      (by intro i; cases i <;> decide) hdisjoint (turnsOf order)
      fun i => CallState.eq_of_result? (hdone i)
  obtain ⟨_, fs, hfs, hmixed, _⟩ := hrun [true, false, true, false] (by decide +kernel)
  obtain ⟨_, fs', hfs', hinOrder, _⟩ := hrun [true, true, false, false] (by decide +kernel)
  rw [map_caller_turnsOf] at hmixed hinOrder
  refine ⟨⟨fs, hfs, fun hstored => ?_⟩, fs', hfs', hinOrder.mpr fun i hi => ?_⟩
  · have hlost :=
      hmixed.mp hstored true (by decide) "language" (.text "fr") (mem_singleton_self _)
    cases hlost
  · exact absurd (by cases i <;> decide) hi

end Column

end Accounts

end ReviewDesk
