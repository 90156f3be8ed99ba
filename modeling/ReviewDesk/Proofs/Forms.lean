import ReviewDesk.Proofs.Work

/-!
# What a form reads

An object that was read by a form has the fields of the form in their order, each as its slot reads
it. So a field that no slot has is never taken over from a request.
-/

namespace ReviewDesk.Form

open List Outcome

variable {place : List Value} {data : Fields} {v : Value}
variable {fs : Fields} {slots : List Slot} {f : Filled} {form : Form} {c : String × Value}

/-- A field is what a slot reads from an object. -/
def Fills (place : List Value) (data : Fields) (s : Slot) (f : String × Value) : Prop :=
  f.1 = s.name ∧ s.read place data = .ok (.ok f.2)

lemma both_eq_ok {α β : Type} {a : Reading α} {b : Reading β} {p : α × β}
    (h : both a b = .ok p) : a = .ok p.1 ∧ b = .ok p.2 := by
  cases a <;> cases b <;> simp [both] at h
  subst h
  exact ⟨rfl, rfl⟩

lemma readSlots_fills (h : readSlots place data slots = .ok (.ok fs)) :
    List.Forall₂ (Fills place data) slots fs := by
  induction slots generalizing fs with
  | nil =>
    simp only [readSlots, Except.ok.injEq] at h
    subst h
    exact .nil
  | cons s slots ih =>
    rw [readSlots] at h
    obtain ⟨r, hr, h⟩ := bind_eq_ok h
    obtain ⟨rs, hrs, h⟩ := bind_eq_ok h
    have hmap : (both r rs).map (fun p => (s.name, p.1) :: p.2) = .ok fs := Except.ok.inj h
    cases hb : both r rs with
    | error e => rw [hb] at hmap; cases hmap
    | ok p =>
      rw [hb] at hmap
      obtain ⟨hx, hxs⟩ := both_eq_ok hb
      cases hmap
      exact .cons ⟨rfl, by rw [hr, hx]⟩ (ih (by rw [hrs, hxs]))

lemma fills_names
    (h : List.Forall₂ (Fills place data) slots fs) : fs.map (·.1) = slots.map (·.name) := by
  induction h with
  | nil => rfl
  | cons hf _ ih => simp only [map_cons, hf.1, ih]

lemma fills_mem
    {f : String × Value} (h : List.Forall₂ (Fills place data) slots fs) (hf : f ∈ fs) :
    ∃ s ∈ slots, Fills place data s f := by
  induction h with
  | nil => cases hf
  | cons hfirst _ ih =>
    rcases mem_cons.mp hf with rfl | hf
    · exact ⟨_, mem_cons_self .., hfirst⟩
    · obtain ⟨s, hs, hfills⟩ := ih hf
      exact ⟨s, mem_cons_of_mem _ hs, hfills⟩

lemma fills_get {key : String} {s : Slot} (h : List.Forall₂ (Fills place data) slots fs)
    (hs : slots.find? (·.name == key) = some s) :
    ∃ v, Fields.get? fs key = some v ∧ s.read place data = .ok (.ok v) := by
  induction h with
  | nil => cases hs
  | @cons slot f slots fs hf _ ih =>
    simp only [Fields.get?, find?_cons] at hs ih ⊢
    rw [hf.1]
    cases hk : slot.name == key with
    | true =>
      rw [hk] at hs
      cases hs
      exact ⟨f.2, rfl, hf.2⟩
    | false =>
      rw [hk] at hs
      exact ih hs

lemma readAt_fills (h : form.readAt [] data = .ok (.ok f)) :
    List.Forall₂ (Fills [] data) form.slots f.values := by
  obtain ⟨r, hr, h⟩ := bind_eq_ok h
  cases r with
  | error es => cases h
  | ok fs =>
    cases h
    exact readSlots_fills hr

lemma readAt_of_bind
    {next : Reading Filled → Outcome Filled} (h : form.readAt [] data >>= next = .ok f)
    (herror : ∀ es, next (.error es) ≠ .ok f) (hok : ∀ g, next (.ok g) = .ok f → g = f) :
    form.readAt [] data = .ok (.ok f) := by
  obtain ⟨r, hr, h⟩ := bind_eq_ok h
  cases r with
  | error es => exact absurd h (herror es)
  | ok g => rw [hr, hok g h]

lemma read_readAt (h : form.read v = .ok f) :
    ∃ data, form.readAt [] data = .ok (.ok f) ∧ ∀ fs, v = .object fs → data = fs := by
  unfold Form.read at h
  split at h
  · rename_i fs
    exact ⟨fs, readAt_of_bind h (fun _ h => by cases h) fun _ h => by cases h; rfl,
      fun _ heq => Value.object.inj heq⟩
  · rename_i hv
    split at h
    · exact ⟨_, readAt_of_bind h (fun _ h => by cases h) fun _ h => by cases h; rfl,
        fun fs heq => absurd heq (hv fs)⟩
    · cases h

lemma read_fills (h : form.read v = .ok f) :
    ∃ data, List.Forall₂ (Fills [] data) form.slots f.values := by
  obtain ⟨data, hdata, _⟩ := read_readAt h
  exact ⟨data, readAt_fills hdata⟩

lemma read_object (h : form.read (.object data) = .ok f) :
    List.Forall₂ (Fills [] data) form.slots f.values := by
  obtain ⟨fs, hfs, heq⟩ := read_readAt h
  exact heq data rfl ▸ readAt_fills hfs

lemma values_names (h : form.read v = .ok f) (hc : c ∈ f.values) : c.1 ∈ form.slots.map (·.name) := by
  obtain ⟨data, hfills⟩ := read_fills h
  rw [← fills_names hfills]
  exact mem_map_of_mem hc

lemma changes_names (p : String → Prop) (h : form.read v = .ok f)
    (hp : ∀ key ∈ form.slots.map (·.name), p key) : ∀ c ∈ f.changes, p c.1 :=
  fun c hc => hp c.1 (values_names h (mem_filter.mp hc).1)

lemma changes_nodup (h : form.read v = .ok f)
    (hslots : (form.slots.map (·.name)).Nodup) : (f.changes.map (·.1)).Nodup := by
  obtain ⟨data, hfills⟩ := read_fills h
  rw [← fills_names hfills] at hslots
  exact hslots.sublist (filter_sublist.map _)

section

variable {name : String} {kind : Kind} {w : Value}
variable {rule : Value → Option String}

lemma read_given (nullable : Bool) (default : Option Value) (rule : Value → Option String)
    (h : Fields.get? data name = some v) (hv : v ≠ .null) :
    (Slot.mk name kind nullable default rule).read place data =
      kind.read (place ++ [.text name]) v >>= fun r =>
        .ok (r >>= checkRule (place ++ [.text name]) rule) := by
  cases v with
  | null => exact absurd rfl hv
  | _ => simp only [Slot.read, h]; rfl

lemma read_ok {nullable : Bool} {default : Option Value}
    (h : (Slot.mk name kind nullable default rule).read place data = .ok (.ok w)) :
    default = some w ∨ nullable = true ∧ w = .null ∨
      ∃ v, kind.read (place ++ [.text name]) v = .ok (.ok w) := by
  simp only [Slot.read] at h
  split at h
  · cases h
    exact .inl rfl
  · cases h
  · cases nullable with
    | false => cases h
    | true => cases h; exact .inr (.inl ⟨rfl, rfl⟩)
  · rename_i v _ _
    obtain ⟨r, hr, h⟩ := bind_eq_ok h
    obtain ⟨u, rfl, hrule⟩ := bind_eq_ok (Except.ok.inj h)
    unfold checkRule at hrule
    split at hrule
    · cases hrule
    · cases hrule
      exact .inr (.inr ⟨v, hr⟩)

lemma read_required_ok (h : (Slot.mk name kind false none rule).read place data = .ok (.ok w)) :
    ∃ v, kind.read (place ++ [.text name]) v = .ok (.ok w) := by
  rcases read_ok h with h | ⟨h, _⟩ | h
  · cases h
  · cases h
  · exact h

lemma read_need_int {n : Int} (h : Fields.get? data name = some (.int n)) :
    (need name anInt).read place data = .ok (.ok (.int n)) := by
  rw [need, read_given _ _ _ h (by simp)]
  rfl

lemma read_need_text {s : String} (h : Fields.get? data name = some (.text s)) :
    (need name aText).read place data = .ok (.ok (.text s)) := by
  rw [need, read_given _ _ _ h (by simp)]
  rfl

lemma read_may_flag_ok (h : (may name .flag).read place data = .ok (.ok w)) :
    ∃ o, w = Store.ofFlag? o := by
  rcases read_ok h with h | ⟨_, rfl⟩ | ⟨v, h⟩
  · cases h
    exact ⟨none, rfl⟩
  · exact ⟨none, rfl⟩
  · obtain ⟨b, _, hb⟩ := bind_eq_ok (Except.ok.inj h)
    cases hb
    exact ⟨some b, rfl⟩

end

lemma get_need_int (h : form.read v = .ok f)
    (name : String) (hs : form.slots.find? (·.name == name) = some (need name anInt)) :
    ∃ n, f.get name = .int n := by
  obtain ⟨data, hfills⟩ := read_fills h
  obtain ⟨w, hw, hread⟩ := fills_get hfills hs
  obtain ⟨u, hu⟩ := read_required_ok hread
  obtain ⟨r, _, hr⟩ := bind_eq_ok hu
  obtain ⟨i, _, hi⟩ := bind_eq_ok (Except.ok.inj hr)
  obtain ⟨n, _, hn⟩ := bind_eq_ok hi
  cases hn
  exact ⟨n, by rw [Filled.get, hw, Option.getD_some]⟩

/-- A kind of which every value is a text. -/
def Kind.GivesText (kind : Kind) : Prop :=
  ∀ place v w, kind.read place v = .ok (.ok w) → ∃ s, w = .text s

lemma givesText_text (least : Nat) (most : Option Nat) : (Kind.text least most).GivesText := by
  intro place v w h
  obtain ⟨s, _, h⟩ := bind_eq_ok (Except.ok.inj h)
  obtain ⟨s', _, h⟩ := bind_eq_ok h
  cases h
  exact ⟨s', rfl⟩

lemma givesText_email : Kind.email.GivesText := by
  intro place v w h
  obtain ⟨s, _, h⟩ := bind_eq_ok (Except.ok.inj h)
  cases h
  exact ⟨s, rfl⟩

lemma get_need_text {kind : Kind}
    {rule : Value → Option String} (h : form.read v = .ok f) (name : String)
    (hs : form.slots.find? (·.name == name) = some (.mk name kind false none rule))
    (hkind : kind.GivesText) : ∃ s, f.get name = .text s := by
  obtain ⟨data, hfills⟩ := read_fills h
  obtain ⟨w, hw, hread⟩ := fills_get hfills hs
  obtain ⟨u, hu⟩ := read_required_ok hread
  rw [Filled.get, hw, Option.getD_some]
  exact hkind _ _ _ hu

def filled (form : Form) (body : Value) (h : (form.read body).toOption.isSome = true) : Filled :=
  (form.read body).toOption.get h

lemma read_filled (form : Form) (body : Value) (h : (form.read body).toOption.isSome = true) :
    form.read body = .ok (form.filled body h) := by
  unfold filled
  revert h
  cases form.read body with
  | ok f => intro h; rfl
  | error e => intro h; cases h

end ReviewDesk.Form
