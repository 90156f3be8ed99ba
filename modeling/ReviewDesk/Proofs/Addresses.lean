import ReviewDesk.Proofs.SignIns

/-!
# Addresses and names of users

The calls about accounts keep addresses in small letters, and addresses and names apart. So an
address is found in any case, and nobody else can take it. A call that raises leaves the users as
they were, except if a row that was written cannot be read again. A newcomer gets the first name of a
list of candidates that nobody has.
-/

namespace ReviewDesk

open List

variable {n : Nat} {s s' : Store} {u w : User} {id : Value} {d : Desk} {t : Moment}

namespace Text

variable {m : Shift}

/-! ## The table of small letters -/

namespace Shift

def image (m : Shift) (n : Nat) : Nat := Int.toNat (n + m.shift)

/-- Whether all code points that an entry moves end outside another entry. Most ranges lie apart; the
others are looked through. -/
def avoids (m m' : Shift) : Bool :=
  Nat.blt (m.image m.last) m'.first || Nat.blt m'.last (m.image m.first) ||
    (List.range (m.last + 1 - m.first)).all fun i =>
      !m.moves (m.first + i) || !m'.moves (m.image (m.first + i))

variable {m' : Shift}

lemma moves_iff : m.moves n = true ↔ m.first ≤ n ∧ n ≤ m.last ∧ (n - m.first) % m.step = 0 := by
  simp [moves, and_assoc]

lemma image_mono {k : Nat} (h : n ≤ k) : m.image n ≤ m.image k := by
  unfold image
  omega

lemma not_moves_of_avoids (h : m.avoids m' = true) (hn : m.moves n = true) :
    m'.moves (m.image n) = false := by
  obtain ⟨hfirst, hlast, _⟩ := moves_iff.mp hn
  have hlow := image_mono (m := m) hfirst
  have hhigh := image_mono (m := m) hlast
  simp only [avoids, Bool.or_eq_true, Nat.blt_eq] at h
  rcases h with (h | h) | h
  · simp only [moves, Bool.and_eq_false_iff, decide_eq_false_iff_not]
    omega
  · simp only [moves, Bool.and_eq_false_iff, decide_eq_false_iff_not]
    omega
  · obtain ⟨i, rfl⟩ := Nat.exists_eq_add_of_le hfirst
    have hmem : i ∈ List.range (m.last + 1 - m.first) := mem_range.mpr (by omega)
    have hall := all_eq_true.mp h i hmem
    simpa [hn] using hall

end Shift

lemma Shifts.apply_cases (t : Shifts) (c : Char) :
    (∃ m ∈ t, m.moves c.toNat = true ∧ t.apply c = Char.ofNat (m.image c.toNat)) ∨
      (∀ m ∈ t, m.moves c.toNat = false) ∧ t.apply c = c := by
  unfold Shifts.apply
  split
  · rename_i m hfound
    have hmoves := find?_some hfound
    exact .inl ⟨m, mem_of_find?_eq_some hfound, hmoves, rfl⟩
  · rename_i hnone
    exact .inr ⟨fun m hm => Bool.not_eq_true _ ▸ find?_eq_none.mp hnone m hm, rfl⟩

def dottedI : Shift := ⟨0x130, 0x130, 1, 0⟩

/-- What is asked of a table: it moves nothing of ASCII, its capitals become characters that neither
it nor the rule for the dotted I moves again, and it knows the capital sigma and neither of the small
ones. -/
def Shifts.settles (t : Shifts) : Bool :=
  (t.all fun m => Nat.ble 128 m.first && Nat.ble 97 (m.image m.first) &&
    (Nat.blt (m.image m.last) 0xD800 ||
      Nat.ble 0xE000 (m.image m.first) && Nat.blt (m.image m.last) 0x110000) &&
    m.avoids dottedI && t.all m.avoids) &&
  t.any (·.moves 0x3A3) &&
  ([0x307, 0x3C2, 0x3C3].all fun n => t.all (!·.moves n))

lemma settles_lowerShifts : lowerShifts.settles = true := by
  unfold lowerShifts Shifts.ofText tableEntries
  -- the characters of the text, without a run of the decoder
  rw [show (_ : String).toList = _ from String.toList_ofList]
  decide +kernel

/-! ## Characters that stay -/

/-- A character that lower case leaves as it is, wherever it stands. -/
structure Small (c : Char) : Prop where
  ascii : c.toNat < 128 → c.toLower = c
  dotted : c.toNat ≠ 0x130
  table : ∀ m ∈ lowerShifts, m.moves c.toNat = false

section

lemma first_lowerShifts (hm : m ∈ lowerShifts) : 128 ≤ m.first ∧ 97 ≤ m.image m.first := by
  have h := settles_lowerShifts
  simp only [Shifts.settles, Bool.and_eq_true, all_eq_true, Nat.ble_eq] at h
  have hm' := (h.1.1 m hm).1.1.1
  exact ⟨hm'.1, hm'.2⟩

lemma image_isValidChar (hm : m ∈ lowerShifts) (hn : m.moves n = true) :
    (m.image n).isValidChar := by
  have h := settles_lowerShifts
  simp only [Shifts.settles, Bool.and_eq_true, all_eq_true, Nat.ble_eq, Bool.or_eq_true,
    Nat.blt_eq] at h
  have hrange := (h.1.1 m hm).1.1.2
  obtain ⟨hfirst, hlast, _⟩ := Shift.moves_iff.mp hn
  have hlow := Shift.image_mono (m := m) hfirst
  have hhigh := Shift.image_mono (m := m) hlast
  unfold Nat.isValidChar
  omega

lemma image_avoids (hm : m ∈ lowerShifts) (hn : m.moves n = true) :
    m.image n ≠ 0x130 ∧ ∀ m' ∈ lowerShifts, m'.moves (m.image n) = false := by
  have h := settles_lowerShifts
  simp only [Shifts.settles, Bool.and_eq_true, all_eq_true] at h
  obtain ⟨⟨_, hdotted⟩, htable⟩ := h.1.1 m hm
  refine ⟨fun heq => ?_, fun m' hm' => Shift.not_moves_of_avoids (htable m' hm') hn⟩
  have hmoves := Shift.not_moves_of_avoids hdotted hn
  rw [heq] at hmoves
  exact absurd hmoves (by decide)

lemma not_moves_of_lt (hn : n < 128) (hm : m ∈ lowerShifts) : m.moves n = false := by
  have hfirst := (first_lowerShifts hm).1
  simp only [Shift.moves, Bool.and_eq_false_iff, decide_eq_false_iff_not]
  omega

end

section

variable {c : Char} {cs before : Chars}

lemma toNat_ofNat_of_isValidChar (h : n.isValidChar) : (Char.ofNat n).toNat = n := by
  rw [Char.ofNat, dif_pos h]
  rfl

lemma small_toLower (hc : c.toNat < 128) : Small c.toLower := by
  have hall : ∀ n ∈ List.range 128,
      (Char.ofNat n).toLower.toNat < 128 ∧ (Char.ofNat n).toLower.toLower = (Char.ofNat n).toLower := by
    decide +kernel
  obtain ⟨hlt, hlower⟩ := hall c.toNat (mem_range.mpr hc)
  rw [Char.ofNat_toNat] at hlt hlower
  exact ⟨fun _ => hlower, by omega, fun m hm => not_moves_of_lt hlt hm⟩

lemma small_of_mem (hn : n ∈ [0x307, 0x3C2, 0x3C3]) : Small (Char.ofNat n) := by
  have hvalid : ∀ n ∈ [0x307, 0x3C2, 0x3C3], n.isValidChar ∧ 0x130 < n := by decide
  obtain ⟨hchar, hlarge⟩ := hvalid n hn
  have htoNat := toNat_ofNat_of_isValidChar hchar
  have htable := settles_lowerShifts
  simp only [Shifts.settles, Bool.and_eq_true, all_eq_true, Bool.not_eq_true'] at htable
  exact ⟨by omega, by omega, fun m hm => htoNat.symm ▸ htable.2 n hn m hm⟩

lemma toLower_of_le (hc : 97 ≤ c.toNat) : c.toLower = c := by
  unfold Char.toLower
  refine dif_neg fun h => ?_
  have hle : c.toNat ≤ 90 := h.2
  omega

lemma small_apply (hc : 128 ≤ c.toNat) (hdotted : c.toNat ≠ 0x130) :
    Small (lowerShifts.apply c) := by
  rcases lowerShifts.apply_cases c with ⟨m, hm, hmoves, heq⟩ | ⟨hstays, heq⟩
  · have htoNat : (lowerShifts.apply c).toNat = m.image c.toNat := by
      rw [heq, toNat_ofNat_of_isValidChar (image_isValidChar hm hmoves)]
    obtain ⟨hnotDotted, htable⟩ := image_avoids hm hmoves
    have hfirst := Shift.image_mono (m := m) (Shift.moves_iff.mp hmoves).1
    have hsmall := (first_lowerShifts hm).2
    refine ⟨fun _ => toLower_of_le (by omega), by omega, fun m' hm' => ?_⟩
    rw [htoNat]
    exact htable m' hm'
  · rw [heq]
    exact ⟨fun hlt => absurd hlt (by omega), hdotted, hstays⟩

lemma small_lowerFrom : ∀ c ∈ lowerFrom before cs, Small c := by
  induction cs generalizing before with
  | nil => exact fun c hc => by cases hc
  | cons x cs ih =>
    unfold lowerFrom
    split
    · rename_i hx
      exact forall_mem_cons.mpr ⟨small_toLower hx, ih⟩
    · split
      · refine forall_mem_cons.mpr ⟨?_, ih⟩
        split
        · exact small_of_mem (by decide)
        · exact small_of_mem (by decide)
      · split
        · exact forall_mem_cons.mpr ⟨small_toLower (c := 'I') (by decide),
            forall_mem_cons.mpr ⟨small_of_mem (by decide), ih⟩⟩
        · rename_i hx _ hdotted
          exact forall_mem_cons.mpr ⟨small_apply (by omega) hdotted, ih⟩

lemma Small.ne_sigma (h : Small c) : c.toNat ≠ 0x3A3 := by
  intro heq
  have hsettles := settles_lowerShifts
  simp only [Shifts.settles, Bool.and_eq_true, any_eq_true] at hsettles
  obtain ⟨m, hm, hmoves⟩ := hsettles.1.2
  have hstays := h.table m hm
  rw [heq, hmoves] at hstays
  cases hstays

lemma Small.apply_eq (h : Small c) : lowerShifts.apply c = c := by
  rcases lowerShifts.apply_cases c with ⟨m, hm, hmoves, _⟩ | ⟨_, heq⟩
  · rw [h.table m hm] at hmoves
    cases hmoves
  · exact heq

lemma lowerFrom_of_small (hcs : ∀ c ∈ cs, Small c) : lowerFrom before cs = cs := by
  induction cs generalizing before with
  | nil => rfl
  | cons c cs ih =>
    obtain ⟨hc, hrest⟩ := forall_mem_cons.mp hcs
    unfold lowerFrom
    rw [if_neg hc.ne_sigma, if_neg hc.dotted, hc.apply_eq, ih hrest]
    split
    · rename_i hlt
      rw [hc.ascii hlt]
    · rfl

end

lemma lowered_lowered (s : String) : lowered (lowered s) = lowered s := by
  unfold lowered lower
  rw [String.toList_ofList, lowerFrom_of_small small_lowerFrom]

end Text

open Outcome Work Store Text

/-! ## Tables of users -/

namespace Store

lemma Distinct.emails (h : s.Distinct) : (s.users.map (·.email)).Nodup :=
  pairwise_map.mpr ((checkUsers_eq_ok_iff.mp h.apart).imp fun hclash =>
    (User.clash_eq_none_iff.mp hclash).1)

lemma Distinct.usernames (h : s.Distinct) : (s.users.map (·.username)).Nodup :=
  pairwise_map.mpr ((checkUsers_eq_ok_iff.mp h.apart).imp fun hclash =>
    (User.clash_eq_none_iff.mp hclash).2.1)

lemma Distinct.dropUser (hs : s.Distinct) (h : s.dropUser id = .ok s') : s'.Distinct := by
  obtain ⟨p, _, h⟩ := bind_eq_ok h
  cases h
  refine ⟨hs.numbered.sublist ((filter_sublist ..).map _), ?_⟩
  exact checkUsers_eq_ok_iff.mpr ((checkUsers_eq_ok_iff.mp hs.apart).sublist (filter_sublist ..))

/-- Distinct users whose addresses are in small letters. -/
structure Tidy (s : Store) : Prop extends Distinct s where
  lowered : ∀ u ∈ s.users, lowered u.email = u.email

lemma tidy_empty : Tidy {} := ⟨distinct_empty, fun u hu => by cases hu⟩

lemma Tidy.addUser {make : Int → Outcome User}
    (hmake : ∀ n v, make n = .ok v → v.id = n ∧ ∃ e, v.email = Text.lowered e) (hs : s.Tidy)
    (h : s.addUser make = .ok (u, s')) : s'.Tidy := by
  obtain ⟨hmade, husers, _⟩ := addUser_eq_ok h
  refine ⟨hs.toDistinct.addUser (fun n v hv => (hmake n v hv).1) h, ?_⟩
  rw [husers]
  refine forall_mem_append.mpr ⟨hs.lowered, forall_mem_singleton.mpr ?_⟩
  obtain ⟨e, he⟩ := (hmake _ u hmade).2
  rw [he, Text.lowered_lowered]

lemma Tidy.changeUser {f : User → Outcome User} (hf : ∀ u u', f u = .ok u' →
      u'.id = u.id ∧ (u'.email = u.email ∨ ∃ e, u'.email = Text.lowered e))
    (hs : s.Tidy) (h : s.changeUser id f = .ok s') : s'.Tidy := by
  refine ⟨hs.toDistinct.changeUser (fun u u' hu => (hf u u' hu).1) h, ?_⟩
  obtain ⟨q, g, _, husers, hg, _⟩ := changeUser_eq_ok h
  rw [husers]
  refine forall_mem_map.mpr fun u hu => ?_
  have hgu := hg u hu
  split at hgu
  · rcases (hf u _ hgu).2 with hsame | ⟨e, he⟩
    · rw [hsame, hs.lowered u hu]
    · rw [he, Text.lowered_lowered]
  · rw [← Except.ok.inj hgu, hs.lowered u hu]

lemma Tidy.dropUser (hs : s.Tidy) (h : s.dropUser id = .ok s') : s'.Tidy := by
  refine ⟨hs.toDistinct.dropUser h, ?_⟩
  obtain ⟨p, _, h⟩ := bind_eq_ok h
  cases h
  exact fun u hu => hs.lowered u (mem_filter.mp hu).1

end Store

/-! ## Single steps of work -/

namespace Work

variable {α : Type} {q : Store → Outcome (Option α)}

lemma run_found {found : Option α} (hd : d.fails = false) (h : q d.store = .ok found) :
    run (orElse (query q) none) d = (.ok found, d.asked) := by
  simp [orElse, query, statement, run_tryCatch, run_bind, run_get, run_set, run_ofOutcome, hd, h]

lemma run_unanswered (hd : d.fails = true) :
    run (orElse (query q) none) d = (.ok none, d.asked) := by
  simp [orElse, query, statement, run_tryCatch, run_bind, run_get, run_set, hd]

lemma run_change_commit {f : Store → Outcome Store}
    (hd : d.fails = false) (hc : d.trouble.commit = none)
    (h : f d.store = .ok s') : run (change f >>= fun _ => commit) d =
      (.ok (), { d with store := s', lasting := s', statements := d.statements + 1 }) := by
  simp [change, commit, statement, run_bind, run_get, run_set, run_ofOutcome, hd, hc, h]

lemma discard_raises {x : Work α} {e : Fault} :
    (run (discard x) d).1 = .error e ↔ (run x d).1 = .error e := by
  rw [run_discard]
  rcases run x d with ⟨_ | a, d'⟩ <;> simp

end Work

namespace Accounts

variable {a : Action}

/-! ## Runs -/

lemma Written.tidy (hs : s.Tidy) (h : Written s a s') : s'.Tidy := by
  cases h with
  | registered hform h =>
    refine hs.addUser (fun n v hv => ?_) h
    cases hv
    exact ⟨rfl, _, rfl⟩
  | rekeyed h =>
    refine hs.changeUser (fun u u' hu => ?_) h
    obtain ⟨v, hv, rfl⟩ := stamped_eq_ok hu
    cases hv
    exact ⟨rfl, .inl rfl⟩
  | touched hf h =>
    exact hs.changeUser (fun u u' hu => ⟨(hf u u' hu).2.id, (hf u u' hu).2.email⟩) h
  | visited h =>
    rcases h.joined_or_retouched with ⟨_, _, _, _, h⟩ | ⟨_, _, hf, h⟩
    · refine hs.addUser (fun n v hv => ?_) h
      obtain ⟨hid, hemail, _⟩ := newcomer_row hv
      exact ⟨hid, _, hemail⟩
    · exact hs.changeUser (fun u u' hu => ⟨(hf u u' hu).id, (hf u u' hu).email⟩) h
  | removed h => exact hs.dropUser h

lemma tidy_result (hs : s.Tidy) (d : Desk) (a : Action) : (a.work.result d s).Tidy := by
  rcases left_result d a with h | h
  · rw [h]
    exact hs
  · exact h.tidy hs

lemma tidy_after (hs : s.Tidy) (steps : List (Desk × Action)) :
    (s.after Action.work steps).Tidy :=
  after_keeps (P := Tidy) (fun _ d a h => tidy_result h d a) hs steps

/-! ## Finding an address -/

lemma withEmail_eq (hs : s.Distinct) (e : String) :
    withEmail e s = .ok (s.users.find? (·.email == lowered e)) :=
  one_filter_key hs.emails (lowered e)

lemma withEmail_of_mem (hs : s.Tidy) (hu : u ∈ s.users) {e : String}
    (he : lowered e = lowered u.email) : withEmail e s = .ok (some u) := by
  rw [withEmail_eq hs.toDistinct, he, hs.lowered u hu]
  exact congrArg Except.ok (find?_key hs.emails hu)

lemma run_findByEmail (hs : s.Distinct) (hd : d.Answers) (e : String) :
    (run (findByEmail (.text e)) (d.holding s)).1 =
      .ok (s.users.find? (·.email == lowered e)) := by
  have hrun := run_found (d := d.holding s) (hd _) (withEmail_eq hs e)
  exact congrArg Prod.fst hrun

/-! ## Taken addresses -/

/-- Work that raises and leaves the store alone. -/
def Refused {α : Type} (x : Work α) (d : Desk) (s : Store) : Prop :=
  ∃ e, (run x (d.holding s)).1 = .error e ∧ (run x (d.holding s)).2.lasting = s

section

variable {body : Value} {form : Filled} {e : String}

lemma register_refused (hs : s.Tidy) (hu : u ∈ s.users)
    (he : lowered (form.text "email") = lowered u.email) (d : Desk) :
    Refused (register form) d s := by
  unfold Refused
  have hend := at_register form (d.holding s) (d.holding_at s)
  rcases hrun : run (register form) (d.holding s) with ⟨fault | w, d'⟩ <;> rw [hrun] at hend
  · exact ⟨fault, rfl, hend⟩
  · obtain ⟨t, hadd⟩ := hend
    obtain ⟨hw, husers, hcheck⟩ := addUser_eq_ok hadd
    cases hw
    rw [husers, checkUsers_eq_ok_iff, pairwise_append] at hcheck
    have hclash := hcheck.2.2 u hu _ (mem_singleton_self _)
    have hsame : u.email = lowered (form.text "email") := by rw [he, hs.lowered u hu]
    exact absurd hsame (User.clash_eq_none_iff.mp hclash).1

lemma email_unique (hform : Form.userUpdate.read body = .ok form) {v v' : Value}
    (h : ("email", v) ∈ form.changes) (h' : ("email", v') ∈ form.changes) : v = v' := by
  have hnames := Form.changes_nodup hform (by decide)
  exact (Prod.mk.inj (eq_of_key hnames h h' rfl)).2

lemma email_of_revised (hform : Form.userUpdate.read body = .ok form)
    (hmem : ("email", .text e) ∈ form.changes)
    (h : w.setAll (cleaned form.changes) = .ok u) : u.email = lowered e := by
  refine User.setAll_email h (fun c hc hkey => ?_)
    (mem_cleaned.mpr ⟨.text e, hmem, rfl, rfl⟩)
  obtain ⟨v, hv, _, heq⟩ := mem_cleaned.mp hc
  rw [hkey] at hv heq
  rw [heq, email_unique hform hv hmem]
  rfl

section

variable (hs : s.Tidy) (hform : Form.userUpdate.read body = .ok form)
variable (hmem : ("email", .text e) ∈ form.changes) (hu : u ∈ s.users) (hw : w ∈ s.users)
variable (hne : w.id ≠ u.id) (he : lowered e = lowered u.email)
include hs hform hmem hu hw hne he

lemma not_revised : ¬Revised (.int w.id) form s s' := by
  rintro ⟨t, h⟩
  have hs' := hs.toDistinct.changeUser (stamped_id (fun _ _ => setAll_id) t) h
  obtain ⟨g, husers, hg⟩ := changeUser_int h
  obtain ⟨v, hv, hgw⟩ := stamped_eq_ok ((hg w hw).1 rfl)
  have hgu : g u = u := (hg u hu).2 (Ne.symm hne)
  have hnew : v.email = lowered e := email_of_revised hform hmem hv
  have hemail : (g w).email = (g u).email := by
    rw [hgu, ← hs.lowered u hu, ← he, hgw]
    exact hnew
  have hmap (x : User) (hx : x ∈ s.users) : g x ∈ s'.users := husers ▸ mem_map_of_mem hx
  have hsame : g w = u := (eq_of_key hs'.emails (hmap w hw) (hmap u hu) hemail).trans hgu
  refine hne ?_
  rw [← hsame, hgw]
  exact (setAll_id hv).symm

lemma update_keeps (d : Desk) : (run (update (.int w.id) form) (d.holding s)).2.lasting = s := by
  have hend := steady_update (.int w.id) form (d.holding s) (d.holding_at s).steady
  have hnever {s' : Store} : ¬Revised (.int w.id) form s s' :=
    not_revised hs hform hmem hu hw hne he
  rcases hrun : run (update (.int w.id) form) (d.holding s) with ⟨fault | found, d'⟩ <;>
    rw [hrun] at hend
  · exact hend.resolve_right fun h => hnever h.2.2
  · exact hend.1.resolve_right hnever

lemma update_refused (hd : d.Answers) (hfits : fits w.id) :
    Refused (update (.int w.id) form) d s := by
  have hkeeps := update_keeps hs hform hmem hu hw hne he d
  unfold Refused
  have hend := steady_update (.int w.id) form (d.holding s) ⟨d.holding_at s, fun _ : True => hd⟩
  rcases hrun : run (update (.int w.id) form) (d.holding s) with ⟨fault | found, d'⟩ <;>
    rw [hrun] at hend hkeeps
  · exact ⟨fault, rfl, hkeeps⟩
  · rcases hend.2 trivial with ⟨_, hnobody⟩ | hpasses
    · exact absurd (userById_of_mem hs.toDistinct hw hfits) (hnobody w)
    · have hsame := hpasses e u hmem (withEmail_of_mem hs hu he)
      rw [Value.same_int, beq_iff_eq] at hsame
      exact absurd hsame hne

end

end

/-! ## Changes that outlast a fault -/

def thirdFails (t : Moment) : Desk := { now := t, trouble := { statement := (· == 3) } }

def bioBody : Value := .object [("bio", .text "x")]

def bioForm : Filled :=
  { values := [("email", .null), ("username", .null), ("full_name", .null), ("avatar_url", .null),
      ("bio", .text "x"), ("location", .null), ("company", .null), ("website", .null),
      ("preferences", .null), ("notification_settings", .null)]
    given := ["bio"] }

lemma read_bioBody : Form.userUpdate.read bioBody = .ok bioForm := rfl

lemma changes_bioForm : bioForm.changes = [("bio", .text "x")] := rfl

section

variable {f : User → Outcome User}

lemma changeUser_eq (hs : s.Distinct) {n : Int} (hfits : fits n)
    {g : User → User} (hf : ∀ w, f w = .ok (g w))
    (hg : ∀ w, (g w).email = w.email ∧ (g w).username = w.username ∧
      ∀ p, (g w).identity p = w.identity p) : s.changeUser (.int n) f =
      .ok { s with users := s.users.map fun w => if w.id == n then g w else w } := by
  have hkeeps (w : User) : (if w.id == n then g w else w).email = w.email ∧
      (if w.id == n then g w else w).username = w.username ∧
      ∀ p, (if w.id == n then g w else w).identity p = w.identity p := by
    split
    · exact hg w
    · exact ⟨rfl, rfl, fun _ => rfl⟩
  have hcheck : checkUsers (s.users.map fun w => if w.id == n then g w else w) = .ok () := by
    refine checkUsers_eq_ok_iff.mpr (pairwise_map.mpr ?_)
    refine (checkUsers_eq_ok_iff.mp hs.apart).imp fun {v w} hclash => ?_
    rw [User.clash_eq_none_iff] at hclash ⊢
    simpa only [(hkeeps v).1, (hkeeps w).1, (hkeeps v).2.1, (hkeeps w).2.1, (hkeeps v).2.2,
      (hkeeps w).2.2] using hclash
  simp only [changeUser, parameter_int hfits, bind_ok, intIs_int]
  rw [changeWhere_eq_map _ f g s.users fun w _ => hf w, bind_ok, hcheck]
  rfl

lemma run_write (hd : d.fails = false) (hc : d.trouble.commit = none)
    (h : d.store.changeUser id (stamped f d.now) = .ok s') : run (write id f) d =
      (.ok (), { d with store := s', lasting := s', statements := d.statements + 1 }) := by
  unfold write
  rw [run_bind, show run now d = (.ok d.now, d) from rfl]
  exact run_change_commit hd hc h

/-- The row is found, the change is committed, and the row is not found again. -/
lemma run_update_thirdFails (hu : s.userById id = .ok (some u))
    (h : s.changeUser id (stamped (·.setAll bioForm.changes) t) = .ok s') :
    (run (update id bioForm) ((thirdFails t).holding s)).1 = .error rowLost ∧
      (run (update id bioForm) ((thirdFails t).holding s)).2.lasting = s' := by
  let d := (thirdFails t).holding s
  let written : Desk := { d with store := s', lasting := s', statements := 2 }
  have hfind : run (find id) d = (.ok (some u), { d with statements := 1 }) := run_found rfl hu
  have hchecked : run (checkedChanges id bioForm.changes) { d with statements := 1 } =
      (.ok bioForm.changes, { d with statements := 1 }) := rfl
  have hwrite : run (write id (·.setAll bioForm.changes)) { d with statements := 1 } =
      (.ok (), written) := run_write rfl rfl h
  have hagain : run (find id) written = (.ok none, { written with statements := 3 }) :=
    run_unanswered rfl
  have hrun : run (update id bioForm) d = (.error rowLost, { written with statements := 3 }) := by
    unfold update
    rw [run_tryCatch, run_bind, hfind]
    simp only
    rw [run_bind, hchecked]
    simp only
    rw [if_neg (by rw [changes_bioForm]; simp), run_bind, hwrite]
    simp only
    rw [run_bind, hagain]
    rfl
  exact ⟨congrArg Prod.fst hrun, congrArg (·.2.lasting) hrun⟩

lemma exists_raising_change (hs : s.Distinct) (hu : u ∈ s.users) (hfits : fits u.id) :
    ∃ (d : Desk) (a : Action), (run a.work (d.holding s)).1 = .error rowLost ∧
      (a.work.result d s).users ≠ s.users := by
  -- At another moment than that of the last change the row cannot stay the same.
  obtain ⟨t, ht⟩ : ∃ t, u.updatedAt ≠ some t := by
    by_cases hzero : u.updatedAt = some ⟨0⟩
    · exact ⟨⟨1⟩, by rw [hzero]; simp⟩
    · exact ⟨⟨0⟩, hzero⟩
  let g (w : User) : User := { w with bio := some "x", updatedAt := some t }
  have hrow (w : User) : stamped (·.setAll bioForm.changes) t w = .ok (g w) := rfl
  have hchange := changeUser_eq hs hfits hrow fun w => ⟨rfl, rfl, fun p => by cases p <;> rfl⟩
  obtain ⟨herror, hlasting⟩ := run_update_thirdFails (userById_of_mem hs hu hfits) hchange
  have hwork (d : Desk) : run (Action.call (.update (.int u.id) bioBody)).work d =
      run (discard (update (.int u.id) bioForm)) d := by
    unfold Action.work Call.work
    rw [run_bind, run_ofOutcome, read_bioBody]
  refine ⟨thirdFails t, .call (.update (.int u.id) bioBody), ?_, ?_⟩
  · rw [hwork]
    exact discard_raises.mpr herror
  · rw [result, hwork, lasting_discard, hlasting]
    intro hsame
    have hrow := map_eq_map_iff.mp (hsame.trans (map_id _).symm) u hu
    rw [if_pos (beq_self_eq_true _)] at hrow
    exact ht (congrArg User.updatedAt hrow).symm

end

/-! ## Well-kept accounts -/

/-- What the calls about accounts see to. -/
structure WellKept (s : Store) : Prop where
  lowered : ∀ u ∈ s.users, Text.lowered u.email = u.email
  emails : (s.users.map (·.email)).Nodup
  usernames : (s.users.map (·.username)).Nodup
  /-- A search by address gives the user who has it in small letters. -/
  found : ∀ (d : Desk) (e : String), d.Answers →
    (run (findByEmail (.text e)) (d.holding s)).1 =
      .ok (s.users.find? (·.email == Text.lowered e))
  /-- The address of a user cannot be registered again. -/
  registration : ∀ (d : Desk) (form : Filled), ∀ u ∈ s.users,
    Text.lowered (form.text "email") = Text.lowered u.email → Refused (register form) d s
  /-- Nor can another user be given it. At a desk that does not answer, the change may be dropped
  before the address is looked at. -/
  change : ∀ (d : Desk) (body : Value) (form : Filled) (e : String), ∀ u ∈ s.users, ∀ w ∈ s.users,
    Form.userUpdate.read body = .ok form → ("email", .text e) ∈ form.changes → w.id ≠ u.id →
    Text.lowered e = Text.lowered u.email →
    (run (update (.int w.id) form) (d.holding s)).2.lasting = s ∧
      (d.Answers → fits w.id → Refused (update (.int w.id) form) d s)
  /-- A call that raises changes nothing, unless a row was written and not found again. -/
  raises : ∀ (d : Desk) (a : Action) (e : Fault), (run a.work (d.holding s)).1 = .error e →
    d.Answers ∨ e ≠ rowLost → a.work.result d s = s
  /-- That exception can come about as soon as there is a user. -/
  exception : ∀ u ∈ s.users, fits u.id → ∃ (d : Desk) (a : Action),
    (run a.work (d.holding s)).1 = .error rowLost ∧ (a.work.result d s).users ≠ s.users

/-- After any run of calls about accounts from an empty store, at whatever desks: addresses are in
small letters, addresses and names are unique, an address is found in any case and refused to others
in any case. A call that raises leaves the users as they were if every statement is answered; if not,
a change can be kept although its call raises. -/
theorem accounts_wellKept (steps : List (Desk × Action)) :
    WellKept (Store.after Action.work {} steps) := by
  have hs : (Store.after Action.work {} steps).Tidy := tidy_after tidy_empty steps
  generalize Store.after Action.work {} steps = s at hs
  exact
    { lowered := hs.lowered
      emails := hs.emails
      usernames := hs.usernames
      found := fun d e hd => run_findByEmail hs.toDistinct hd e
      registration := fun d form u hu he => register_refused hs hu he d
      change := fun d body form e u hu w hw hform hmem hne he =>
        ⟨update_keeps hs hform hmem hu hw hne he d, update_refused hs hform hmem hu hw hne he⟩
      raises := fun d a e h hd => result_of_error hs.toDistinct h hd
      exception := fun u hu hfits => exists_raising_change hs.toDistinct hu hfits }

def annBody : Value :=
  .object [("email", .text "Ann@x.io"), ("username", .text "ann"), ("password", .text "secret-1")]

/-- The third statement of a change fails: the call raises, and the change is kept. -/
theorem bio_kept_by_raising_update :
    let s := Store.after Action.work {} [(quietDesk, .call (.register annBody))]
    let a := Action.call (.update (.int 1) bioBody)
    WellKept s ∧ s.users.map (·.bio) = [none] ∧
      (run a.work ((thirdFails ⟨60⟩).holding s)).1.isOk = false ∧
      (a.work.result (thirdFails ⟨60⟩) s).users.map (·.bio) = [some "x"] :=
  ⟨accounts_wellKept _, by decide +kernel, by decide +kernel, by decide +kernel⟩

/-! ## Names for newcomers -/

section

variable {v : Visitor} {base name : String}

/-- The names that a newcomer can get, in the order in which they are tried. -/
def candidates (base : String) : List String :=
  base :: (List.range' 1 mostEndings).map fun n : Nat => base ++ Value.intText n

def taken (s : Store) (name : String) : Bool := s.users.any (·.username == name)

lemma withUsername_eq (hs : s.Distinct) (name : String) :
    withUsername (.text name) s = .ok (s.users.find? (·.username == name)) := by
  have hfilter : (s.users.filter fun u => textIs (some u.username) (.text name)) =
      s.users.filter (·.username == name) :=
    filter_congr fun u _ => by simp [textIs, asText?, Value.plain]
  show one (s.users.filter fun u => textIs (some u.username) (.text name)) = _
  rw [hfilter]
  exact one_filter_key hs.usernames name

lemma gives_findByUsername (hs : s.Distinct) (name : String) (t : Moment) : ∃ found,
    Gives (findByUsername (.text name)) t s (.ok found) s ∧ found.isSome = taken s name := by
  refine ⟨_, (gives_query_ok (withUsername_eq hs name) t).orElse_ok none, ?_⟩
  rw [Bool.eq_iff_iff, find?_isSome, taken, any_eq_true]

lemma gives_freeFrom (hs : s.Distinct) (base : String) (t : Moment) (n count : Nat) :
    Gives (freeFrom base n count) t s (.ok (((List.range' n count).map fun n : Nat =>
      base ++ Value.intText n).find? (!taken s ·))) s := by
  induction count generalizing n with
  | zero => exact gives_pure none t s
  | succ count ih =>
    obtain ⟨found, hfound, htaken⟩ := gives_findByUsername hs (base ++ Value.intText n) t
    refine hfound.bind ?_
    rw [range'_succ, map_cons, find?_cons, ← htaken]
    cases found with
    | none => exact gives_pure _ t s
    | some u => exact ih (n + 1)

lemma gives_freeUsername (hs : s.Distinct) (t : Moment)
    (h : (candidates base).find? (!taken s ·) = some name) :
    Gives (freeUsername (.text base)) t s (.ok (.text name)) s := by
  obtain ⟨found, hfound, htaken⟩ := gives_findByUsername hs base t
  refine hfound.bind ?_
  rw [candidates, find?_cons, ← htaken] at h
  cases found with
  | none =>
    cases h
    exact gives_pure _ t s
  | some u =>
    refine (gives_freeFrom hs base t 1 mostEndings).bind ?_
    rw [show find? _ _ = some name from h]
    exact gives_pure _ t s

lemma username_newcomer {email : String} {n : Int}
    (h : v.newcomer email (.text name) t n = .ok w) : w.username = name := by
  unfold Visitor.newcomer at h
  split at h
  · cases h
  · rename_i p _
    obtain ⟨_, hname, h⟩ := bind_eq_ok h
    cases hname
    obtain ⟨_, hname, h⟩ := bind_eq_ok h
    cases hname
    iterate 4 obtain ⟨_, _, h⟩ := bind_eq_ok h
    cases h
    cases p <;> rfl

lemma username_of_clash (h : u.clash w = some "users.username") : u.username = w.username := by
  unfold User.clash at h
  grind

/-- The address of the row that is made for a visitor. -/
def Visitor.address (v : Visitor) : Outcome String :=
  if v.email.isNull then .ok (Text.lowered v.privateEmail) else v.lowerEmail

lemma gives_addVisitor {email : String} {o : Outcome User}
    (hemail : v.address = .ok email)
    (hname : Gives (freeUsername v.username) t s (.ok (.text name)) s)
    (hadd : Gives (add (addUser (v.newcomer email (.text name) t))) t s o s') :
    Gives (addVisitor v) t s o s' := by
  have hrest := hname.bind (f := fun name => do add (addUser (v.newcomer email name (← now))))
    ((gives_now t s).bind hadd)
  unfold addVisitor
  unfold Visitor.address at hemail
  split at hemail
  · cases hemail
    rw [if_pos ‹_›]
    exact hrest
  · rw [if_neg ‹_›]
    exact (gives_ok hemail t s).bind hrest

end

/-- If not all candidates for a name are taken, the first one that is free is found, and nothing is
written. So the row that is then made for a visitor is never kept out by its name. -/
theorem first_candidate_found (d : Desk) (hd : Calm d d.now d.store) (hs : d.store.Distinct)
    (base : String) (hfree : ∃ name ∈ candidates base, ∀ u ∈ d.store.users, u.username ≠ name) :
    ∃ name, (candidates base).find? (!taken d.store ·) = some name ∧
      (run (freeUsername (.text base)) d).1 = .ok (.text name) ∧
      (run (freeUsername (.text base)) d).2.store = d.store ∧
      ∀ (v : Visitor) (email : String) (w : User), v.username = .text base →
        v.address = .ok email →
        v.newcomer email (.text name) d.now (nextId (d.store.users.map (·.id))) = .ok w →
        w.username = name ∧ ((run (addVisitor v) d).1 = .ok w ∨ ∃ column, column ≠ "users.username" ∧
          (∃ u ∈ d.store.users, u.clash w = some column) ∧ (run (addVisitor v) d).1 =
            .error (.conflict ("UNIQUE constraint failed: " ++ column))) := by
  have hsome : ((candidates base).find? (!taken d.store ·)).isSome = true := by
    obtain ⟨name, hmem, hname⟩ := hfree
    exact find?_isSome.mpr ⟨name, hmem, by simpa [taken] using hname⟩
  obtain ⟨name, hfind⟩ := Option.isSome_iff_exists.mp hsome
  have huntaken : ∀ u ∈ d.store.users, u.username ≠ name := by
    simpa [taken] using find?_some hfind
  obtain ⟨d', hrun, hd'⟩ := gives_freeUsername hs d.now hfind d hd
  refine ⟨name, hfind, by rw [hrun], by rw [hrun, hd'.store], fun v email w hbase hemail hw => ?_⟩
  have hname := username_newcomer hw
  refine ⟨hname, ?_⟩
  have hfound := hbase ▸ gives_freeUsername hs d.now hfind
  have hadd := addUser_eq hs.apart hw
  cases hclash : d.store.users.findSome? (·.clash w) with
  | none =>
    rw [hclash] at hadd
    obtain ⟨_, hrun, _⟩ := gives_addVisitor hemail hfound (gives_add hadd d.now) d hd
    exact .inl (by rw [hrun])
  | some column =>
    rw [hclash] at hadd
    obtain ⟨_, hrun, _⟩ := gives_addVisitor hemail hfound (gives_add_error hadd d.now) d hd
    obtain ⟨u, hu, huw⟩ := exists_of_findSome?_eq_some hclash
    refine .inr ⟨column, ?_, ⟨u, hu, huw⟩, by rw [hrun]⟩
    rintro rfl
    exact huntaken u hu ((username_of_clash huw).trans hname)

def namesakes : Store :=
  { users := ["ann", "ann1", "ann3"].zipIdx.map fun (name, i) =>
      { id := i, email := name, username := name, password := "p", createdAt := ⟨0⟩, updatedAt := none } }

/-- The gap between the numbers is filled. -/
theorem gap_found : (candidates "ann").length = 9999 ∧
    (run (freeUsername (.text "ann")) (quietDesk.holding namesakes)).1 = .ok (.text "ann2") := by
  refine ⟨by simp [candidates, mostEndings], ?_⟩
  obtain ⟨name, hfind, hrun, _⟩ := first_candidate_found (quietDesk.holding namesakes)
    ⟨fun _ => rfl, rfl, rfl, rfl, rfl⟩ ⟨by decide, rfl⟩ "ann" ⟨"ann2", by decide +kernel, by decide +kernel⟩
  rw [hrun, show name = "ann2" from Option.some.inj (hfind.symm.trans (by decide +kernel))]

end Accounts

end ReviewDesk
