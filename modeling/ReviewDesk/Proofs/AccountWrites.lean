import ReviewDesk.Proofs.Registration

/-!
# What the calls about accounts write

A call about accounts adds a user, writes to users, takes users away, or leaves the store alone. One
that raises leaves it alone too, except that a change of a user and a sign-in read the row again
after the commit and can fail there. What follows from answered statements only is said under a
condition `φ` that stands for it.
-/

namespace ReviewDesk

open List Outcome Work Store Text

variable {u u' : User} {φ : Prop} {s s' : Store} {E : Fault → Desk → Prop} {t : Moment}

/-! ## Rows -/

namespace User

variable {v : User} {e : String} {w : Value} {changes : Fields}

lemma set_email (h : u.set "email" (.text e) = .ok u') : u'.email = e := by
  have hset : u.set "email" (.text e) = .ok { u with email := e } := rfl
  rw [hset] at h
  cases h
  rfl

lemma setAll_cons {c : String × Value} (h : u.setAll (c :: changes) = .ok u') :
    ∃ v, u.set c.1 c.2 = .ok v ∧ v.setAll changes = .ok u' :=
  bind_eq_ok h

lemma setAll_retouched (h : u.setAll changes = .ok u')
    (hpassword : ∀ c ∈ changes, c.1 ≠ "hashed_password")
    (hemail : ∀ c ∈ changes, c.1 = "email" → ∃ e, c.2 = .text (lowered e)) : u.Retouched u' := by
  refine foldlM_keeps (P := u.Retouched) h (.refl u) fun c hmem v v' hv hset => hv.trans ?_
  obtain ⟨hid, hkeep, hsame, _⟩ := set_keeps hset
  refine ⟨hid, hkeep (hpassword c hmem), ?_⟩
  by_cases hc : c.1 = "email"
  · obtain ⟨e, he⟩ := hemail c hmem hc
    rw [hc, he] at hset
    exact .inr ⟨e, set_email hset⟩
  · exact .inl (hsame hc)

lemma setAll_email (h : u.setAll changes = .ok u')
    (honly : ∀ c ∈ changes, c.1 = "email" → c.2 = .text e) (hmem : ("email", .text e) ∈ changes) :
    u'.email = e := by
  have hrest : ∀ (changes : Fields) (v : User), v.setAll changes = .ok u' →
      (∀ c ∈ changes, c.1 = "email" → c.2 = .text e) →
      v.email = e ∨ ("email", .text e) ∈ changes → u'.email = e := by
    intro changes
    induction changes with
    | nil =>
      intro v h _ hv
      cases h
      exact hv.resolve_right fun hnil => by cases hnil
    | cons c changes ih =>
      intro v h honly hv
      obtain ⟨v', hv', h⟩ := setAll_cons h
      obtain ⟨hc, honly⟩ := forall_mem_cons.mp honly
      refine ih v' h honly ?_
      by_cases hemail : c.1 = "email"
      · rw [hemail, hc hemail] at hv'
        exact .inl (set_email hv')
      · rcases hv with hv | hv
        · exact .inl (((set_keeps hv').2.2.1 hemail).trans hv)
        · rcases mem_cons.mp hv with heq | hv
          · exact absurd (congrArg Prod.fst heq).symm hemail
          · exact .inr hv
  exact hrest changes u h honly (.inr hmem)

/-- A row after a write that leaves its identities, too. -/
def Touched (u u' : User) : Prop := u.SameIdentities u' ∧ u.Retouched u'

end User

/-! ## Statements that are answered -/

/-- Every statement at the desk is answered; commits may still fail. -/
def Desk.Answers (d : Desk) : Prop := ∀ n, d.trouble.statement n = false

namespace Work

/-- A desk at a store, where statements are answered if `φ` holds. -/
structure Steady (φ : Prop) (s : Store) (d : Desk) : Prop extends At s d where
  answers : φ → d.Answers

/-- What a search gives: a row that is there, and if `φ` holds every row that is there. -/
structure Looked {α : Type} (φ : Prop) (o : Outcome (Option α)) (found : Option α) : Prop where
  sound : ∀ r, found = some r → o = .ok (some r)
  complete : φ → ∀ r, o = .ok (some r) → found = some r

lemma Looked.eq {α : Type} {o : Option α} {found : Option α} (h : Looked True (.ok o) found) :
    found = o := by
  cases o with
  | none =>
    cases found with
    | none => rfl
    | some r => cases h.sound r rfl
  | some r => exact h.complete trivial r rfl

section

variable {α : Type}

lemma At.steady {d : Desk} (hd : At s d) : Steady False s d := ⟨hd, False.elim⟩

lemma steady_statement :
    Ends (Steady φ s) statement (fun _ => Steady φ s) (fun _ d => Steady φ s d ∧ ¬φ) := by
  intro d hd
  simp only [statement, run_bind, run_get, run_set]
  cases hfails : d.trouble.statement (d.statements + 1) with
  | true =>
    refine ⟨⟨⟨hd.store, hd.lasting⟩, hd.answers⟩, fun hφ => ?_⟩
    rw [hd.answers hφ] at hfails
    cases hfails
  | false => exact ⟨⟨hd.store, hd.lasting⟩, hd.answers⟩

lemma steady_query (q : Store → Outcome α) :
    Ends (Steady φ s) (query q) (fun a d => Steady φ s d ∧ q s = .ok a)
      (fun e d => Steady φ s d ∧ (φ → q s = .error e)) := by
  refine (steady_statement.imp_error fun _ _ h => ⟨h.1, fun hφ => absurd hφ h.2⟩).bind fun _ d hd => ?_
  simp only [run_bind, run_get, run_ofOutcome]
  rw [hd.store]
  cases q s with
  | error e => exact ⟨hd, fun _ => rfl⟩
  | ok a => exact ⟨hd, rfl⟩

lemma steady_found (q : Store → Outcome (Option α)) : Ends (Steady φ s) (orElse (query q) none)
      (fun found d => Steady φ s d ∧ Looked φ (q s) found) E := by
  refine ((steady_query q).imp ?_).orElse ?_
  · rintro found d ⟨hd, hq⟩
    refine ⟨hd, fun r hr => hr ▸ hq, fun _ r hr => ?_⟩
    exact Except.ok.inj (hq.symm.trans hr)
  · rintro e d ⟨hd, hq⟩
    refine ⟨hd, fun r hr => (by cases hr), fun hφ r hr => ?_⟩
    rw [hq hφ] at hr
    cases hr

lemma steady_change_commit (f : Store → Outcome Store) :
    Ends (Steady φ s) (change f >>= fun _ => commit)
      (fun _ d => ∃ s', Steady φ s' d ∧ f s = .ok s') (Lasts s) := by
  have hchange : Ends (Steady φ s) (change f)
      (fun _ d => (d.lasting = s ∧ f s = .ok d.store) ∧ (φ → d.Answers)) (Lasts s) := by
    refine (steady_statement.imp_error fun _ _ h => h.1.lasting).bind fun _ d hd => ?_
    simp only [run_bind, run_get, run_set, run_ofOutcome]
    rw [hd.store]
    cases f s with
    | error e => exact hd.lasting
    | ok s' => exact ⟨⟨hd.lasting, rfl⟩, hd.answers⟩
  refine hchange.bind fun _ d hd => ?_
  simp only [commit, run_bind, run_get]
  cases d.trouble.commit with
  | some e => exact hd.1.1
  | none => exact ⟨d.store, ⟨⟨rfl, rfl⟩, hd.2⟩, hd.1.2⟩

end

end Work

namespace Accounts

/-! ## Searches -/

section

variable {I : Store → Prop} (id : Value)

lemma within_find : Within I (find id) := (within_query _).orElse none

lemma within_findByEmail (email : Value) : Within I (findByEmail email) := by
  unfold findByEmail
  split
  · exact (within_query _).orElse none
  · exact within_pure none

lemma within_findByUsername (name : Value) : Within I (findByUsername name) :=
  (within_query _).orElse none

lemma within_findByIdentity (provider id : Value) : Within I (findByIdentity provider id) := by
  unfold findByIdentity
  split
  · exact (within_query _).orElse none
  · exact within_pure none

lemma within_freeFrom (base : String) (n count : Nat) : Within I (freeFrom base n count) := by
  induction count generalizing n with
  | zero => exact within_pure none
  | succ count ih =>
    exact (within_findByUsername _).bind_found (within_pure _) fun _ => ih (n + 1)

lemma within_freeUsername (base : Value) : Within I (freeUsername base) := by
  refine (within_findByUsername _).bind_found (within_pure base) fun _ => ?_
  exact (within_freeFrom _ _ _).bind_found (within_get.bind fun _ => within_pure _) fun _ =>
    within_pure _

lemma within_statistics : Within I statistics := by
  refine Within.orElse ?_ []
  have hcount (q : User → Bool) : Within I (query fun s => .ok (s.users.countP q)) :=
    within_query _
  exact (hcount _).bind fun _ => (hcount _).bind fun _ => (hcount _).bind fun _ =>
    (hcount _).bind fun _ => (hcount _).bind fun _ => within_now.bind fun _ =>
      (hcount _).bind fun _ => within_pure _

lemma ends_at {α : Type} {x : Work α} (hx : Within (· = s) x) :
    Ends (At s) x (fun _ => At s) (fun _ => At s) :=
  (hx.pre fun _ hd => ⟨hd.store, hd.lasting⟩).mono (fun _ _ hd => ⟨hd.1, hd.2⟩)
    fun _ _ hd => ⟨hd.1, hd.2⟩

lemma steady_findByEmail (email : Value) : Ends (Steady φ s) (findByEmail email)
      (fun found d => Steady φ s d ∧ (∀ e, email = .text e → Looked φ (withEmail e s) found) ∧
        ∀ u, found = some u → u ∈ s.users ∧ ∃ e, email = .text e ∧ u.email = lowered e) E := by
  unfold findByEmail
  split
  · rename_i e
    refine (steady_found _).imp fun found d h => ⟨h.1, fun e' he => ?_, fun u hu => ?_⟩
    · cases he
      exact h.2
    · obtain ⟨hmem, haddress⟩ := mem_filter.mp (mem_of_one (h.2.sound u hu))
      exact ⟨hmem, e, rfl, beq_iff_eq.mp haddress⟩
  · rename_i hno
    exact ends_pure fun d hd => ⟨hd, fun e he => absurd he (hno e), fun u hu => by cases hu⟩

lemma steady_findByIdentity (provider id : Value) : Ends (Steady φ s) (findByIdentity provider id)
      (fun found d => Steady φ s d ∧ ∀ u, found = some u → ∃ p, Provider.of? provider = some p ∧
        withIdentity p id s = .ok (some u)) E := by
  unfold findByIdentity
  split
  · rename_i p hp
    exact (steady_found _).imp fun found d h => ⟨h.1, fun u hu => ⟨p, hp, h.2.sound u hu⟩⟩
  · exact ends_pure fun d hd => ⟨hd, fun u hu => by cases hu⟩

end

/-! ## Writing and reading again -/

/-- The fault of work that looks at a row which was not found again. -/
def rowLost : Fault := .noAttribute "'NoneType' object has no attribute 'email'"

section

variable {id : Value} {f : User → Outcome User}

/-- What a write makes of a user: the time of the change is noted. -/
def stamped (f : User → Outcome User) (t : Moment) (u : User) : Outcome User := do
  return { ← f u with updatedAt := some t }

lemma stamped_eq_ok (h : stamped f t u = .ok u') :
    ∃ v, f u = .ok v ∧ u' = { v with updatedAt := some t } := by
  obtain ⟨v, hv, h⟩ := bind_eq_ok h
  exact ⟨v, hv, (Except.ok.inj h).symm⟩

lemma stamped_sameIdentities (h : stamped f t u = .ok u') : ∃ v, f u = .ok v ∧ v.SameIdentities u' := by
  obtain ⟨v, hv, rfl⟩ := stamped_eq_ok h
  exact ⟨v, hv, .of_columns rfl rfl rfl rfl⟩

lemma stamped_id (hf : ∀ u u', f u = .ok u' → u'.id = u.id) (t : Moment) (u u' : User)
    (h : stamped f t u = .ok u') : u'.id = u.id := by
  obtain ⟨v, hv, rfl⟩ := stamped_eq_ok h
  exact hf u v hv

lemma userById_int {n : Int} (h : s.userById (.int n) = .ok (some u)) : u ∈ s.users ∧ u.id = n := by
  obtain ⟨_, h⟩ := bind_parameter_int h
  obtain ⟨hmem, hid⟩ := mem_filter.mp (mem_of_one h)
  rw [intIs_int, beq_iff_eq] at hid
  exact ⟨hmem, hid⟩

lemma userById_changeUser (hf : ∀ u u', f u = .ok u' → u'.id = u.id)
    (h : s.changeUser id f = .ok s') (hu : s.userById id = .ok (some u)) :
    ∃ u', s'.userById id = .ok (some u') := by
  obtain ⟨q, g, hq, husers, hg, _⟩ := changeUser_eq_ok h
  have hid : ∀ w ∈ s.users, (g w).id = w.id := by
    intro w hw
    have hgw := hg w hw
    split at hgw
    · exact hf w _ hgw
    · rw [← Except.ok.inj hgw]
  rw [userById, bind_of_ok hq] at hu
  refine ⟨g u, ?_⟩
  rw [userById, bind_of_ok hq, husers, filter_map, one_eq_some]
  rw [filter_congr fun w hw => by rw [Function.comp_apply, hid w hw], one_eq_some.mp hu]
  rfl

lemma userById_of_mem (hs : s.Distinct) (hu : u ∈ s.users) (hfits : fits u.id) :
    s.userById (.int u.id) = .ok (some u) := by
  rw [userById, bind_of_ok (parameter_int hfits)]
  simp only [intIs_int]
  exact one_eq_some.mpr (filter_key hs.numbered hu)

lemma steady_write (id : Value) (f : User → Outcome User) : Ends (Steady φ s) (write id f)
      (fun _ d => ∃ s', Steady φ s' d ∧ ∃ t, s.changeUser id (stamped f t) = .ok s') (Lasts s) :=
  ends_now.bind fun t => (steady_change_commit _).imp fun _ _ ⟨s', hd, h⟩ => ⟨s', hd, t, h⟩

/-- A search after the write can miss the row only where statements go unanswered. -/
lemma not_of_lost (hf : ∀ u u', f u = .ok u' → u'.id = u.id)
    (hwritten : ∃ t, s.changeUser id (stamped f t) = .ok s') (hu : s.userById id = .ok (some u))
    (hagain : Looked φ (s'.userById id) none) : ¬φ := by
  intro hφ
  obtain ⟨t, hchange⟩ := hwritten
  obtain ⟨w, hw⟩ := userById_changeUser (stamped_id hf t) hchange hu
  cases hagain.complete hφ w hw

lemma steady_writeFound (hu : u ∈ s.users) (hf : ∀ u u', f u = .ok u' → u'.id = u.id) :
    Ends (Steady φ s) (writeFound u f)
      (fun w d => (∃ t, s.changeUser (.int u.id) (stamped f t) = .ok d.lasting) ∧
        w ∈ d.lasting.users ∧ w.id = u.id)
      (fun e d => d.lasting = s ∨ (s.Distinct → ¬φ) ∧ e = rowLost ∧
        ∃ t, s.changeUser (.int u.id) (stamped f t) = .ok d.lasting) := by
  refine ((steady_write _ f).imp_error fun _ _ h => .inl h).bind fun _ => ?_
  refine Ends.exists fun s' => Ends.assume fun hwritten => ?_
  refine (steady_found _).bind fun found => Ends.assume fun hfound => ?_
  cases found with
  | some w =>
    exact ends_pure fun d hd => hd.lasting ▸ ⟨hwritten, userById_int (hfound.sound w rfl)⟩
  | none =>
    -- The write looked the row up by its number, so the number fits and finds it.
    have hbefore (hs : s.Distinct) : s.userById (.int u.id) = .ok (some u) := by
      obtain ⟨t, hchange⟩ := hwritten
      obtain ⟨q, _, hq, _⟩ := changeUser_eq_ok hchange
      exact userById_of_mem hs hu (parameter_int_ok hq).1
    have hlost (hs : s.Distinct) := not_of_lost hf hwritten (hbefore hs) hfound
    exact ends_throw fun d hd => .inr ⟨hlost, rfl, hd.lasting ▸ hwritten⟩

end

/-! ## Changes by a form -/

/-- The changes that a form asks for: nulls are left out, addresses are in small letters. -/
def cleaned (fs : Fields) : Fields :=
  fs.filterMap fun f =>
    if f.2.isNull then none
    else some (f.1, if f.1 == "email" then .text (lowered f.2.plain) else f.2)

section

variable {id : Value} {fs : Fields}
variable {c : String × Value} {key : String} {v : Value}

lemma mem_cleaned : c ∈ cleaned fs ↔ ∃ v, (c.1, v) ∈ fs ∧ v.isNull = false ∧
      c.2 = if c.1 == "email" then .text (lowered v.plain) else v := by
  unfold cleaned
  rw [mem_filterMap]
  constructor
  · rintro ⟨⟨key, v⟩, hmem, hc⟩
    split at hc
    · cases hc
    · rename_i hnull
      cases hc
      exact ⟨v, hmem, Bool.not_eq_true _ ▸ hnull, rfl⟩
  · rintro ⟨v, hmem, hnull, hc⟩
    refine ⟨_, hmem, ?_⟩
    rw [if_neg (by simp [hnull]), ← hc]

lemma email_of_mem_cleaned (h : c ∈ cleaned fs) (hc : c.1 = "email") :
    ∃ e, c.2 = .text (lowered e) := by
  obtain ⟨v, _, _, heq⟩ := mem_cleaned.mp h
  rw [if_pos (beq_iff_eq.mpr hc)] at heq
  exact ⟨v.plain, heq⟩

/-- At a desk that answers, an address passes the checks if it is nobody's or one's own. -/
def Passes (id : Value) (fs : Fields) (s : Store) : Prop :=
  ∀ e u, ("email", .text e) ∈ fs → withEmail e s = .ok (some u) → id.same (.int u.id) = true

lemma cleaned_cons_null (hv : v.isNull = true) : cleaned ((key, v) :: fs) = cleaned fs := by
  rw [cleaned, filterMap_cons, if_pos hv]
  rfl

lemma cleaned_cons (hv : ¬v.isNull = true) : cleaned ((key, v) :: fs) =
      (key, if key == "email" then .text (lowered v.plain) else v) :: cleaned fs := by
  rw [cleaned, filterMap_cons, if_neg hv]
  rfl

lemma passes_cons (hfirst : Passes id [(key, v)] s) (h : Passes id fs s) :
    Passes id ((key, v) :: fs) s := by
  intro e u hmem
  rcases mem_cons.mp hmem with heq | hmem
  · exact hfirst e u (mem_singleton.mpr heq)
  · exact h e u hmem

/-- Work that gives the cleaned changes of a form whose addresses pass. -/
abbrev Checks (φ : Prop) (s : Store) (id : Value) (fs : Fields) (x : Work Fields) : Prop :=
  Ends (Steady φ s) x (fun cs d => Steady φ s d ∧ cs = cleaned fs ∧ (φ → Passes id fs s)) (Lasts s)

lemma Checks.cons {x : Work Fields} (h : Checks φ s id fs x) (hnull : ¬v.isNull = true)
    (hfirst : φ → Passes id [(key, v)] s) {w : Value}
    (hw : w = if key == "email" then .text (lowered v.plain) else v) :
    Checks φ s id ((key, v) :: fs) (do return (key, w) :: (← x)) := by
  refine h.bind fun cs => Ends.assume fun hcs => ends_pure fun d hd => ⟨hd, ?_, fun hφ => ?_⟩
  · rw [cleaned_cons hnull, ← hw, hcs.1]
  · exact passes_cons (hfirst hφ) (hcs.2 hφ)

lemma steady_checkedChanges (id : Value) (fs : Fields) :
    Checks φ s id fs (checkedChanges id fs) := by
  induction fs with
  | nil => exact ends_pure fun d hd => ⟨hd, rfl, fun _ e u hmem => by cases hmem⟩
  | cons f rest ih =>
    obtain ⟨key, v⟩ := f
    unfold checkedChanges
    split
    · rename_i hnull
      refine ih.imp fun cs d h => ⟨h.1, h.2.1.trans (cleaned_cons_null hnull).symm, fun hφ => ?_⟩
      refine passes_cons (fun e u hmem => ?_) (h.2.2 hφ)
      cases mem_singleton.mp hmem
      cases hnull
    · rename_i hnull
      split
      · rename_i hkey
        refine (steady_findByEmail v).bind fun found => Ends.assume fun hfound => ?_
        -- an address passes if the search that looked for it found nobody else
        have hpass (hsame : ∀ w ∈ found, id.same (.int w.id) = true) (hφ : φ) :
            Passes id [(key, v)] s := by
          intro e u hmem hu
          cases mem_singleton.mp hmem
          exact hsame u ((hfound.1 e rfl).complete hφ u hu)
        cases found with
        | none => exact ih.cons hnull (hpass fun w hw => by cases hw) (by rw [if_pos hkey])
        | some w =>
          dsimp only
          split
          · exact ends_throw_bind fun _ hd => hd.lasting
          · rename_i hsame
            refine ih.cons hnull (hpass fun u hu => ?_) (by rw [if_pos hkey])
            cases hu
            simpa using hsame
      · rename_i hkey
        have hmore : Checks φ s id ((key, v) :: rest) _ := ih.cons hnull (fun _ e u hmem => by
          cases mem_singleton.mp hmem
          exact absurd rfl hkey) (by rw [if_neg hkey])
        split
        · refine (steady_found _).bind fun found => Ends.assume fun _ => ?_
          cases found with
          | none => exact hmore
          | some w =>
            dsimp only
            split
            · exact ends_throw_bind fun _ hd => hd.lasting
            · exact hmore
        · exact hmore

def Revised (id : Value) (form : Filled) (s s' : Store) : Prop :=
  ∃ t, s.changeUser id (stamped (·.setAll (cleaned form.changes)) t) = .ok s'

lemma setAll_id {changes : Fields} (h : u.setAll changes = .ok u') : u'.id = u.id :=
  foldlM_keeps (P := fun v => v.id = u.id) h rfl fun _ _ _ _ hv hset =>
    (User.set_keeps hset).1.trans hv

/-- What a change by a form leaves. Where statements are answered, it is refused if an address is
taken, and it finds the user who is there. -/
lemma steady_update (id : Value) (form : Filled) : Ends (Steady φ s) (update id form)
      (fun found d => (d.lasting = s ∨ Revised id form s d.lasting) ∧
        (φ → found = none ∧ (∀ u, s.userById id ≠ .ok (some u)) ∨ Passes id form.changes s))
      (fun e d => d.lasting = s ∨ ¬φ ∧ e = rowLost ∧ Revised id form s d.lasting) := by
  refine Ends.tryCatch (F := fun e d => d.lasting = s ∨
    ¬φ ∧ e = rowLost ∧ Revised id form s d.lasting) ?_ fun fault => ?_
  · refine (steady_found _).bind fun found => Ends.assume fun hfound => ?_
    cases found with
    | none =>
      refine ends_pure fun d hd => ⟨.inl hd.lasting, fun hφ => .inl ⟨rfl, fun u hu => ?_⟩⟩
      cases hfound.complete hφ u hu
    | some user =>
      refine ((steady_checkedChanges id form.changes).imp_error fun _ _ h => .inl h).bind
        fun changes => Ends.assume fun hchanges => ?_
      obtain ⟨rfl, hpasses⟩ := hchanges
      split
      · exact ends_pure fun d hd => ⟨.inl hd.lasting, fun hφ => .inr (hpasses hφ)⟩
      · refine ((steady_write id _).imp_error fun _ _ h => .inl h).bind fun _ => ?_
        refine Ends.exists fun s' => Ends.assume fun hwritten => ?_
        refine (steady_found _).bind fun again => Ends.assume fun hagain => ?_
        cases again with
        | some after =>
          exact ends_pure fun d hd => ⟨.inr (hd.lasting ▸ hwritten), fun hφ => .inr (hpasses hφ)⟩
        | none =>
          have hlost := not_of_lost (fun _ _ => setAll_id) hwritten (hfound.sound user rfl) hagain
          exact ends_throw fun d hd => .inr ⟨hlost, rfl, hd.lasting ▸ hwritten⟩
  · split
    · exact ends_throw fun d hd => hd
    · exact Ends.bind (R := fun _ d => d.lasting = s ∨
        ¬φ ∧ fault = rowLost ∧ Revised id form s d.lasting) (fun d hd => hd) fun _ =>
          ends_throw fun d hd => hd

end

/-! ## Registrations and sign-ins -/

section

variable {v : Visitor} {p : Provider}

lemma at_register (form : Filled) : Ends (At s) (register form)
      (fun w d => ∃ t, s.addUser (fun n => .ok (newUser form t n)) = .ok (w, d.lasting))
      (Lasts s) := by
  refine Ends.tryCatch (F := fun _ => At s) ?_ fun fault => ?_
  · have hadd : Ends (At s) (do
        let t ← now
        add (Store.addUser fun n => .ok (newUser form t n)))
        (fun w d => ∃ t, s.addUser (fun n => .ok (newUser form t n)) = .ok (w, d.lasting))
        (fun _ => At s) := by
      refine ends_now.bind fun t => (ends_add _).imp ?_
      rintro w d ⟨s', hd, h⟩
      exact ⟨t, hd.lasting ▸ h⟩
    refine (ends_at (within_findByEmail _)).bind fun found => ?_
    split
    · exact ends_throw_bind fun _ hd => hd
    · refine (ends_at (within_findByUsername _)).bind fun found => ?_
      split
      · exact ends_throw_bind fun _ hd => hd
      · exact hadd
  · exact Ends.bind (R := fun _ d => d.lasting = s) (fun d hd => hd.lasting) fun _ =>
      ends_throw fun d hd => hd

lemma refreshed_touched (h : v.refreshed t u = .ok u') : u.Touched u' := by
  obtain ⟨_, _, h⟩ := bind_eq_ok h
  obtain ⟨_, _, h⟩ := bind_eq_ok h
  split at h
  · obtain ⟨e, he, h⟩ := bind_eq_ok h
    obtain ⟨_, _, h⟩ := bind_eq_ok h
    cases h
    cases he
    exact ⟨.of_columns rfl rfl rfl rfl, rfl, rfl, .inl rfl⟩
  · obtain ⟨e, he, h⟩ := bind_eq_ok h
    obtain ⟨_, _, h⟩ := bind_eq_ok h
    obtain ⟨e', _, he⟩ := bind_eq_ok he
    cases h
    cases he
    exact ⟨.of_columns rfl rfl rfl rfl, rfl, rfl, .inr ⟨e', rfl⟩⟩

lemma linked_row (h : v.linked t u = .ok u') : u.Retouched u' ∧
      ∃ p j, Provider.of? v.provider = some p ∧ textColumn v.identity = .ok j ∧
        ∀ q, u'.identity q = if q = p then j else u.identity q := by
  unfold Visitor.linked at h
  split at h
  · cases h
  · rename_i p hp
    obtain ⟨j, hj, h⟩ := bind_eq_ok h
    obtain ⟨_, _, h⟩ := bind_eq_ok h
    obtain ⟨_, _, h⟩ := bind_eq_ok h
    cases h
    refine ⟨by cases p <;> exact ⟨rfl, rfl, .inl rfl⟩, p, j, hp, hj, fun q => ?_⟩
    rw [← User.identity_setIdentity]
    cases q <;> rfl

/-- The password that a visitor gets who is not known yet. -/
def Visitor.password (v : Visitor) : String := "oauth_" ++ v.identity.plain ++ "_" ++ v.provider.plain

lemma newcomer_row {email : String} {name : Value} {n : Int}
    (h : v.newcomer email name t n = .ok u) :
    u.id = n ∧ u.email = email ∧ u.password = v.password ∧
      ∃ p j, Provider.of? v.provider = some p ∧ textColumn v.identity = .ok j ∧ u.identity p = j := by
  unfold Visitor.newcomer at h
  split at h
  · cases h
  · rename_i p hp
    iterate 5 obtain ⟨_, _, h⟩ := bind_eq_ok h
    obtain ⟨j, hj, h⟩ := bind_eq_ok h
    cases h
    cases p <;> exact ⟨rfl, rfl, rfl, _, j, hp, hj, rfl⟩

lemma mem_of_withIdentity {id : Value} (h : withIdentity p id s = .ok (some u)) : u ∈ s.users := by
  obtain ⟨_, _, h⟩ := bind_eq_ok h
  exact (mem_filter.mp (mem_of_one h)).1

/-- What a sign-in writes, and the number of the user whom it signs in. -/
inductive Visited (v : Visitor) (s : Store) : Store → Int → Prop
  | joined {email : String} {name : Value} {t : Moment} {u : User} {s' : Store}
      (h : s.addUser (v.newcomer (lowered email) name t) = .ok (u, s')) : Visited v s s' u.id
  | refreshed {p : Provider} {u : User} {t t' : Moment} {s' : Store}
      (hp : Provider.of? v.provider = some p) (hu : withIdentity p v.identity s = .ok (some u))
      (h : s.changeUser (.int u.id) (stamped (v.refreshed t) t') = .ok s') : Visited v s s' u.id
  | linked {u : User} {t t' : Moment} {s' : Store} (hu : u ∈ s.users)
      (haddress : ∃ e, v.email = .text e ∧ u.email = lowered e)
      (h : s.changeUser (.int u.id) (stamped (v.linked t) t') = .ok s') : Visited v s s' u.id

lemma ends_addVisitor (v : Visitor) : Ends (At s) (addVisitor v)
      (fun w d => Visited v s d.lasting w.id ∧ w ∈ d.lasting.users) (Lasts s) := by
  have hadd (email : String) : Ends (At s)
      (do let username ← freeUsername v.username
          let t ← now
          add (Store.addUser (v.newcomer (lowered email) username t)))
      (fun w d => Visited v s d.lasting w.id ∧ w ∈ d.lasting.users) (Lasts s) := by
    refine ((ends_at (within_freeUsername _)).imp_error fun _ _ h => h.lasting).bind fun name => ?_
    refine ends_now.bind fun t => (ends_add _).mono ?_ fun _ _ h => h.lasting
    rintro w d ⟨s', hd, h⟩
    rw [← hd.lasting] at h
    exact ⟨.joined h, (addUser_eq_ok h).2.1 ▸ mem_append_right _ (mem_singleton_self w)⟩
  unfold addVisitor
  split
  · exact (ends_pure (Q := fun e d => e = lowered v.privateEmail ∧ At s d)
      fun _ hd => ⟨rfl, hd⟩).bind fun e d hd => hd.1 ▸ hadd v.privateEmail d hd.2
  · refine ends_ofOutcome_bind (fun _ _ h => h.lasting) fun e he => ?_
    obtain ⟨e', _, heq⟩ := bind_eq_ok he
    cases heq
    exact hadd e'

/-- A desk where a sign-in has written and cannot find the row again. -/
def Missed (φ : Prop) (v : Visitor) (s : Store) (e : Fault) (d : Desk) : Prop :=
  d.lasting = s ∨ (s.Distinct → ¬φ) ∧ e = rowLost ∧ ∃ n, Visited v s d.lasting n

lemma visited_writeFound {f : User → Outcome User} (hu : u ∈ s.users)
    (hf : ∀ u u', f u = .ok u' → u'.id = u.id)
    (hvisit : ∀ t s', s.changeUser (.int u.id) (stamped f t) = .ok s' → Visited v s s' u.id) :
    Ends (Steady φ s) (writeFound u f)
      (fun w d => Visited v s d.lasting w.id ∧ w ∈ d.lasting.users) (Missed φ v s) := by
  refine (steady_writeFound hu hf).mono ?_ ?_
  · rintro w d ⟨⟨t, h⟩, hw, hid⟩
    exact ⟨hid ▸ hvisit t _ h, hw⟩
  · rintro e d (h | ⟨hφ, he, t, h⟩)
    · exact .inl h
    · exact .inr ⟨hφ, he, u.id, hvisit t _ h⟩

lemma steady_signIn (v : Visitor) : Ends (Steady φ s) (signIn v)
      (fun w d => Visited v s d.lasting w.id ∧ w ∈ d.lasting.users) (Missed φ v s) := by
  refine Ends.tryCatch (F := Missed φ v s) ?_ fun fault d hd => hd
  refine (steady_findByIdentity _ _).bind fun found => Ends.assume fun hfound => ?_
  cases found with
  | some u =>
    obtain ⟨p, hp, hu⟩ := hfound u rfl
    exact ends_now.bind fun t => visited_writeFound (mem_of_withIdentity hu)
      (fun _ _ h => (refreshed_touched h).1.id) fun _ _ => .refreshed hp hu
  | none =>
    refine (steady_findByEmail _).bind fun found => Ends.assume fun hfound => ?_
    cases found with
    | some u =>
      obtain ⟨hu, haddress⟩ := hfound.2 u rfl
      exact ends_now.bind fun t => visited_writeFound hu (fun _ _ h => (linked_row h).1.id)
        fun _ _ => .linked hu haddress
    | none => exact ((ends_addVisitor v).pre fun _ hd => hd.toAt).imp_error fun _ _ h => .inl h

end

/-! ## Calls -/

/-- A call about accounts other than a removal. -/
inductive Call where
  | register (body : Value)
  | find (id : Value)
  | findByEmail (email : Value)
  | findByUsername (name : Value)
  | findByIdentity (provider id : Value)
  | update (id body : Value)
  | setPassword (id password : Value)
  | stampLogin (id : Value)
  | authenticate (name password : Value)
  | signIn (v : Visitor)
  | setActive (id : Value) (active : Bool)
  | verify (id : Value)
  | list (f : Filter) (skip limit column : Value) (down : Bool)
  | count (f : Filter)
  | setPreferences (id new : Value)
  | setNotifications (id new : Value)
  | statistics

namespace Call

/-- The work of a call. Bodies are read by their forms. -/
def work : Call → Work Unit
  | register body => do discard (Accounts.register (← ofOutcome (Form.userCreate.read body)))
  | find id => discard (Accounts.find id)
  | findByEmail email => discard (Accounts.findByEmail email)
  | findByUsername name => discard (Accounts.findByUsername name)
  | findByIdentity provider id => discard (Accounts.findByIdentity provider id)
  | update id body => do discard (Accounts.update id (← ofOutcome (Form.userUpdate.read body)))
  | setPassword id password => discard (Accounts.setPassword id password)
  | stampLogin id => discard (Accounts.stampLogin id)
  | authenticate name password => discard (Accounts.authenticate name password)
  | signIn v => discard (Accounts.signIn v)
  | setActive id active => discard (Accounts.setActive id active)
  | verify id => discard (Accounts.verify id)
  | list f skip limit column down => discard (Accounts.list f skip limit column down)
  | count f => discard (Accounts.count f)
  | setPreferences id new => discard (Accounts.setPreferences id new)
  | setNotifications id new => discard (Accounts.setNotifications id new)
  | statistics => discard Accounts.statistics

end Call

inductive Action where
  | call (c : Call)
  | remove (id : Value)

namespace Action

def work : Action → Work Unit
  | call c => c.work
  | remove id => discard (Accounts.remove id)

end Action

lemma stamped_retouched {f : User → Outcome User} (hf : ∀ u u', f u = .ok u' → u.Retouched u')
    (t : Moment) (u u' : User) (h : stamped f t u = .ok u') : u.Retouched u' := by
  obtain ⟨v, hv, rfl⟩ := stamped_eq_ok h
  exact (hf u v hv).trans ⟨rfl, rfl, .inl rfl⟩

lemma stamped_touched {f : User → Outcome User} (hf : ∀ u u', f u = .ok u' → u.Touched u')
    (t : Moment) (u u' : User) (h : stamped f t u = .ok u') : u.Touched u' := by
  refine ⟨?_, stamped_retouched (fun u u' hu => (hf u u' hu).2) t u u' h⟩
  obtain ⟨v, hv, rfl⟩ := stamped_eq_ok h
  exact (hf u v hv).1.trans (.of_columns rfl rfl rfl rfl)

/-- A sign-in adds a user, or it changes one and leaves the password. -/
lemma Visited.joined_or_retouched {n : Int} (h : Visited v s s' n) :
    (∃ email name t u, s.addUser (v.newcomer (lowered email) name t) = .ok (u, s')) ∨
      ∃ id f, (∀ u u', f u = .ok u' → u.Retouched u') ∧ s.changeUser id f = .ok s' := by
  cases h with
  | joined h => exact .inl ⟨_, _, _, _, h⟩
  | refreshed _ _ h =>
    exact .inr ⟨_, _, stamped_retouched (fun _ _ hu => (refreshed_touched hu).2) _, h⟩
  | linked _ _ h => exact .inr ⟨_, _, stamped_retouched (fun _ _ hu => (linked_row hu).1) _, h⟩

lemma revised_row {form : Filled} {body : Value}
    (hform : Form.userUpdate.read body = .ok form)
    (h : u.setAll (cleaned form.changes) = .ok u') : u.Touched u' := by
  have hnames {c : String × Value} (hc : c ∈ cleaned form.changes) :
      c.1 ≠ "hashed_password" ∧ c.1 ∉ User.identityColumns := by
    obtain ⟨v, hmem, _⟩ := mem_cleaned.mp hc
    exact Form.changes_names (fun key => key ≠ "hashed_password" ∧ key ∉ User.identityColumns) hform
      (by decide) (c.1, v) hmem
  have hsame : u.SameIdentities u' := foldlM_keeps h (.refl u) fun c hmem _ _ hv hset =>
    hv.trans ((User.set_keeps hset).2.2.2 (hnames hmem).2)
  exact ⟨hsame, User.setAll_retouched h (fun c hc => (hnames hc).1) fun c => email_of_mem_cleaned⟩

/-- What a call can write to the table of users. -/
inductive Written (s : Store) : Action → Store → Prop
  | registered {body : Value} {form : Filled} {t : Moment} {u : User} {s' : Store}
      (hform : Form.userCreate.read body = .ok form)
      (h : s.addUser (fun n => .ok (newUser form t n)) = .ok (u, s')) :
      Written s (.call (.register body)) s'
  | rekeyed {id : Value} {p : String} {t : Moment} {s' : Store}
      (h : s.changeUser id (stamped (fun u => .ok { u with password := p }) t) = .ok s') :
      Written s (.call (.setPassword id (.text p))) s'
  | touched {a : Action} {id : Value} {f : User → Outcome User} {s' : Store}
      (hf : ∀ u u', f u = .ok u' → u.Touched u') (h : s.changeUser id f = .ok s') : Written s a s'
  | visited {v : Visitor} {n : Int} {s' : Store} (h : Visited v s s' n) :
      Written s (.call (.signIn v)) s'
  | removed {id : Value} {s' : Store} (h : s.dropUser id = .ok s') : Written s (.remove id) s'

def Left (s : Store) (a : Action) (d : Desk) : Prop := d.lasting = s ∨ Written s a d.lasting

/-- The store after a call that raises: as it was, or written if the last statement failed. -/
def Fails (φ : Prop) (s : Store) (a : Action) (e : Fault) (d : Desk) : Prop :=
  d.lasting = s ∨ (s.Distinct → ¬φ) ∧ e = rowLost ∧ Written s a d.lasting

section

variable {a : Action} {id : Value}

lemma leaves_writeAs {g : User → User} (hg : ∀ u : User, u.Touched (g u)) : Ends (At s)
      (write id fun u => .ok (g u)) (fun _ => Left s a) (Lasts s) := by
  refine ((steady_write id _).pre fun _ hd => hd.steady).imp fun _ d => ?_
  rintro ⟨s', hd, t, h⟩
  rw [← hd.lasting] at h
  refine .inr (.touched (stamped_touched (fun u u' hu => ?_) t) h)
  cases hu
  exact hg u

lemma leaves_succeeds {x : Work Unit}
    (hx : Ends (At s) x (fun _ => Left s a) (Lasts s)) :
    Ends (At s) (succeeds x) (fun _ => Left s a) E :=
  hx.succeeds fun _ h => .inl h.lasting

lemma leaves_stampLogin (id : Value) : Ends (At s) (stampLogin id) (fun _ => Left s a) E :=
  leaves_succeeds (ends_now.bind fun _ => leaves_writeAs fun _ =>
    ⟨.of_columns rfl rfl rfl rfl, rfl, rfl, .inl rfl⟩)

lemma leaves_authenticate (name password : Value) :
    Ends (At s) (authenticate name password) (fun _ => Left s a) E := by
  have hidle {x : Work (Option User)} (hx : Within (· = s) x) :
      Ends (At s) x (fun _ => Left s a) (fun _ => Left s a) :=
    (ends_at hx).mono (fun _ _ h => .inl h.lasting) fun _ _ h => .inl h.lasting
  refine Ends.orElse (F := fun _ => Left s a) ?_ fun _ _ h => h
  have hfind := ends_at (s := s) (x := findByLogin name)
    ((within_findByEmail name).bind_found (within_findByUsername name) fun _ => within_pure _)
  refine (hfind.imp_error fun _ _ h => .inl h.lasting).bind fun found => ?_
  cases found with
  | none => exact hidle (within_pure none)
  | some u =>
    dsimp only
    split
    · exact hidle (within_pure none)
    · refine ((ends_at (within_ofOutcome _)).imp_error fun _ _ h => .inl h.lasting).bind
        fun known => ?_
      split
      · exact hidle (within_pure none)
      · refine (leaves_stampLogin (a := a) _).bind fun noted => ?_
        split
        · exact ends_now.bind fun t => ends_pure fun _ h => h
        · exact ends_pure fun _ h => h

lemma leaves_mergeInto {set : User → Value → User} (id new : Value) (get : User → Value)
    (hset : ∀ (u : User) (v : Value), u.Touched (set u v)) :
    Ends (At s) (mergeInto id new get set) (fun _ => Left s a) E := by
  refine Ends.tryCatch (F := fun _ d => d.lasting = s) ?_ fun _ =>
    ends_rollback.bind fun _ => ends_pure fun _ h => .inl h.lasting
  refine ((ends_at (within_find id)).imp_error fun _ _ h => h.lasting).bind fun found => ?_
  cases found with
  | none => exact ends_pure fun _ h => .inl h.lasting
  | some u =>
    refine (ends_value _).bind fun v => ?_
    exact (leaves_writeAs fun u => hset u v).bind fun _ => ends_pure fun _ h => h

lemma at_setPassword (id : Value) (p : String) : Ends (At s) (setPassword id (.text p))
      (fun b d => b = true ∧ (∃ t, s.changeUser id
          (stamped (fun u => .ok { u with password := p }) t) = .ok d.lasting) ∨
        b = false ∧ At s d) E := by
  refine ends_answer (((steady_write id _).pre fun _ hd => hd.steady).imp fun _ d => ?_)
  rintro ⟨s', hd, t, h⟩
  exact ⟨t, hd.lasting ▸ h⟩

lemma leaves_setPassword (id password : Value) : Ends (At s) (setPassword id password)
      (fun _ => Left s (.call (.setPassword id password))) E := by
  cases password with
  | text p =>
    refine (at_setPassword id p).imp ?_
    rintro b d (⟨_, t, h⟩ | ⟨_, h⟩)
    · exact .inr (.rekeyed h)
    · exact .inl h.lasting
  | _ => exact leaves_succeeds (ends_throw fun _ hd => hd.lasting)

lemma Call.ends_work (c : Call) :
    Ends (Steady φ s) c.work (fun _ => Left s (.call c)) (Fails φ s (.call c)) := by
  have hat {x : Work Unit} (hx : Ends (At s) x (fun _ => Left s (.call c)) (Lasts s)) :
      Ends (Steady φ s) x (fun _ => Left s (.call c)) (Fails φ s (.call c)) :=
    (hx.pre fun _ hd => hd.toAt).imp_error fun _ _ h => .inl h
  have hread {x : Work Unit} (hx : Within (· = s) x) :
      Ends (Steady φ s) x (fun _ => Left s (.call c)) (Fails φ s (.call c)) :=
    hat ((ends_at hx).mono (fun _ _ h => .inl h.lasting) fun _ _ h => h.lasting)
  cases c with
  | register body =>
    refine hat (ends_ofOutcome_bind (fun _ _ h => h.lasting) fun form hform => ?_)
    refine ((at_register form).imp ?_).discard
    rintro w d ⟨t, h⟩
    exact .inr (.registered hform h)
  | find id => exact hread (within_find id).discard
  | findByEmail email => exact hread (within_findByEmail email).discard
  | findByUsername name => exact hread (within_findByUsername name).discard
  | findByIdentity provider id => exact hread (within_findByIdentity provider id).discard
  | update id body =>
    refine ends_ofOutcome_bind (fun _ _ h => .inl h.lasting) fun form hform => ?_
    have hrow {s' : Store} (h : Revised id form s s') : Written s (.call (.update id body)) s' :=
      h.elim fun t h => .touched (stamped_touched (fun _ _ hu => revised_row hform hu) t) h
    refine ((steady_update id form).mono (fun _ d h => h.1.imp_right hrow) fun e d h => ?_).discard
    exact h.imp_right fun h => ⟨fun _ => h.1, h.2.1, hrow h.2.2⟩
  | setPassword id password => exact hat (leaves_setPassword id password).discard
  | stampLogin id => exact hat (leaves_stampLogin id).discard
  | authenticate name password => exact hat (leaves_authenticate name password).discard
  | signIn v =>
    refine ((steady_signIn v).mono (fun w d h => .inr (.visited h.1)) fun e d h => ?_).discard
    exact h.imp_right fun ⟨hφ, he, n, h⟩ => ⟨hφ, he, .visited h⟩
  | setActive | verify =>
    refine hat (leaves_succeeds (leaves_writeAs fun _ => ?_)).discard
    exact ⟨.of_columns rfl rfl rfl rfl, rfl, rfl, .inl rfl⟩
  | list => exact hread ((within_query _).orElse []).discard
  | count => exact hread ((within_query _).orElse 0).discard
  | setPreferences id new | setNotifications id new =>
    refine hat (leaves_mergeInto id new _ fun _ _ => ?_).discard
    exact ⟨.of_columns rfl rfl rfl rfl, rfl, rfl, .inl rfl⟩
  | statistics => exact hread within_statistics.discard

lemma ends_work (a : Action) :
    Ends (Steady φ s) a.work (fun _ => Left s a) (Fails φ s a) := by
  cases a with
  | remove id =>
    have hremove := (ends_removal (s := s) (dropUser id)).pre fun d (hd : Steady φ s d) => hd.toAt
    refine (hremove.mono (fun b d h => ?_) fun _ _ h => .inl h.lasting).discard
    rcases h with ⟨_, s', hd, h⟩ | ⟨_, h⟩
    · rw [← hd.lasting] at h
      exact .inr (.removed h)
    · exact .inl h.lasting
  | call c => exact c.ends_work

lemma left_result (d : Desk) (a : Action) :
    a.work.result d s = s ∨ Written s a (a.work.result d s) := by
  unfold result
  have hend := ends_work (φ := False) a (d.holding s) (d.holding_at s).steady
  rcases hrun : run a.work (d.holding s) with ⟨e | _, d'⟩ <;> rw [hrun] at hend
  · exact hend.imp_right fun h => h.2.2
  · exact hend

/-- A call that raises leaves the store alone if statements are answered, and else unless it raises
because a row was not found again. -/
lemma result_of_error (hs : s.Distinct) {d : Desk} {e : Fault}
    (h : (run a.work (d.holding s)).1 = .error e) (hd : d.Answers ∨ e ≠ rowLost) :
    a.work.result d s = s := by
  unfold result
  have hend := ends_work (φ := d.Answers) a (d.holding s) ⟨d.holding_at s, fun hd => hd⟩
  rcases hrun : run a.work (d.holding s) with ⟨e' | _, d'⟩ <;> rw [hrun] at hend h
  · cases h
    rcases hend with hend | ⟨hφ, he, _⟩
    · exact hend
    · rcases hd with hd | hd
      · exact absurd hd (hφ hs)
      · exact absurd he hd
  · cases h

end

end Accounts

end ReviewDesk
