import ReviewDesk.Proofs.References

/-!
# Sign-ins at other hosts

A visitor with an identity at a host is the user who has that identity. Only another sign-in at the
same host takes it away, by another identity with the address of the user: it links the account
anew. From then on the first identity is nobody's, and its next visit can make a second account.
-/

namespace ReviewDesk

open List Outcome Work Store

variable {v : Visitor} {s s' : Store} {t : Moment} {n : Int} {i : String}

namespace Accounts

variable (p : Provider) (names : List String)

/-- The identity at a host that a visitor comes with. -/
structure Visitor.Names (v : Visitor) (p : Provider) (i : String) : Prop where
  provider : Provider.of? v.provider = some p
  identity : textColumn v.identity = .ok (some i)

/-! ## Sign-ins -/

/-- The visitor is linked to the user `u`, who is known by the address. -/
structure Relinked (v : Visitor) (s s' : Store) (u : User) (p : Provider) (j : Option String) :
    Prop where
  provider : Provider.of? v.provider = some p
  identity : textColumn v.identity = .ok j
  known : u ∈ s.users
  address : ∃ e, v.email = .text e ∧ u.email = Text.lowered e
  /-- What becomes of each row. -/
  rows : ∃ g, s'.users = s.users.map g ∧ ∀ w ∈ s.users, (g w).id = w.id ∧
    ∀ q, (g w).identity q = if w.id = u.id ∧ q = p then j else w.identity q

/-- What a sign-in leaves: everybody keeps the identities, or the visitor is linked to a user. -/
structure SignedIn (v : Visitor) (s s' : Store) : Prop where
  distinct : s'.Distinct
  rows : s.KeepsIdentities s' ∨ ∃ u p j, Relinked v s s' u p j

lemma SignedIn.of_undisturbed (h : s.Undisturbed s') : SignedIn v s s' :=
  ⟨h.distinct, .inl h.keeps⟩

lemma SignedIn.of_eq (hs : s.Distinct) (h : s' = s) : SignedIn v s s' := by
  rw [h]
  exact .of_undisturbed (.refl hs)

section

variable {u w : User} {E : Fault → Desk → Prop}
variable {t' : Moment} {p : Provider}

lemma changeUser_int {f : User → Outcome User} (h : s.changeUser (.int n) f = .ok s') :
    ∃ g, s'.users = s.users.map g ∧
      ∀ w ∈ s.users, (w.id = n → f w = .ok (g w)) ∧ (w.id ≠ n → g w = w) := by
  obtain ⟨q, g, hq, husers, hg, _⟩ := changeUser_eq_ok h
  obtain ⟨_, rfl⟩ := parameter_int_ok hq
  refine ⟨g, husers, fun w hw => ?_⟩
  have hgw := hg w hw
  simp only [intIs_int, beq_iff_eq] at hgw
  refine ⟨fun hid => ?_, fun hid => ?_⟩
  · rwa [if_pos hid] at hgw
  · rw [if_neg hid] at hgw
    exact (Except.ok.inj hgw).symm

lemma undisturbed_stamped (hs : s.Distinct) {id : Value} {f : User → Outcome User}
    (hf : ∀ u u', f u = .ok u' → u.SameIdentities u')
    (h : s.changeUser id (stamped f t) = .ok s') : s.Undisturbed s' := by
  refine (Undisturbed.refl hs).changeUser (fun u u' hu => ?_) h
  obtain ⟨w, hw, hsame⟩ := stamped_sameIdentities hu
  exact (hf u w hw).trans hsame

lemma distinct_linked (hs : s.Distinct)
    (h : s.changeUser (.int n) (stamped (v.linked t) t') = .ok s') : s'.Distinct := by
  refine hs.changeUser (fun u u' hu => ?_) h
  obtain ⟨w, hw, hsame⟩ := stamped_sameIdentities hu
  exact hsame.id.trans (linked_row hw).1.id

lemma relinked_of_linked (hs : s.Distinct) (hu : u ∈ s.users)
    (haddress : ∃ e, v.email = .text e ∧ u.email = Text.lowered e)
    (h : s.changeUser (.int u.id) (stamped (v.linked t) t') = .ok s') :
    ∃ p j, Relinked v s s' u p j := by
  obtain ⟨g, husers, hg⟩ := changeUser_int h
  obtain ⟨w, hw, hsame⟩ := stamped_sameIdentities ((hg u hu).1 rfl)
  obtain ⟨p, j, hp, hj, hidentity⟩ := (linked_row hw).2
  refine ⟨p, j, hp, hj, hu, haddress, g, husers, fun x hx => ?_⟩
  by_cases hid : x.id = u.id
  · obtain rfl := hs.eq_of_id hx hu hid
    refine ⟨hsame.id.trans (linked_row hw).1.id, fun q => ?_⟩
    simp only [true_and, ← hidentity q, hsame.identity q]
  · rw [(hg x hx).2 hid]
    exact ⟨rfl, fun q => by rw [if_neg fun hq => hid hq.1]⟩

lemma identity_of_withIdentity {q : Provider} (hv : v.Names q i)
    (hp : Provider.of? v.provider = some p) (h : withIdentity p v.identity s = .ok (some u)) :
    u ∈ s.users ∧ u.identity q = some i := by
  obtain rfl : p = q := Option.some.inj (hp.symm.trans hv.provider)
  obtain ⟨r, hr, h⟩ := bind_eq_ok h
  obtain ⟨r', hr', hi⟩ := bind_eq_ok hv.identity
  obtain rfl : r = r' := Except.ok.inj (hr.symm.trans hr')
  obtain ⟨hmem, hid⟩ := mem_filter.mp (mem_of_one h)
  exact ⟨hmem, (beq_iff_eq.mp hid).trans (Except.ok.inj hi)⟩

def Recognized (v : Visitor) (s' : Store) (w : User) : Prop :=
  w ∈ s'.users ∧ ∀ p i, v.Names p i → w.identity p = some i

lemma Visited.signedIn (hs : s.Distinct) (h : Visited v s s' n) : SignedIn v s s' := by
  cases h with
  | joined h =>
    exact .of_undisturbed ((Undisturbed.refl hs).addUser (fun n u hu => (newcomer_row hu).1) h)
  | refreshed _ _ h =>
    exact .of_undisturbed (undisturbed_stamped hs (fun _ _ hu => (refreshed_touched hu).1) h)
  | linked hu haddress h =>
    obtain ⟨p, j, hlink⟩ := relinked_of_linked hs hu haddress h
    exact ⟨distinct_linked hs h, .inr ⟨_, p, j, hlink⟩⟩

lemma Visited.recognized (hs : s.Distinct) (h : Visited v s s' n) (hw : w ∈ s'.users)
    (hid : w.id = n) : Recognized v s' w := by
  have hdistinct := (h.signedIn hs).distinct
  refine ⟨hw, fun q i hv => ?_⟩
  cases h with
  | @joined email name t u _ h =>
    obtain ⟨hmade, husers, _⟩ := addUser_eq_ok h
    obtain ⟨_, _, _, p, j, hp, hj, hidentity⟩ := newcomer_row hmade
    have hu : u ∈ s'.users := husers ▸ mem_append_right _ (mem_singleton_self u)
    obtain rfl : p = q := Option.some.inj (hp.symm.trans hv.provider)
    rw [hdistinct.eq_of_id hw hu hid, hidentity]
    exact Except.ok.inj (hj.symm.trans hv.identity)
  | refreshed hp hu h =>
    have hnext := undisturbed_stamped hs (fun _ _ hu => (refreshed_touched hu).1) h
    obtain ⟨hmem, hi⟩ := identity_of_withIdentity hv hp hu
    obtain ⟨u', hu', hsame⟩ := hnext.keeps _ hmem
    rw [hdistinct.eq_of_id hw hu' (hid.trans hsame.id.symm), hsame.identity, hi]
  | linked hu haddress h =>
    obtain ⟨p, j, hlink⟩ := relinked_of_linked hs hu haddress h
    obtain rfl : p = q := Option.some.inj (hlink.provider.symm.trans hv.provider)
    obtain ⟨g, husers, hg⟩ := hlink.rows
    have hgu := husers ▸ mem_map_of_mem (f := g) hu
    rw [hdistinct.eq_of_id hw hgu (hid.trans (hg _ hu).1.symm), (hg _ hu).2 p, if_pos ⟨rfl, rfl⟩]
    exact Except.ok.inj (hlink.identity.symm.trans hv.identity)

end

/-! ## Calls -/

section

lemma Written.undisturbed {c : Call} (hs : s.Distinct) (h : Written s (.call c) s')
    (hc : ∀ v, c ≠ .signIn v) : s.Undisturbed s' := by
  cases h with
  | registered _ h => exact (Undisturbed.refl hs).addUser (fun n u hu => by cases hu; rfl) h
  | rekeyed h =>
    refine undisturbed_stamped hs (fun u u' hu => ?_) h
    cases hu
    exact .of_columns rfl rfl rfl rfl
  | touched hf h => exact (Undisturbed.refl hs).changeUser (fun u u' hu => (hf u u' hu).1) h
  | visited => exact absurd rfl (hc _)

lemma Call.undisturbed_result (hs : s.Distinct) (d : Desk) (c : Call)
    (hc : ∀ v, c ≠ .signIn v) : s.Undisturbed (c.work.result d s) := by
  rcases left_result d (.call c) (s := s) with h | h
  · exact (congrArg s.Undisturbed h).mpr (.refl hs)
  · exact h.undisturbed hs hc

lemma signedIn_result (hs : s.Distinct) (d : Desk) (v : Visitor) :
    SignedIn v s ((Call.signIn v).work.result d s) := by
  rcases left_result d (.call (.signIn v)) (s := s) with h | h
  · exact .of_eq hs h
  · cases h with
    | touched hf h =>
      exact .of_undisturbed ((Undisturbed.refl hs).changeUser (fun u u' hu => (hf u u' hu).1) h)
    | visited h => exact h.signedIn hs

lemma recognized_result (hs : s.Distinct) {d : Desk} {w : User}
    (hw : (run (signIn v) (d.holding s)).1 = .ok w) :
    Recognized v ((Call.signIn v).work.result d s) w := by
  rw [result, Call.work, lasting_discard]
  obtain ⟨hvisit, hmem⟩ := (steady_signIn v).of_ok (d.holding_at s).steady hw
  exact hvisit.recognized hs hmem rfl

lemma Call.distinct_result (hs : s.Distinct) (d : Desk) (c : Call) :
    (c.work.result d s).Distinct := by
  cases c with
  | signIn v => exact (signedIn_result hs d v).distinct
  | _ => exact (undisturbed_result hs d _ fun v h => by cases h).distinct

lemma distinct_after (hs : s.Distinct) (steps : List (Desk × Call)) :
    (s.after Call.work steps).Distinct :=
  after_keeps (fun _ d c h => c.distinct_result h d) hs steps

end

/-! ## Losing an identity -/

def Bears (s : Store) (n : Int) (p : Provider) (i : String) : Prop :=
  ∃ u ∈ s.users, u.id = n ∧ u.identity p = some i

/-- A sign-in by another identity at the host, with the address of the user with number `n`, that
gives the user this other identity. -/
def Call.Relinks (i : String) (n : Int) (d : Desk) (s : Store) (c : Call) : Prop :=
  ∃ v j, c = .signIn v ∧ Provider.of? v.provider = some p ∧ textColumn v.identity = .ok j ∧
    j ≠ some i ∧
    (∃ e, v.email = .text e ∧ ∃ u ∈ s.users, u.id = n ∧ u.email = Text.lowered e) ∧
    ∃ u ∈ (c.work.result d s).users, u.id = n ∧ u.identity p = j

section

variable {p : Provider}

lemma Bears.keep (hb : Bears s n p i) (h : s.KeepsIdentities s') : Bears s' n p i := by
  obtain ⟨u, hu, rfl, hi⟩ := hb
  obtain ⟨u', hu', hsame⟩ := h u hu
  exact ⟨u', hu', hsame.id, (hsame.identity p).trans hi⟩

/-- After a step the user still has the identity, or it was a link to another one and the identity
is nobody's. -/
lemma bears_result_or (hs : s.Distinct) (hb : Bears s n p i) (d : Desk) (c : Call) :
    Bears (c.work.result d s) n p i ∨
      c.Relinks p i n d s ∧ ∀ w ∈ (c.work.result d s).users, w.identity p ≠ some i := by
  by_cases hc : ∀ v, c ≠ .signIn v
  · exact .inl (hb.keep (c.undisturbed_result hs d hc).keeps)
  · obtain ⟨v, hv⟩ := not_forall.mp hc
    obtain rfl := not_not.mp hv
    rcases (signedIn_result hs d v).rows with hkeeps | ⟨u, q, j, hlink⟩
    · exact .inl (hb.keep hkeeps)
    · obtain ⟨x, hx, rfl, hi⟩ := hb
      obtain ⟨g, husers, hg⟩ := hlink.rows
      have hgx : g x ∈ ((Call.signIn v).work.result d s).users := husers ▸ mem_map_of_mem hx
      -- only a link of this very user at this very host can take the identity away
      by_cases hlost : (x.id = u.id ∧ p = q) ∧ j ≠ some i
      · obtain ⟨⟨hid, rfl⟩, hj⟩ := hlost
        obtain rfl := hs.eq_of_id hx hlink.known hid
        obtain ⟨e, he, haddress⟩ := hlink.address
        refine .inr ⟨⟨v, j, rfl, hlink.provider, hlink.identity, hj, ⟨e, he, x, hx, rfl, haddress⟩,
          g x, hgx, (hg x hx).1, ?_⟩, fun w hw => ?_⟩
        · rw [(hg x hx).2 p, if_pos ⟨rfl, rfl⟩]
        · rw [husers] at hw
          obtain ⟨y, hy, rfl⟩ := mem_map.mp hw
          rw [(hg y hy).2 p]
          split
          · exact hj
          · rename_i hother
            exact fun hyi => hother ⟨congrArg User.id (hs.eq_of_identity hy hx hyi hi), rfl⟩
      · refine .inl ⟨g x, hgx, (hg x hx).1, ?_⟩
        rw [(hg x hx).2 p]
        split
        · rename_i hsame
          exact not_not.mp fun hj => hlost ⟨hsame, hj⟩
        · exact hi

lemma not_bears_of_relinks (hs : s.Distinct) {d : Desk} {c : Call} (h : c.Relinks p i n d s) :
    ¬Bears (c.work.result d s) n p i := by
  obtain ⟨v, j, _, _, _, hj, _, u, hu, hid, hidentity⟩ := h
  rintro ⟨w, hw, hwid, hi⟩
  obtain rfl := (c.distinct_result hs d).eq_of_id hu hw (hid.trans hwid.symm)
  exact hj (hidentity.symm.trans hi)

end

/-! ## A second account -/

/-- A text in small letters that is longer than those of a list. -/
def longName : String :=
  .ofList (List.replicate (Tally.sumOf String.length names + 1) 'a')

lemma longName_notMem : longName names ∉ names := by
  have hle : ∀ name ∈ names, name.length ≤ Tally.sumOf String.length names := by
    induction names with
    | nil => exact fun name h => by cases h
    | cons first names ih =>
      intro name h
      rw [Tally.sumOf_cons]
      rcases mem_cons.mp h with rfl | h
      · omega
      · have := ih name h
        omega
  intro h
  have hlength := hle _ h
  rw [longName, String.length_ofList, length_replicate] at hlength
  omega

lemma longName_ne {α : Type} (column : α → String) {rows : List α} {r : α} (hr : r ∈ rows) :
    column r ≠ longName (rows.map column) := by
  intro h
  refine longName_notMem (rows.map column) ?_
  rw [← h]
  exact mem_map_of_mem hr

lemma lowered_longName : Text.lowered (longName names) = longName names := by
  have hlower : ∀ before k, Text.lowerFrom before (List.replicate k 'a') = List.replicate k 'a' := by
    intro before k
    induction k generalizing before with
    | zero => rfl
    | succ k ih =>
      rw [replicate_succ, Text.lowerFrom, ih]
      rfl
  rw [Text.lowered, longName, String.toList_ofList, Text.lower, hlower]

lemma of?_name : Provider.of? (.text p.name) = some p := by
  cases p <;> rfl

def stranger (s : Store) (p : Provider) (i : String) : Visitor :=
  { provider := .text p.name, identity := .text i
    email := .text (longName (s.users.map (·.email)))
    username := .text (longName (s.users.map (·.username))) }

section

variable {p : Provider}

lemma one_filter_eq_none {α : Type} {q : α → Bool} {rows : List α} (h : ∀ r ∈ rows, q r = false) :
    one (rows.filter q) = .ok none := by
  rw [filter_eq_nil_iff.mpr fun r hr => by simp [h r hr]]
  rfl

lemma gives_findByIdentity_stranger (hfree : ∀ u ∈ s.users, u.identity p ≠ some i) :
    Gives (findByIdentity (stranger s p i).provider (stranger s p i).identity) t s (.ok none) s := by
  have hnone : withIdentity p (.text i) s = .ok none := one_filter_eq_none fun u hu => by
    simpa [textIs, asText?, Value.plain] using hfree u hu
  show Gives (findByIdentity (.text p.name) (.text i)) t s (.ok none) s
  rw [findByIdentity, of?_name]
  exact (gives_query_ok hnone t).orElse_ok none

lemma gives_findByEmail_stranger : Gives (findByEmail (stranger s p i).email) t s (.ok none) s := by
  have hnone : withEmail (longName (s.users.map (·.email))) s = .ok none :=
    one_filter_eq_none fun u hu => by
      rw [lowered_longName, beq_eq_false_iff_ne]
      exact longName_ne (·.email) hu
  exact (gives_query_ok hnone t).orElse_ok none

lemma gives_freeUsername_stranger :
    Gives (freeUsername (stranger s p i).username) t s (.ok (stranger s p i).username) s := by
  have hnone : withUsername (.text (longName (s.users.map (·.username)))) s = .ok none :=
    one_filter_eq_none fun u hu => by
      simp only [textIs, asText?, Value.plain, Option.some_beq_some, beq_eq_false_iff_ne]
      exact longName_ne (·.username) hu
  exact ((gives_query_ok hnone t).orElse_ok none).bind (gives_pure _ t s)

lemma newcomer_stranger (email : String) (n : Int) :
    ∃ w, (stranger s p i).newcomer email (stranger s p i).username t n = .ok w ∧ w.id = n ∧
      w.email = email ∧ w.username = longName (s.users.map (·.username)) ∧
      ∀ q, w.identity q = if q = p then some i else none := by
  cases p <;> exact ⟨_, rfl, rfl, rfl, rfl, fun q => by cases q <;> rfl⟩

lemma addUser_of_apart (hs : s.Distinct) {make : Int → Outcome User} {w : User}
    (hmake : make (nextId (s.users.map (·.id))) = .ok w) (hapart : ∀ u ∈ s.users, u.clash w = none) :
    s.addUser make = .ok (w, { s with users := s.users ++ [w] }) := by
  rw [addUser_eq hs.apart hmake, findSome?_eq_none_iff.mpr hapart]
  rfl

/-- If an identity is nobody's, a visit can make a new user of it. -/
lemma exists_newcomer (hs : s.Distinct) (hfree : ∀ u ∈ s.users, u.identity p ≠ some i) :
    ∃ (d : Desk) (v : Visitor) (w : User), v.Names p i ∧
      (run (signIn v) (d.holding s)).1 = .ok w ∧ w.id ∉ s.users.map (·.id) := by
  let d : Desk := { now := ⟨0⟩ }
  let email := Text.lowered (longName (s.users.map (·.email)))
  obtain ⟨w, hw, hid, hemail, hname, hidentity⟩ := newcomer_stranger (s := s) (p := p) (i := i)
    (t := d.now) email (nextId (s.users.map (·.id)))
  have hadd := addUser_of_apart hs hw fun u hu => User.clash_eq_none_iff.mpr <| by
    refine ⟨?_, ?_, fun q j hj => ?_⟩
    · rw [hemail, show email = _ from lowered_longName _]
      exact longName_ne (·.email) hu
    · rw [hname]
      exact longName_ne (·.username) hu
    · rw [hidentity q]
      split
      · rename_i hq
        exact fun h => hfree u hu (by rw [← hq, hj, h])
      · nofun
  have hgives : Gives (signIn (stranger s p i)) d.now s (.ok w) { s with users := s.users ++ [w] } := by
    refine Gives.orRollback_ok ((gives_findByIdentity_stranger hfree).bind
      (gives_findByEmail_stranger.bind ?_))
    refine (gives_ofOutcome (.ok email) d.now s).bind ?_
    exact gives_freeUsername_stranger.bind ((gives_now _ _).bind (gives_add hadd _))
  obtain ⟨d', hrun, _⟩ := hgives (d.holding s) ⟨fun _ => rfl, rfl, rfl, rfl, rfl⟩
  refine ⟨d, stranger s p i, w, ⟨of?_name p, rfl⟩, by rw [hrun], ?_⟩
  rw [hid]
  exact nextId_notMem _

end

/-! ## Runs -/

/-- Whoever comes with an identity, at any desk, is the user with number `n` if the sign-in
succeeds. -/
def Returns (i : String) (n : Int) (s : Store) : Prop :=
  ∀ (d : Desk) (v : Visitor) (w : User), v.Names p i →
    (run (signIn v) (d.holding s)).1 = .ok w → w.id = n

/-- It is so at every point of a run. -/
def Stays (p : Provider) (i : String) (n : Int) (s : Store) : List (Desk × Call) → Prop
  | [] => Returns p i n s
  | (d, c) :: steps => Returns p i n s ∧ Stays p i n (c.work.result d s) steps

/-- No step of a run links the user to another identity at the host. -/
def NeverRelinked (p : Provider) (i : String) (n : Int) (s : Store) : List (Desk × Call) → Prop
  | [] => True
  | (d, c) :: steps => ¬c.Relinks p i n d s ∧ NeverRelinked p i n (c.work.result d s) steps

section

variable {p : Provider}

lemma Stays.returns {steps : List (Desk × Call)} (h : Stays p i n s steps) : Returns p i n s := by
  cases steps with
  | nil => exact h
  | cons step steps => exact h.1

lemma bears_result_iff (hs : s.Distinct) (hb : Bears s n p i) (d : Desk) (c : Call) :
    Bears (c.work.result d s) n p i ↔ ¬c.Relinks p i n d s :=
  ⟨fun h hlink => not_bears_of_relinks hs hlink h, fun h =>
    (bears_result_or hs hb d c).resolve_right fun hlink => h hlink.1⟩

lemma Bears.returns (hs : s.Distinct) (hb : Bears s n p i) : Returns p i n s := by
  intro d v w hv hw
  have hlink : ¬(Call.signIn v).Relinks p i n d s := by
    rintro ⟨v', j, heq, _, hj, hne, _⟩
    cases heq
    exact hne (Except.ok.inj (hj.symm.trans hv.identity))
  obtain ⟨u, hu, rfl, hi⟩ := (bears_result_iff hs hb d (.signIn v)).mpr hlink
  obtain ⟨hmem, hidentity⟩ := recognized_result hs hw
  have hdistinct := (Call.signIn v).distinct_result hs d
  rw [hdistinct.eq_of_identity hmem hu (hidentity p i hv) hi]

/-- A link to another identity lets a visitor with the first one become somebody else. -/
lemma not_returns_of_relinks (hs : s.Distinct) (hb : Bears s n p i) {d : Desk} {c : Call}
    (h : c.Relinks p i n d s) : ¬Returns p i n (c.work.result d s) := by
  intro hreturns
  have hfree := ((bears_result_or hs hb d c).resolve_left (not_bears_of_relinks hs h)).2
  obtain ⟨e, v, w, hv, hw, hnew⟩ := exists_newcomer (c.distinct_result hs d) hfree
  obtain ⟨_, _, _, _, _, _, _, u, hu, hid, _⟩ := h
  rw [hreturns e v w hv hw, ← hid] at hnew
  exact hnew (mem_map_of_mem hu)

lemma stays_iff_neverRelinked (hs : s.Distinct) (hb : Bears s n p i)
    (steps : List (Desk × Call)) : Stays p i n s steps ↔ NeverRelinked p i n s steps := by
  induction steps generalizing s with
  | nil => exact iff_of_true (hb.returns hs) trivial
  | cons step steps ih =>
    obtain ⟨d, c⟩ := step
    have hnext := c.distinct_result hs d
    constructor
    · rintro ⟨_, hrest⟩
      have hlink : ¬c.Relinks p i n d s := fun h => not_returns_of_relinks hs hb h hrest.returns
      exact ⟨hlink, (ih hnext ((bears_result_iff hs hb d c).mpr hlink)).mp hrest⟩
    · rintro ⟨hlink, hrest⟩
      exact ⟨hb.returns hs, (ih hnext ((bears_result_iff hs hb d c).mpr hlink)).mpr hrest⟩

end

/-- In a run of calls from an empty store, once a visitor with an identity at a host has been signed
in as a user, all later visitors with that identity are that user, exactly if no sign-in with the
address of the user links it to another identity at the host. -/
theorem same_user_iff_neverRelinked (before after : List (Desk × Call)) {d : Desk} {v : Visitor}
    {u : User} {p : Provider} {i : String} (hv : v.Names p i)
    (hu : (run (signIn v) (d.holding (Store.after Call.work {} before))).1 = .ok u) :
    Stays p i u.id ((Call.signIn v).work.result d (Store.after Call.work {} before)) after ↔
      NeverRelinked p i u.id
        ((Call.signIn v).work.result d (Store.after Call.work {} before)) after := by
  have hs := distinct_after distinct_empty before
  obtain ⟨hmem, hidentity⟩ := recognized_result hs hu
  exact stays_iff_neverRelinked ((Call.signIn v).distinct_result hs d)
    ⟨u, hmem, rfl, hidentity p i hv⟩ after

def ann : Visitor :=
  { provider := .text "github", identity := .text "1", email := .text "e@x.io"
    username := .text "ann" }

def bob : Visitor := { ann with identity := .text "2", username := .text "bob" }

def quietDesk : Desk := { now := ⟨0⟩ }

/-- The second visit links the account of the first one anew, and the first identity makes another
account when it comes back without an address. -/
theorem second_account_for_identity : ann.Names .github "1" ∧
      ∃ u, (run (signIn ann) (quietDesk.holding {})).1 = .ok u ∧ u.id = 1 ∧
        ¬Stays .github "1" u.id ((Call.signIn ann).work.result quietDesk {})
          [(quietDesk, .signIn bob)] ∧
        (run (signIn { ann with email := .null }) (quietDesk.holding (Store.after Call.work {}
          [(quietDesk, .signIn ann), (quietDesk, .signIn bob)]))).1.toOption.map (·.id) =
            some 2 := by
  have hann : ann.Names .github "1" := ⟨rfl, rfl⟩
  have hfirst : (run (signIn ann) (quietDesk.holding {})).1.toOption.map (·.id) = some 1 := by
    decide +kernel
  cases hu : (run (signIn ann) (quietDesk.holding {})).1 with
  | error e =>
    rw [hu] at hfirst
    cases hfirst
  | ok u =>
    rw [hu] at hfirst
    have hid : u.id = 1 := Option.some.inj hfirst
    refine ⟨hann, u, rfl, hid, fun hstays => ?_, by decide +kernel⟩
    have hnever := (same_user_iff_neverRelinked [] [(quietDesk, .signIn bob)] hann hu).mp hstays
    rw [hid] at hnever
    have haddress : ((Call.signIn ann).work.result quietDesk {}).users.any
        (fun w => decide (w.id = 1 ∧ w.email = Text.lowered "e@x.io")) = true := by decide +kernel
    have hother : ((Call.signIn bob).work.result quietDesk
        ((Call.signIn ann).work.result quietDesk {})).users.any
        (fun w => decide (w.id = 1 ∧ w.identity .github = some "2")) = true := by decide +kernel
    obtain ⟨w, hw, hwaddress⟩ := any_eq_true.mp haddress
    obtain ⟨x, hx, hxother⟩ := any_eq_true.mp hother
    exact hnever.1 ⟨bob, some "2", rfl, rfl, rfl, by decide,
      ⟨"e@x.io", rfl, w, hw, of_decide_eq_true hwaddress⟩, x, hx, of_decide_eq_true hxother⟩

end Accounts

end ReviewDesk
