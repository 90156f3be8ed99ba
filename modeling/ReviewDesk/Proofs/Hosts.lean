import ReviewDesk.Proofs.Connections
import ReviewDesk.Proofs.HostCalls
import ReviewDesk.Proofs.Requests

/-!
# Connected repositories of a host

What a host lists is shown with marks on the repositories that the user has connected, but only the
hundred connections that were analyzed last are looked through. A connection by an address adds its
row and then always fails, so that the row stays and the request cannot be made again.
-/

namespace ReviewDesk

open List Outcome

variable {s : Store} {t : Moment} {d : Desk}

namespace Provider

open Web

lemma id_of_listedEntry {v r : Value} (h : listedEntry v = .ok r) :
    (r.get? "id").isSome = true := by
  obtain ⟨fs, hfs, h⟩ := bind_eq_ok h
  obtain ⟨a, ha, hfs⟩ := bind_eq_ok hfs
  rw [pick, mapM_cons] at ha
  obtain ⟨p, hp, ha⟩ := bind_eq_ok ha
  obtain ⟨x, hx, hp⟩ := bind_eq_ok hp
  obtain ⟨rest, hrest, ha⟩ := bind_eq_ok ha
  cases hp
  cases ha
  -- the other fields, among them the owner's, come after it
  iterate 7 obtain ⟨_, -, hfs⟩ := bind_eq_ok hfs
  cases hfs
  cases h
  rfl

lemma id_of_readPage {reply : Reply} {found : List Value} (h : readPage reply = .ok found) :
    ∀ r ∈ found, (r.get? "id").isSome = true := by
  obtain ⟨answer, -, h⟩ := bind_eq_ok h
  obtain ⟨-, -, h⟩ := bind_eq_ok h
  split at h
  · cases h
  obtain ⟨data, -, h⟩ := bind_eq_ok h
  split at h
  · obtain ⟨vs, -, h⟩ := bind_eq_ok h
    intro r hr
    obtain ⟨v, -, hv⟩ := mem_of_mapM h r hr
    exact id_of_listedEntry hv
  · cases h
    simp

lemma id_of_userRepositories {user : Option Value} {w : Wire} {found : List Value}
    (h : (run (userRepositories (.text "github") user) w).1 = .ok found) :
    ∀ r ∈ found, (r.get? "id").isSome = true := by
  rw [userRepositories, run_bind, run_ofOutcome] at h
  cases hprefs : preferencesOf user with
  | error e => rw [hprefs] at h; cases h
  | ok prefs =>
    rw [hprefs] at h
    have hgithub : of? (.text "github") = some .github := rfl
    simp only [hgithub] at h
    rw [run_bind, run_ofOutcome] at h
    cases htoken : storedToken .github prefs with
    | error e => rw [htoken] at h; cases h
    | ok token =>
      rw [htoken] at h
      intro r hr
      have hfound : (gather (answerTo token w) mostPages 0).1 = .ok found := by
        rw [← h]
        exact congrArg Prod.fst (run_listRepositories token w).symm
      obtain ⟨j, page, hpage, hr⟩ := mem_of_gather hfound hr
      exact id_of_readPage hpage r hr

end Provider

namespace Work

variable {α β : Type}

lemma Gives.fst {x : Work α} {o : Outcome α} {s' : Store} (h : Gives x t s o s')
    (hd : Calm d t s) : (run x d).1 = o := by
  obtain ⟨d', hrun, -⟩ := h d hd
  rw [hrun]

lemma run_tryCatch_ok {x : Work α} {a : α} (hx : (run x d).1 = .ok a)
    (h : Fault → Work α) : (run (tryCatch x h) d).1 = .ok a := by
  rw [run_tryCatch]
  rcases hrun : run x d with ⟨_, d'⟩
  rw [hrun] at hx
  cases hx
  rfl

lemma gives_mapM {g : α → Work β} {h : α → β} {xs : List α}
    (hx : ∀ x ∈ xs, Gives (g x) t s (.ok (h x)) s) : Gives (xs.mapM g) t s (.ok (xs.map h)) s := by
  induction xs with
  | nil => exact gives_pure _ t s
  | cons x xs ih =>
    rw [mapM_cons]
    refine (hx x (.head _)).bind ?_
    exact (ih fun y hy => hx y (.tail _ hy)).bind (gives_pure _ t s)

end Work

namespace Api

open Work Store

/-! ## Marks of connected repositories -/

/-- The repositories of the host that a user has connected, those analyzed last first. -/
def connectedHere (u : Int) (s : Store) : List Repository :=
  descending Repositories.byRecency
    ((s.repositories.filter (·.ownedBy (.int u))).filter (·.provider == "github"))

/-- A user has connected the repository with a number of the host. -/
def HasConnected (u : Int) (s : Store) (number : String) : Prop :=
  ∃ p ∈ s.repositories, p.provider = "github" ∧ p.ownedBy (.int u) = true ∧ p.externalId = number

/-- The number is not empty and one of the first hundred. -/
def AmongFirst (u : Int) (s : Store) (number : String) : Prop :=
  number ≠ "" ∧ number ∈ ((connectedHere u s).take 100).map (·.externalId)

def hostId (r : Value) : String := (r.getD "id").plain

def marked (rows : List Repository) (r : Value) : Value :=
  .object (Fields.set (r.fields?.getD []) "is_connected" (.bool (isConnected rows (r.getD "id"))))

section

variable {u : Int}
variable {number : String} {found : List Value}

lemma listed_github (hu : fits u) :
    Repositories.listed (.int u) { provider := .text "github" } (.int 0) (.int 100) s =
      .ok ((connectedHere u s).take 100) := by
  have hpicks : Repositories.Filter.picks { provider := .text "github" } =
      .ok fun r => r.provider == "github" := by
    refine congrArg Except.ok (funext fun r => ?_)
    simp [textIs, asText?, Value.plain, Value.truthy]
  rw [Repositories.listed, repositoriesOf, parameter_int hu, hpicks]
  rfl

lemma hasConnected_iff :
    HasConnected u s number ↔ number ∈ (connectedHere u s).map (·.externalId) := by
  simp [HasConnected, connectedHere, descending, and_assoc]

lemma isConnected_iff {rows : List Repository} {id : Value} :
    isConnected rows id = true ↔ id.plain ≠ "" ∧ id.plain ∈ rows.map (·.externalId) := by
  simp only [isConnected, any_eq_true, Bool.and_eq_true, bne_iff_ne, beq_iff_eq, mem_map]
  constructor
  · rintro ⟨r, hr, hne, heq⟩
    exact ⟨heq ▸ hne, r, hr, heq⟩
  · rintro ⟨hne, r, hr, heq⟩
    exact ⟨r, hr, heq ▸ hne, heq⟩

lemma marked_isConnected (rows : List Repository) (r : Value) :
    (marked rows r).getD "is_connected" = .bool (isConnected rows (r.getD "id")) := by
  show (Fields.get? _ _).getD _ = _
  rw [Fields.get?_set_self]
  rfl

lemma hostId_marked (rows : List Repository) {r : Value} (h : (r.get? "id").isSome = true) :
    hostId (marked rows r) = hostId r := by
  cases r with
  | object fs =>
    show ((Fields.get? _ _).getD _).plain = ((Fields.get? _ _).getD _).plain
    rw [Fields.get?_set_ne (by decide)]
    rfl
  | _ => cases h

/-- Whoever the host lists repositories for is known, and every repository has a number. -/
lemma of_hostRepositories (hd : Calm d t s)
    (h : (run (hostRepositories (.text "github") u) d).1 = .ok found) :
    Calm (run (hostRepositories (.text "github") u) d).2 t s ∧ fits u ∧
      ∀ r ∈ found, (r.get? "id").isSome = true := by
  obtain ⟨d', hquery, hd'⟩ := gives_query (userById (.int u)) t s d hd
  rw [hostRepositories, preferencesOf, bind_assoc, run_bind, hquery] at h ⊢
  cases hrow : userById (.int u) s with
  | error e =>
    rw [hrow] at h
    cases h
  | ok row =>
    obtain ⟨_, hparameter, -⟩ := bind_eq_ok hrow
    simp only [hrow, pure_bind, run_web] at h ⊢
    exact ⟨⟨hd'.statement, hd'.commit, hd'.now, hd'.store, hd'.lasting⟩,
      (parameter_int_ok hparameter).1, Provider.id_of_userRepositories h⟩

lemma gives_listed_github (hu : fits u) :
    Gives (Repositories.list (.int u) { provider := .text "github" } (.int 0) (.int 100)) t s
      (.ok ((connectedHere u s).take 100)) s := by
  have hlist := gives_orElse_query (Repositories.listed (.int u)
    { provider := .text "github" } (.int 0) (.int 100)) [] t s
  rw [listed_github hu] at hlist
  exact hlist

/-- What the host lists is given with the marks of the first hundred connected repositories. -/
lemma run_availableRepositories {user : User} (hd : Calm d t s)
    (huser : user.githubId.getD "" ≠ "")
    (hfound : (run (hostRepositories (.text "github") user.id) d).1 = .ok found) :
    (run (availableRepositories user) d).1 =
        .ok (found.map (marked ((connectedHere user.id s).take 100))) ∧
      ∀ r ∈ found, (r.get? "id").isSome = true := by
  obtain ⟨hd', hfits, hids⟩ := of_hostRepositories hd hfound
  refine ⟨?_, hids⟩
  rw [availableRepositories, if_neg huser]
  refine run_tryCatch_ok ?_ _
  rw [run_bind_of_ok (Prod.ext hfound rfl)]
  refine Gives.fst ((gives_listed_github hfits).bind (gives_mapM fun r hr => ?_)) hd'
  exact (gives_ok (Provider.item_of_isSome (hids r hr)) t s).bind (gives_pure _ t s)

lemma AmongFirst.hasConnected (h : AmongFirst u s number) : HasConnected u s number := by
  obtain ⟨p, hp, hnumber⟩ := mem_map.mp h.2
  exact hasConnected_iff.mpr (mem_map.mpr ⟨p, mem_of_mem_take hp, hnumber⟩)

/-- Those of the listed repositories are marked that are among the first hundred that the user has
connected, so that the marks are right exactly if all listed ones that are connected are. -/
theorem marks_right_iff_among_first_hundred {user : User} {found : List Value} (hd : Calm d t s)
    (huser : user.githubId.getD "" ≠ "")
    (hfound : (run (hostRepositories (.text "github") user.id) d).1 = .ok found) :
    ∃ shown, (run (availableRepositories user) d).1 = .ok shown ∧
      shown.map hostId = found.map hostId ∧
      (∀ r ∈ shown, r.getD "is_connected" = .bool true ↔ AmongFirst user.id s (hostId r)) ∧
      ((∀ r ∈ shown, r.getD "is_connected" = .bool true ↔ HasConnected user.id s (hostId r)) ↔
        ∀ r ∈ shown, HasConnected user.id s (hostId r) → AmongFirst user.id s (hostId r)) := by
  obtain ⟨hrun, hids⟩ := run_availableRepositories hd huser hfound
  have hmarks : ∀ m ∈ found.map (marked ((connectedHere user.id s).take 100)),
      m.getD "is_connected" = .bool true ↔ AmongFirst user.id s (hostId m) := by
    intro m hm
    obtain ⟨r, hr, rfl⟩ := mem_map.mp hm
    rw [marked_isConnected, Value.bool.injEq, hostId_marked _ (hids r hr)]
    exact isConnected_iff
  refine ⟨_, hrun, ?_, hmarks, forall_congr' fun m => forall_congr' fun hm => ?_⟩
  · rw [map_map]
    exact map_congr_left fun r hr => hostId_marked _ (hids r hr)
  · rw [hmarks m hm]
    exact ⟨fun h => h.mpr, fun h => ⟨AmongFirst.hasConnected, h⟩⟩

end

def hostUser : User :=
  { id := 1, email := "ann@x.io", username := "ann", password := "secret-1", githubId := some "9",
    preferences := .object [("github_access_token", .text "t")], createdAt := ⟨0⟩,
    updatedAt := none }

def crowdedRow (n : Nat) : Repository :=
  { id := n, name := "depot", fullName := "ann/depot", url := "u", cloneUrl := "c",
    provider := "github", externalId := toString n, createdAt := ⟨0⟩, updatedAt := none,
    ownerId := .int 1 }

def crowdedStore : Store :=
  { users := [hostUser], repositories := (List.range 101).map crowdedRow }

lemma connectedHere_crowded :
    connectedHere hostUser.id crowdedStore = (List.range 101).map crowdedRow := by
  have hall : ∀ r ∈ (List.range 101).map crowdedRow,
      r.ownedBy (.int hostUser.id) = true ∧ (r.provider == "github") = true := by
    intro r hr
    obtain ⟨n, -, rfl⟩ := mem_map.mp hr
    exact ⟨rfl, rfl⟩
  show descending _ (List.filter _ (List.filter _ ((List.range 101).map crowdedRow))) = _
  rw [filter_eq_self.mpr fun r hr => (hall r hr).1,
    filter_eq_self.mpr fun r hr => (hall r hr).2]
  refine mergeSort_of_pairwise (pairwise_map.mpr ?_)
  exact pairwise_of_forall fun _ _ => rfl

/-- The host lists the repository with the number 100, which is connected, and it is not marked. -/
theorem hundred_and_first_unmarked :
    let d : Desk := { store := crowdedStore, lasting := crowdedStore, now := ⟨0⟩
                      wire := Provider.servingWire [Provider.sampleEntry 100] }
    ∃ shown, (run (availableRepositories hostUser) d).1 = .ok shown ∧
      ¬∀ r ∈ shown,
        r.getD "is_connected" = .bool true ↔ HasConnected 1 crowdedStore (hostId r) := by
  intro d
  obtain ⟨found, hfound, hlisted⟩ : ∃ found,
      (run (hostRepositories (.text "github") hostUser.id) d).1 = .ok found ∧
        found.map hostId = ["100"] := ⟨_, rfl, rfl⟩
  have hd : Calm d ⟨0⟩ crowdedStore := ⟨fun _ => rfl, rfl, rfl, rfl, rfl⟩
  have hgithub : hostUser.githubId.getD "" ≠ "" := by decide
  obtain ⟨shown, hrun, hnumbers, -, hright⟩ :=
    marks_right_iff_among_first_hundred hd hgithub hfound
  refine ⟨shown, hrun, fun h => ?_⟩
  rw [hlisted] at hnumbers
  obtain ⟨r, hr, hnumber⟩ : ∃ r ∈ shown, hostId r = "100" :=
    mem_map.mp (hnumbers ▸ mem_singleton_self _)
  have hconnected : HasConnected hostUser.id crowdedStore (hostId r) := by
    rw [hnumber]
    exact ⟨crowdedRow 100, mem_map_of_mem (mem_range.mpr (by decide)), rfl, rfl, rfl⟩
  obtain ⟨-, hfirst⟩ := hright.mp h r hr hconnected
  rw [connectedHere_crowded, hnumber] at hfirst
  exact absurd hfirst (by decide +kernel)

end Api

/-! ## Connections by an address -/

namespace Repositories.Connection

open Work Store

/-- Nothing stands in the way of a connection: the search does not fail and finds no row, and the
row can be added. -/
structure Free (c : Connection) (d : Desk) : Prop where
  statement : d.trouble.statement (d.statements + 1) = false
  rows : rowsOf c.key d.store = []
  commit : d.trouble.commit = none

/-- A connection adds its row if nothing stands in the way, and leaves everything as it is if
something does. -/
lemma connect_cases (c : Connection) (hd : At s d) :
    (c.Free d ∧ ∃ p d', run (connect c.form (.int c.owner)) d = (.ok p, d') ∧
      (∀ k : Key, k.isOf p = decide (c.key = k)) ∧
      d'.lasting = { s with repositories := s.repositories ++ [p] }) ∨
    (¬c.Free d ∧ ∃ e d', run (connect c.form (.int c.owner)) d = (.error e, d') ∧
      (d.fails = false → (rowsOf c.key s).length = 1 →
        e = alreadyConnected)) := by
  obtain ⟨rfl, -⟩ := hd
  obtain ⟨handler, hconnect, hfails⟩ : ∃ handler : Fault → Work Repository,
      connect c.form (.int c.owner) = tryCatch (unlessFound
        (query (connected (c.form.get "external_id") (c.form.get "provider") (.int c.owner)))
        alreadyConnected (do
          let t ← now
          add (Store.addRepository (newRepository c.form (.int c.owner) t)))) handler ∧
      ∀ e d, ∃ e' d', run (handler e) d = (.error e', d') ∧
        (e = alreadyConnected → e' = alreadyConnected) :=
    ⟨_, rfl, fun e d => by cases e <;> exact ⟨_, _, rfl, fun h => by cases h <;> rfl⟩⟩
  rw [hconnect, run_tryCatch, run_unlessFound]
  cases hstatement : d.trouble.statement (d.statements + 1) with
  | true =>
    obtain ⟨e, d', he, -⟩ := hfails (.failed "statement failed") d.asked
    refine .inr ⟨fun h => ?_, e, d', ?_, fun h => ?_⟩
    · cases hstatement.symm.trans h.statement
    · rw [← he]
      simp [query, statement, run_bind, run_get, run_set, hstatement]
    · cases hstatement.symm.trans h
  | false =>
    rw [c.run_lookup hstatement]
    cases hrows : rowsOf c.key d.store with
    | cons r rest =>
      obtain ⟨e, d', he, hsame⟩ :=
        hfails (if rest = [] then alreadyConnected else .severalRows) d.asked
      refine .inr ⟨fun h => ?_, e, d', ?_, fun _ hone => hsame ?_⟩
      · cases hrows.symm.trans h.rows
      · rw [← he]
        cases rest <;> rfl
      · exact if_pos (length_eq_zero_iff.mp (Nat.succ.inj hone))
    | nil =>
      obtain ⟨p, hown, hrun⟩ := c.run_addRow d.asked
      have hrow : run (do
            let t ← now
            add (Store.addRepository (newRepository c.form (.int c.owner) t)))
          d.asked = _ := hrun
      simp only [one, hrow]
      cases hcommit : d.trouble.commit with
      | none => exact .inl ⟨⟨hstatement, hrows, hcommit⟩, p, _, rfl, hown, rfl⟩
      | some e =>
        obtain ⟨e', d', he, -⟩ := hfails e d.asked
        refine .inr ⟨fun h => ?_, e', d', he, fun _ h => ?_⟩
        · cases hcommit.symm.trans h.commit
        · cases h

end Repositories.Connection

namespace Api

open Work Store Repositories

section

variable {user : User} {f : Filled}

/-- What a host is asked about the repository with an address. -/
def describing (f : Filled) : Web Fields :=
  Provider.describeBy (.text (f.text "provider")) (f.get "repository_url") (f.get "access_token")

/-- The form of the repository with an address, by what its host answers. -/
def describedBy (f : Filled) (w : Web.Wire) : Outcome Filled :=
  (Web.run (describing f) w).1 >>= describedForm (f.text "provider") "url" "is_private"

/-- A request that connects a repository: the host describes it, and nothing stands in the way. -/
structure Connects (user : User) (f : Filled) (d : Desk) (c : Connection) : Prop where
  owner : c.owner = user.id
  described : describedBy f d.wire = .ok c.form
  free : c.Free d

lemma read_of_describedBy {w : Web.Wire} {form : Filled} (h : describedBy f w = .ok form) :
    ∃ body, Form.repositoryCreate.read body = .ok form := by
  iterate 6 obtain ⟨_, -, h⟩ := bind_eq_ok h
  exact ⟨_, h⟩

def afterDescribing (f : Filled) (d : Desk) : Desk :=
  { d with wire := (Web.run (describing f) d.wire).2 }

/-- Whatever the connection leaves is there when the request fails. -/
lemma run_connectByUrl (user : User) (f : Filled) (d : Desk) : run (connectByUrl user f) d =
      match describedBy f d.wire with
      | .error e => (.error e, afterDescribing f d)
      | .ok form =>
        match run (connect form (.int user.id)) (afterDescribing f d) with
        | (.ok _, d') => (.error (.mistyped "a hook is not added with a token"), d')
        | (.error e, d') => (.error e, d') := by
  show run (web (describing f) >>= _) d = _
  rw [run_bind, run_web, describedBy, ← afterDescribing]
  cases (Web.run (describing f) d.wire).1 with
  | error e => rfl
  | ok info =>
    simp only [bind_ok]
    rw [run_bind, run_ofOutcome]
    cases describedForm (f.text "provider") "url" "is_private" info with
    | error e => rfl
    | ok form =>
      simp only
      rw [run_bind, run_discard]
      rcases run (connect form (.int user.id)) (afterDescribing f d) with ⟨_ | _, _⟩ <;> rfl

lemma connectByUrl_fails (user : User) (f : Filled) (d : Desk) :
    ∃ e, (run (connectByUrl user f) d).1 = .error e := by
  rw [run_connectByUrl]
  cases describedBy f d.wire with
  | error e => exact ⟨e, rfl⟩
  | ok form =>
    simp only
    rcases run (connect form (.int user.id)) (afterDescribing f d) with ⟨e | _, _⟩
    · exact ⟨e, rfl⟩
    · exact ⟨_, rfl⟩

lemma afterDescribing_at (hd : At s d) : At s (afterDescribing f d) := ⟨hd.store, hd.lasting⟩

/-- What a request leaves: the row of its connection, or everything as it was. -/
lemma connectByUrl_cases (user : User) (f : Filled) (hd : At s d) :
    (∃ c, Connects user f d c ∧ ∃ p, (∀ k : Key, k.isOf p = decide (c.key = k)) ∧
      (run (connectByUrl user f) d).2.lasting = { s with repositories := s.repositories ++ [p] }) ∨
    ((¬∃ c, Connects user f d c) ∧ (run (connectByUrl user f) d).2.lasting = s) := by
  have hat : At s (afterDescribing f d) := afterDescribing_at hd
  rw [run_connectByUrl]
  cases hform : describedBy f d.wire with
  | error e =>
    refine .inr ⟨fun ⟨c, hc⟩ => ?_, hd.lasting⟩
    cases hform.symm.trans hc.described
  | ok form =>
    have hend := ends_connect form user.id _ hat
    rcases hrun : run (connect form (.int user.id)) (afterDescribing f d) with ⟨e | p, d'⟩ <;>
      simp only [hrun] at hend ⊢
    · refine .inr ⟨fun ⟨c, hc⟩ => ?_, hend.lasting⟩
      cases hform.symm.trans hc.described
      rcases c.connect_cases hat with ⟨-, p, d', hok, -⟩ | ⟨hnot, -⟩
      · rw [hc.owner, hrun] at hok
        cases hok
      · exact hnot ⟨hc.free.statement, hc.free.rows, hc.free.commit⟩
    · obtain ⟨body, hbody⟩ := read_of_describedBy hform
      let c : Connection := ⟨body, form, hbody, user.id, hend.2.2.2⟩
      rcases c.connect_cases hat with ⟨hfree, p, d', hok, hown, hlasting⟩ | ⟨-, e, d', hfail, -⟩
      · refine .inl ⟨c, ⟨rfl, hform, hfree.statement, hfree.rows, hfree.commit⟩, p, hown, ?_⟩
        cases hrun.symm.trans hok
        exact hlasting
      · cases hrun.symm.trans hfail

/-- A request to connect a repository by its address always fails, and it leaves the table as it was
exactly if it does not connect. One that does is not repeated: it is told that the repository is
connected. -/
theorem failed_connection_undone_iff (user : User) (f : Filled) {s : Store} {d : Desk}
    (hd : At s d) : (∃ e, (run (connectByUrl user f) d).1 = .error e) ∧
    ((run (connectByUrl user f) d).2.lasting.repositories = s.repositories ↔
      ¬∃ c, Connects user f d c) ∧
    ((∃ c, Connects user f d c) → ∀ d', At (run (connectByUrl user f) d).2.lasting d' →
      d'.wire = d.wire → d'.trouble.statement (d'.statements + 1) = false →
        (run (connectByUrl user f) d').1 = .error alreadyConnected) := by
  refine ⟨connectByUrl_fails user f d, ?_⟩
  rcases connectByUrl_cases user f hd with ⟨c, hc, p, hown, hp⟩ | ⟨hnone, hsame⟩
  · refine ⟨⟨fun h => ?_, fun hnone => absurd ⟨c, hc⟩ hnone⟩, ?_⟩
    · simp [hp] at h
    · rintro - d' hd' hwire hstatement
      rw [hp] at hd'
      have hrows : (rowsOf c.key { s with repositories := s.repositories ++ [p] }).length = 1 := by
        rw [Connection.rowsOf_added hown, ← hd.store, hc.free.rows]
        simp
      rw [run_connectByUrl, hwire, hc.described, ← hc.owner]
      rcases c.connect_cases (afterDescribing_at (f := f) hd') with
        ⟨hfree, -⟩ | ⟨-, e, d'', hrun, he⟩
      · have hnil : rowsOf c.key d'.store = [] := hfree.rows
        rw [hd'.store] at hnil
        simp [hnil] at hrows
      · rw [he hstatement hrows] at hrun
        simp only [hrun]
  · exact ⟨⟨fun _ => hnone, fun _ => congrArg Store.repositories hsame⟩,
      fun hc => absurd hc hnone⟩

end

def depotRequest : Filled :=
  Form.connectRepositoryRequest.filled (.object [("provider", .text "github"),
    ("repository_url", .text "https://github.com/ann/depot"), ("access_token", .text "t")])
    (by decide +kernel)

def depotReply : Web.Reply :=
  .response { status := 200, json := some (.object (
    [("id", .int 7), ("private", .bool false), ("owner", .object [("login", .text "ann")])] ++
      ["name", "full_name", "html_url", "clone_url", "default_branch", "created_at",
        "updated_at"].map fun key => (key, .text key))) }

theorem depot_left_connected :
    let d : Desk := { now := ⟨0⟩, wire := .ofReplies [depotReply] }
    (∃ e, (run (connectByUrl hostUser depotRequest) d).1 = .error e) ∧
      (run (connectByUrl hostUser depotRequest) d).2.lasting.repositories ≠ [] := by
  intro d
  have hd : At {} d := ⟨rfl, rfl⟩
  obtain ⟨hfails, hundone, -⟩ := failed_connection_undone_iff hostUser depotRequest hd
  refine ⟨hfails, fun hnone => hundone.mp hnone ?_⟩
  have hisOk : (describedBy depotRequest d.wire).isOk = true := by decide +kernel
  cases hform : describedBy depotRequest d.wire with
  | error e =>
    rw [hform] at hisOk
    cases hisOk
  | ok form =>
    obtain ⟨body, hbody⟩ := read_of_describedBy hform
    exact ⟨⟨body, form, hbody, 1, by decide⟩, rfl, hform, rfl, rfl, rfl⟩

end Api

end ReviewDesk
