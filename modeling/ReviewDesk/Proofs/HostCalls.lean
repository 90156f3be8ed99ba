import Mathlib.Data.List.Flatten
import Mathlib.Data.List.TakeDrop
import Mathlib.Data.List.TakeWhile
import ReviewDesk.Proofs.Preamble
import ReviewDesk.Proofs.Work
import ReviewDesk.Provider.Access

/-!
# What hosts are asked
-/

namespace ReviewDesk

open List Outcome Nat

/-!
## Listings of a host

A host tells the repositories of a user by pages of a hundred. They are asked for one after the
other until a page is not full, and no more than a hundred of them.
-/

namespace Web

variable {α β : Type}

lemma run_bind (x : Web α) (f : α → Web β) (w : Wire) : run (x >>= f) w =
      match run x w with
      | (.ok a, w') => run (f a) w'
      | (.error e, w') => (.error e, w') := by
  show (ExceptT.bindCont f (x w).1 : StateM Wire _) (x w).2 = _
  unfold run
  rcases h : x w with ⟨_ | _, _⟩ <;> simp [ExceptT.run, StateT.run, h] <;> rfl

lemma run_ofOutcome (x : Outcome α) (w : Wire) : run (ofOutcome x) w = (x, w) := by
  cases x <;> rfl

lemma ofOutcome_bind (x : Outcome α) (f : α → Outcome β) :
    ofOutcome (x >>= f) = ofOutcome x >>= fun a => ofOutcome (f a) := by
  cases x <;> rfl

lemma run_ask (c : Call) (w : Wire) : run (ask c) w =
      (.ok (w.respond w.asked.length c), { w with asked := w.asked ++ [c] }) := rfl

end Web

namespace Provider

open Web

variable {r : Response} {v : Value} (token : Value) (page : Nat) (w : Wire) (entries : List Value)

/-! ## Pages of a listing -/

def pageCall : Call :=
  { method := "GET", url := pageUrl page, headers := some (github.signedHeaders token) }

def listedEntry (v : Value) : Outcome Value := do
  return .object ((← readListed v) ++ [("is_connected", .bool false)])

def readPage (reply : Reply) : Outcome (List Value) := do
  let r ← reply.received github.networkFault
  checkStatus r
  if r.status != 200 then throw (github.apiFault r)
  let data ← r.data
  if data.truthy then (← data.items).mapM listedEntry else return []

lemma listPage_eq :
    listPage token page = ask (pageCall token page) >>= fun r => ofOutcome (readPage r) := by
  simp only [listPage, readPage, ofOutcome_bind, apply_ite ofOutcome]
  rfl

lemma run_listPage : run (listPage token page) w =
      (readPage (w.respond w.asked.length (pageCall token page)),
        { w with asked := w.asked ++ [pageCall token page] }) := by
  rw [listPage_eq, run_bind, run_ask]
  exact run_ofOutcome _ _

lemma readPage_of_status (hstatus : r.status ≠ 200) :
    ∃ m, readPage (.response r) = .error (.invalid m) := by
  simp only [readPage, Reply.received, bind_ok, checkStatus]
  split
  · exact ⟨_, rfl⟩
  · split
    · exact ⟨_, rfl⟩
    · rw [bind_ok, if_pos (by simpa using hstatus)]
      exact ⟨_, rfl⟩

/-- A wire on which `n` pages have been asked for. -/
def askedPages (n : Nat) : Wire :=
  { w with asked := w.asked ++ (List.range n).map fun k => pageCall token (1 + k) }

def answerTo (k : Nat) : Outcome (List Value) :=
  readPage (w.respond (w.asked.length + k) (pageCall token (1 + k)))

/-- Goes through the pages until one is not full, and counts them. -/
def gather (answer : Nat → Outcome (List Value)) : Nat → Nat → Outcome (List Value) × Nat
  | 0, _ => (.ok [], 0)
  | most + 1, k =>
    match answer k with
    | .error e => (.error e, 1)
    | .ok found =>
      if found.length < pageSize then (.ok found, 1)
      else
        let rest := gather answer most (k + 1)
        (do return found ++ (← rest.1), rest.2 + 1)

lemma run_listFrom (most k : Nat) : run (listFrom token most (1 + k)) (askedPages token w k) =
      ((gather (answerTo token w) most k).1,
        askedPages token w (k + (gather (answerTo token w) most k).2)) := by
  induction most generalizing k with
  | zero => rfl
  | succ most ih =>
    have hpage : run (listPage token (1 + k)) (askedPages token w k) =
        (answerTo token w k, askedPages token w (k + 1)) := by
      rw [run_listPage, answerTo]
      simp [askedPages, range_succ]
    rw [listFrom, run_bind, hpage, gather]
    cases answerTo token w k with
    | error e => rfl
    | ok found =>
      simp only
      split
      · rfl
      · rw [run_bind, Nat.add_assoc, ih]
        rcases gather (answerTo token w) most (k + 1) with ⟨_ | _, n⟩ <;>
          simp only [Nat.add_right_comm k, ← Nat.add_assoc] <;> rfl

lemma run_listRepositories : run (listRepositories token) w =
      ((gather (answerTo token w) mostPages 0).1,
        askedPages token w (gather (answerTo token w) mostPages 0).2) := by
  have hrun := run_listFrom token w mostPages 0
  have hnone : askedPages token w 0 = w := by simp [askedPages]
  rwa [hnone, Nat.zero_add] at hrun

section

variable {answer : Nat → Outcome (List Value)} {most k : Nat}

lemma gather_le : (gather answer most k).2 ≤ most := by
  fun_induction gather answer most k with
  | case1 => exact le_refl 0
  | case2 | case3 => exact le_add_left 1 _
  | case4 most k found _ _ rest ih => exact succ_le_succ ih

lemma gather_error {j : Nat} {e : Fault} (hk : k ≤ j) (hj : j < k + (gather answer most k).2)
    (h : answer j = .error e) : (gather answer most k).1 = .error e := by
  fun_induction gather answer most k with
  | case1 => omega
  | case2 most k e' he =>
    obtain rfl : j = k := le_antisymm (le_of_lt_succ hj) hk
    exact he.symm.trans h
  | case3 most k found hfound =>
    obtain rfl : j = k := le_antisymm (le_of_lt_succ hj) hk
    cases hfound.symm.trans h
  | case4 most k found hfound _ rest ih =>
    by_cases heq : j = k
    · subst heq
      cases hfound.symm.trans h
    · rw [ih (by omega) (show j < k + 1 + rest.2 by omega)]
      rfl

/-- If every page is answered, the entries of all pages that may be asked for are given. -/
lemma gather_served {shown : List Value}
    (h : ∀ k, answer k = .ok ((shown.drop (pageSize * k)).take pageSize)) :
    (gather answer most k).1 = .ok ((shown.drop (pageSize * k)).take (pageSize * most)) := by
  fun_induction gather answer most k with
  | case1 => rfl
  | case2 most k e he => cases (h k).symm.trans he
  | case3 most k found hfound hless =>
    cases (h k).symm.trans hfound
    rw [length_take] at hless
    rw [take_of_length_le (by omega), take_of_length_le (by rw [Nat.mul_succ]; omega)]
  | case4 most k found hfound _ rest ih =>
    cases (h k).symm.trans hfound
    rw [ih, Nat.mul_succ, Nat.mul_succ, ← drop_drop, Nat.add_comm (pageSize * most), take_add]
    rfl

lemma mem_of_gather {found : List Value} {r : Value} (h : (gather answer most k).1 = .ok found)
    (hr : r ∈ found) : ∃ j page, answer j = .ok page ∧ r ∈ page := by
  fun_induction gather answer most k generalizing found with
  | case1 =>
    cases h
    cases hr
  | case2 => cases h
  | case3 most k page hpage =>
    cases h
    exact ⟨k, page, hpage, hr⟩
  | case4 most k page hpage =>
    rename_i ih
    obtain ⟨more, hmore, h⟩ := bind_eq_ok h
    cases h
    rcases mem_append.mp hr with hr | hr
    · exact ⟨k, page, hpage, hr⟩
    · exact ih hmore hr

end

/-! ## Entries of a listing -/

/-- The fields of an entry that a listing has no default for. -/
def neededFields : List String :=
  ["id", "name", "full_name", "html_url", "clone_url", "default_branch", "private", "created_at",
    "updated_at", "owner"]

structure IsEntry (v : Value) : Prop where
  fields : ∀ key ∈ neededFields, (v.get? key).isSome = true
  owner : ∀ key ∈ ["login", "avatar_url"], ((v.getD "owner").get? key).isSome = true

lemma item_of_isSome {key : String} (h : (v.get? key).isSome = true) :
    v.item key = .ok (v.getD key) := by
  obtain ⟨x, hx⟩ := Option.isSome_iff_exists.mp h
  cases v with
  | object fs =>
    have hfield : Fields.get? fs key = some x := hx
    simp [Value.item, Value.getD, hx, hfield]
  | _ => cases hx

lemma IsEntry.pick (h : IsEntry v) {keys : List (String × String)}
    (hkeys : ∀ p ∈ keys, p.2 ∈ neededFields) :
    pick v keys = .ok (keys.map fun p => (p.1, v.getD p.2)) := by
  refine mapM_of_ok fun p hp => ?_
  show (v.item p.2 >>= fun x => pure (p.1, x)) = _
  rw [item_of_isSome (h.fields _ (hkeys p hp))]
  rfl

lemma IsEntry.listed (h : IsEntry v) : ∃ r, listedEntry v = .ok r := by
  have howner := item_of_isSome (h.fields "owner" (by decide))
  have hlogin := item_of_isSome (h.owner "login" (by decide))
  have havatar := item_of_isSome (h.owner "avatar_url" (by decide))
  unfold listedEntry readListed
  rw [h.pick (by decide), h.pick (by decide), h.pick (by decide), h.pick (by decide), howner]
  simp only [bind_ok, hlogin, havatar]
  exact ⟨_, rfl⟩

/-- Every page of a listing is answered with its part of the entries. -/
def Serves : Prop :=
  ∀ k, ∃ r : Response, w.respond (w.asked.length + k) (pageCall token (1 + k)) = .response r ∧
    r.status = 200 ∧ r.json = some (.list ((entries.drop (pageSize * k)).take pageSize))

lemma readPage_of_entries {vs : List Value} (hstatus : r.status = 200)
    (hjson : r.json = some (.list vs)) : readPage (.response r) = vs.mapM listedEntry := by
  have hdata : r.data = .ok (.list vs) := by rw [Response.data, hjson]
  simp only [readPage, Reply.received, checkStatus, hstatus, bind_ok, hdata]
  cases vs <;> rfl

/-- Whatever the host answers, at most a hundred pages are asked for, one after the other, and a
page that is refused makes the listing fail. A host that answers every page with its part of a list
of entries is listed up to ten thousand entries, in their order. -/
theorem listing_complete_in_hundred_pages (token : Value) (w : Wire) :
    (∀ entries : List Value, (∀ v ∈ entries, IsEntry v) → Serves token w entries →
      ∃ shown, (entries.take 10000).mapM listedEntry = .ok shown ∧
        (run (listRepositories token) w).1 = .ok shown) ∧
    ∃ n ≤ 100, (run (listRepositories token) w).2 =
        { w with asked := w.asked ++ (List.range n).map fun k => pageCall token (1 + k) } ∧
      ∀ k < n, ∀ r, w.respond (w.asked.length + k) (pageCall token (1 + k)) = .response r →
        r.status ≠ 200 → ∃ m, (run (listRepositories token) w).1 = .error (.invalid m) := by
  rw [run_listRepositories]
  constructor
  · intro entries hentries hserves
    have hpart {vs : List Value} (hvs : vs ⊆ entries) :
        vs.mapM listedEntry = .ok (vs.map fun v => (listedEntry v).getD .null) := by
      refine mapM_of_ok fun v hv => ?_
      obtain ⟨r, hr⟩ := (hentries v (hvs hv)).listed
      rw [hr]
      rfl
    refine ⟨_, hpart (take_subset _ _), ?_⟩
    rw [map_take]
    refine gather_served fun k => ?_
    obtain ⟨r, hr, hstatus, hjson⟩ := hserves k
    rw [answerTo, hr, readPage_of_entries hstatus hjson, hpart, map_take, map_drop]
    exact fun v hv => mem_of_mem_drop (mem_of_mem_take hv)
  · refine ⟨(gather (answerTo token w) mostPages 0).2, gather_le, rfl, fun k hk r hr hstatus => ?_⟩
    obtain ⟨m, hm⟩ := readPage_of_status hstatus
    exact ⟨m, gather_error (Nat.zero_le k) (by omega) (by rw [answerTo, hr, hm])⟩

def sampleEntry (id : Int) : Value :=
  .object (("id", .int id) :: ("owner", .object [("login", .text "ann"), ("avatar_url", .null)]) ::
    neededFields.map fun key => (key, .text key))

lemma sampleEntry_isEntry (id : Int) : IsEntry (sampleEntry id) where
  fields := by
    simp only [neededFields, forall_mem_cons]
    exact ⟨rfl, rfl, rfl, rfl, rfl, rfl, rfl, rfl, rfl, rfl, forall_mem_nil _⟩
  owner := by
    simp only [forall_mem_cons]
    exact ⟨rfl, rfl, forall_mem_nil _⟩

def servingWire : Wire :=
  { respond := fun k _ => .response
      { status := 200, json := some (.list ((entries.drop (pageSize * k)).take pageSize)) } }

lemma serves_servingWire : Serves token (servingWire entries) entries :=
  fun k => ⟨_, rfl, rfl, by simp [servingWire]⟩

theorem second_page_listed :
    let entries := (List.range 150).map fun n : Nat => sampleEntry n
    (∀ v ∈ entries, IsEntry v) ∧ Serves .null (servingWire entries) entries ∧
      ∃ shown, (entries.take 10000).mapM listedEntry = .ok shown ∧
        (run (listRepositories .null) (servingWire entries)).1 = .ok shown := by
  intro entries
  have hentries : ∀ v ∈ entries, IsEntry v := by
    intro v hv
    obtain ⟨n, -, rfl⟩ := mem_map.mp hv
    exact sampleEntry_isEntry n
  have hserves := serves_servingWire .null entries
  exact ⟨hentries, hserves,
    (listing_complete_in_hundred_pages .null (servingWire entries)).1 entries hentries hserves⟩

end Provider

/-!
## Addresses of repositories

What a host is asked when a repository is described by its address. Every `.git` is taken out of the
name, or of the path of a project, not only the last one. The main result says when the host is
asked for the repository that the address names.
-/

namespace Text

/-- A text with `q` for each occurrence of `p`; `skip` characters belong to the one found last. -/
def replaced (p q : Chars) : Nat → Chars → Chars
  | _, [] => []
  | skip + 1, _ :: r => replaced p q skip r
  | 0, c :: r =>
    if p.isPrefixOf (c :: r) then q ++ replaced p q (p.length - 1) r else c :: replaced p q 0 r

lemma flatten_splitFrom (p q : Chars) (skip : Nat) (piece t : Chars) :
    (intersperse q (splitFrom p skip piece t)).flatten = piece.reverse ++ replaced p q skip t := by
  have hne (skip : Nat) (piece t : Chars) : splitFrom p skip piece t ≠ [] := by
    fun_induction splitFrom p skip piece t <;> simp_all
  fun_induction splitFrom p skip piece t with
  | case1 => simp [replaced]
  | case2 skip piece c r ih => rw [ih, replaced]
  | case3 piece c r hp ih =>
    rw [intersperse, flatten_cons, flatten_cons, ih, replaced, if_pos hp, reverse_nil, nil_append]
    exact hne _ _ _
  | case4 piece c r hp ih =>
    rw [ih, replaced, if_neg hp, reverse_cons, append_assoc, singleton_append]

lemma replaceAll_eq (p q t : Chars) : replaceAll p q t = replaced p q 0 t :=
  flatten_splitFrom p q 0 [] t

lemma replaced_sublist (p : Chars) (skip : Nat) (t : Chars) : replaced p [] skip t <+ t := by
  fun_induction replaced p [] skip t with
  | case1 => exact nil_sublist _
  | case2 skip c r ih => exact ih.cons c
  | case3 c r hp ih => exact ih.cons c
  | case4 c r hp ih => exact ih.cons_cons c

lemma replaced_eq_self_iff {p : Chars} (hp : p ≠ []) (t : Chars) :
    replaced p [] 0 t = t ↔ occurs p t = false := by
  induction t with
  | nil => simp [replaced, occurs, hp]
  | cons c r ih =>
    rw [replaced, occurs]
    cases hc : p.isPrefixOf (c :: r) with
    | true =>
      have hle := (replaced_sublist p (p.length - 1) r).length_le
      simp only [↓reduceIte, nil_append, Bool.true_or, Bool.true_eq_false, iff_false]
      intro heq
      rw [heq, length_cons] at hle
      omega
    | false => simpa using ih

/-- No occurrence begins in a text and ends in a `.git` behind it. -/
lemma isPrefixOf_append_git (c : Char) (r : Chars) :
    ".git".toList.isPrefixOf (c :: (r ++ ".git".toList)) = ".git".toList.isPrefixOf (c :: r) := by
  rcases r with _ | ⟨a, _ | ⟨b, _ | ⟨e, r⟩⟩⟩ <;> simp [isPrefixOf]

lemma replaced_append_git (skip : Nat) (t : Chars) (h : skip ≤ t.length) :
    replaced ".git".toList [] skip (t ++ ".git".toList) = replaced ".git".toList [] skip t := by
  fun_induction replaced ".git".toList [] skip t with
  | case1 skip =>
    cases le_zero.mp h
    rfl
  | case2 skip c r ih => exact ih (le_of_succ_le_succ h)
  | case3 c r hp ih =>
    have hlen := (List.isPrefixOf_iff_prefix.mp hp).length_le
    rw [cons_append, replaced, isPrefixOf_append_git, if_pos hp, ih (le_of_succ_le_succ hlen)]
  | case4 c r hp ih =>
    rw [cons_append, replaced, isPrefixOf_append_git, if_neg hp, ih (zero_le _)]

lemma replaced_slash (t : Chars) :
    replaced ['/'] "%2F".toList 0 t = t.flatMap fun c => if c = '/' then "%2F".toList else [c] := by
  induction t with
  | nil => rfl
  | cons c r ih =>
    have hslash : ['/'].isPrefixOf (c :: r) = ('/' == c) := by simp [isPrefixOf]
    rw [replaced, flatMap_cons, hslash, ← ih]
    by_cases hc : c = '/'
    · subst hc
      rfl
    · rw [if_neg hc, if_neg (by simpa using Ne.symm hc), singleton_append]

lemma eq_of_flatMap_eq {f : Char → Chars} (hf : ∀ c, f c ≠ []) {x y : Chars}
    (h : x <+ y) (heq : x.flatMap f = y.flatMap f) : x = y := by
  induction h with
  | slnil => rfl
  | cons c h _ =>
    have hle := (h.flatMap f).length_le
    have hpos := length_pos_iff.mpr (hf c)
    rw [heq, flatMap_cons, length_append] at hle
    omega
  | cons_cons c _ ih =>
    rw [flatMap_cons, flatMap_cons] at heq
    rw [ih (append_cancel_left heq)]

end Text

/-! ## Reading an address -/

namespace Web

lemma withoutParams_eq {path : Chars} (h : ';' ∉ path) : withoutParams path = path := by
  obtain ⟨rest, hrest⟩ := takeWhile_prefix (· != '/') (l := path.reverse)
  unfold withoutParams
  generalize path.reverse.takeWhile (· != '/') = last at hrest ⊢
  obtain rfl : path = rest.reverse ++ last.reverse := by
    rw [← reverse_append, hrest, reverse_reverse]
  have hlast : last.reverse.takeWhile (· != ';') = last.reverse :=
    takeWhile_eq_self_iff.mpr fun c hc => bne_iff_ne.mpr fun hs => h (mem_append_right _ (hs ▸ hc))
  dsimp only
  rw [hlast, length_append, Nat.add_sub_cancel, take_left]

/-- A character that stands for itself in a path. -/
def InPath (c : Char) : Prop :=
  c ≠ '\t' ∧ c ≠ '\r' ∧ c ≠ '\n' ∧ c ≠ '?' ∧ c ≠ '#' ∧ c ≠ ';'

lemma ofText_gitlab {path : Chars} (h : ∀ c ∈ path, InPath c) :
    Address.ofText (.ofList ("https://gitlab.com/".toList ++ path)) =
      .ok ⟨"https", "gitlab.com", .ofList ('/' :: path)⟩ := by
  have hcs : (("https://gitlab.com/".toList ++ path).dropWhile (·.toNat ≤ 32)).filter
      (fun c => c != '\t' && c != '\r' && c != '\n') = "https://gitlab.com/".toList ++ path := by
    have hpath : path.filter (fun c => c != '\t' && c != '\r' && c != '\n') = path :=
      filter_eq_self.mpr fun c hc => by simp [(h c hc).1, (h c hc).2.1, (h c hc).2.2.1]
    show ("https://gitlab.com/".toList ++ path).filter _ = _
    rw [filter_append, hpath]
    rfl
  have hpath : ('/' :: path).takeWhile (fun c => c != '#' && c != '?') = '/' :: path := by
    refine takeWhile_eq_self_iff.mpr (forall_mem_cons.mpr ⟨rfl, fun c hc => ?_⟩)
    simp [(h c hc).2.2.2.1, (h c hc).2.2.2.2.1]
  have hparams : withoutParams ('/' :: path) = '/' :: path := by
    refine withoutParams_eq fun hs => ?_
    exact (h _ ((mem_cons.mp hs).resolve_left (by decide))).2.2.2.2.2 rfl
  unfold Address.ofText
  rw [String.toList_ofList, hcs]
  show Except.ok (Address.mk "https" "gitlab.com"
    (.ofList (withoutParams (('/' :: path).takeWhile fun c => c != '#' && c != '?')))) = _
  rw [hpath, hparams]

end Web

/-! ## Asking a host -/

namespace Provider

variable {p : Provider} {owner name ending : String}

/-- Where the repositories of a host are seen. -/
def home : Provider → String
  | github => "https://github.com/"
  | gitlab => "https://gitlab.com/"
  | bitbucket => "https://bitbucket.org/"

/-- What names a repository for a host: the path of a project, or the name beside the owner. -/
def part (p : Provider) (owner name : String) : String :=
  match p with
  | gitlab => owner ++ "/" ++ name
  | _ => name

/-- The address at which a host describes a repository. -/
def entry (p : Provider) (owner part : String) : String :=
  match p with
  | github => "https://api.github.com/repos/" ++ owner ++ "/" ++ part
  | gitlab => "https://gitlab.com/api/v4/projects/" ++
      .ofList (part.toList.flatMap fun c => if c = '/' then "%2F".toList else [c])
  | bitbucket => "https://api.bitbucket.org/2.0/repositories/" ++ owner ++ "/" ++ part

/-- An owner and a name as an address holds them. The owner of a project may be a path of groups. -/
structure Holds (p : Provider) (owner name : String) : Prop where
  owned : owner ≠ ""
  named : name ≠ ""
  slash : '/' ∉ name.toList
  groups : if p = gitlab then owner.toList.head? ≠ some '/' else '/' ∉ owner.toList
  path : p = gitlab → ∀ c ∈ (owner ++ name).toList, Web.InPath c

lemma withoutGit_eq (s : String) :
    withoutGit s = .ofList (Text.replaced ".git".toList [] 0 s.toList) := by
  rw [withoutGit, Text.replaceText, Text.replaceAll_eq]
  rfl

lemma withoutGit_append (s : String) (h : ending = "" ∨ ending = ".git") :
    withoutGit (s ++ ending) = withoutGit s := by
  obtain rfl | rfl := h
  · rw [String.append_empty]
  · rw [withoutGit_eq, withoutGit_eq, String.toList_append,
      Text.replaced_append_git 0 _ (zero_le _)]

lemma fixedUrl_append (start root : String) (howner : owner ≠ "") (hslash : '/' ∉ owner.toList)
    (hname : name ≠ "") (hslash' : '/' ∉ name.toList) :
    p.fixedUrl start root (start ++ owner ++ "/" ++ name) =
      .ok (root ++ "/" ++ owner ++ "/" ++ withoutGit name) := by
  have hne {s : String} (h : '/' ∉ s.toList) : ∀ c ∈ s.toList, (c != '/') = true :=
    fun c hc => bne_iff_ne.mpr fun hs => h (hs ▸ hc)
  have hspan : (owner.toList ++ '/' :: name.toList).span (· != '/') =
      (owner.toList, '/' :: name.toList) := by
    rw [span_eq_takeWhile_dropWhile, takeWhile_append_of_pos (hne hslash),
      dropWhile_append_of_pos (hne hslash)]
    simp
  have hurl : (start ++ owner ++ "/" ++ name).toList =
      start.toList ++ (owner.toList ++ '/' :: name.toList) := by simp
  have hparts : ownerAndName? start (start ++ owner ++ "/" ++ name).toList =
      some (owner.toList, name.toList) := by
    rw [hurl, ownerAndName?, Text.startsWith, isPrefixOf_iff_prefix.mpr (prefix_append _ _),
      if_pos rfl, ← String.length_toList, drop_left, hspan]
    simp [takeWhile_eq_self_iff.mpr (hne hslash'), howner, hname]
  rw [fixedUrl, hparts]
  simp

lemma withoutSlashes_eq {path : Chars} (hfirst : path.head? ≠ some '/')
    (hlast : path.getLast? ≠ some '/') : withoutSlashes ('/' :: path) = path := by
  have hdrop (cs : Chars) (h : cs.head? ≠ some '/') : cs.dropWhile (· = '/') = cs := by
    cases cs with
    | nil => rfl
    | cons c cs => rw [dropWhile_cons_of_neg (by simpa using h)]
  rw [withoutSlashes, dropWhile_cons_of_pos (by simp), hdrop path hfirst,
    hdrop _ (by rwa [head?_reverse]), reverse_reverse]

lemma projectUrl_append {path : String} (h : ∀ c ∈ path.toList, Web.InPath c)
    (hfirst : path.toList.head? ≠ some '/') (hlast : path.toList.getLast? ≠ some '/') :
    projectUrl ("https://gitlab.com/" ++ path) = .ok (gitlab.entry "" (withoutGit path)) := by
  have hurl : "https://gitlab.com/" ++ path =
      .ofList ("https://gitlab.com/".toList ++ path.toList) := by
    rw [String.ofList_append]
    simp
  have hencoded (s : String) : Text.replaceText s "/" "%2F" =
      .ofList (s.toList.flatMap fun c => if c = '/' then "%2F".toList else [c]) := by
    rw [← Text.replaced_slash, ← Text.replaceAll_eq]
    rfl
  have hhost : Text.contains "gitlab.com" "gitlab" = true := by decide
  rw [projectUrl, hurl, Web.ofText_gitlab h, bind_ok, hhost, if_pos rfl, String.toList_ofList,
    withoutSlashes_eq hfirst hlast, String.ofList_toList]
  dsimp only
  rw [hencoded]
  rfl

/-- The host is asked for the repository without any `.git` in its name or path. -/
lemma repositoryUrl_home (h : p.Holds owner name) (hending : ending = "" ∨ ending = ".git") :
    p.repositoryUrl (p.home ++ owner ++ "/" ++ name ++ ending) =
      .ok (p.entry owner (withoutGit (p.part owner name))) := by
  have hnamed : name ++ ending ≠ "" := fun hempty => h.named (String.append_eq_empty_iff.mp hempty).1
  have hslash : '/' ∉ (name ++ ending).toList := by
    obtain rfl | rfl := hending <;> simp [h.slash]
  have hname := withoutGit_append name hending
  rw [String.append_assoc]
  cases p with
  | github =>
    rw [repositoryUrl, home, fixedUrl_append _ _ h.owned h.groups hnamed hslash, hname]
    rfl
  | bitbucket =>
    rw [repositoryUrl, home, fixedUrl_append _ _ h.owned h.groups hnamed hslash, hname]
    rfl
  | gitlab =>
    have hpath : ∀ c ∈ (owner ++ "/" ++ (name ++ ending)).toList, Web.InPath c := by
      have hpath := h.path rfl
      simp only [String.toList_append, forall_mem_append] at hpath ⊢
      refine ⟨⟨hpath.1, by simp [Web.InPath]⟩, hpath.2, ?_⟩
      obtain rfl | rfl := hending <;> simp [Web.InPath]
    have hfirst : (owner ++ "/" ++ (name ++ ending)).toList.head? ≠ some '/' := by
      rw [String.append_assoc, String.toList_append, head?_append]
      cases hc : owner.toList.head? with
      | none => exact absurd (String.toList_eq_nil_iff.mp (head?_eq_none_iff.mp hc)) h.owned
      | some c => simpa [hc] using h.groups
    have hlast : (owner ++ "/" ++ (name ++ ending)).toList.getLast? ≠ some '/' := by
      rw [String.toList_append, getLast?_append]
      cases hc : (name ++ ending).toList.getLast? with
      | none => exact absurd (String.toList_eq_nil_iff.mp (getLast?_eq_none_iff.mp hc)) hnamed
      | some c => exact fun heq => hslash (mem_of_getLast? (hc.trans heq))
    have hurl := projectUrl_append hpath hfirst hlast
    simp only [← String.append_assoc] at hurl ⊢
    rw [withoutGit_append _ hending] at hurl
    exact hurl

lemma entry_withoutGit_iff (p : Provider) (owner part : String) :
    p.entry owner (withoutGit part) = p.entry owner part ↔ Text.contains part ".git" = false := by
  have hself : withoutGit part = part ↔ Text.contains part ".git" = false := by
    rw [withoutGit_eq, Text.contains, ← Text.replaced_eq_self_iff (by decide),
      ← String.toList_inj, String.toList_ofList]
  rw [← hself]
  refine ⟨fun h => ?_, congrArg _⟩
  cases p with
  | github => exact (String.append_right_inj _).mp h
  | bitbucket => exact (String.append_right_inj _).mp h
  | gitlab =>
    have hsame := String.ofList_inj.mp ((String.append_right_inj _).mp h)
    refine String.toList_inj.mp (Text.eq_of_flatMap_eq (fun c => ?_) ?_ hsame)
    · split <;> exact cons_ne_nil _ _
    · rw [withoutGit_eq, String.toList_ofList]
      exact Text.replaced_sublist _ _ _

lemma asked_describeBy {url target : String} (h : p.repositoryUrl url = .ok target)
    (token : Value) (w : Web.Wire) :
    (Web.run (describeBy (.text p.name) (.text url) token) w).2.asked =
      w.asked ++ [{ method := "GET", url := target, headers := some (p.headers token) }] := by
  have hname : describeBy (.text p.name) (.text url) token = p.describe (.text url) token := by
    cases p <;> rfl
  have hurl : p.repositoryUrlOf (.text url) = .ok target := h
  rw [hname, describe, Web.run_bind, Web.run_ofOutcome, hurl]
  simp only
  rw [Web.run_bind, Web.run_ask]
  simp only
  rw [Web.run_bind, Web.run_ofOutcome]
  cases (w.respond w.asked.length _).received p.networkFault with
  | error e => rfl
  | ok r =>
    simp only
    iterate 3
      split
      · rfl
    rw [Web.run_ofOutcome]

/-- A host is asked for the repository that an address names exactly if `.git` stands nowhere in the
name, or in the path of a project. -/
theorem asks_entry_iff (h : p.Holds owner name) (hending : ending = "" ∨ ending = ".git")
    (token : Value) (w : Web.Wire) :
    (Web.run (describeBy (.text p.name) (.text (p.home ++ owner ++ "/" ++ name ++ ending)) token)
      w).2.asked = w.asked ++ [{ method := "GET", url := p.entry owner (p.part owner name)
                                 headers := some (p.headers token) }] ↔
      Text.contains (p.part owner name) ".git" = false := by
  rw [asked_describeBy (repositoryUrl_home h hending), ← entry_withoutGit_iff p owner]
  simp

/-- A page is asked for under another name. -/
theorem asks_entry_of_page :
    (Web.run (describeBy (.text "github") (.text "https://github.com/ann/my.github.io") .null)
      { respond := fun _ _ => .unreachable }).2.asked ≠
        [{ method := "GET", url := "https://api.github.com/repos/ann/my.github.io"
           headers := some (github.headers .null) }] := by
  have h : github.Holds "ann" "my.github.io" :=
    ⟨by decide, by decide, by decide, by decide, fun h => absurd h (by decide)⟩
  exact fun hasked => absurd ((asks_entry_iff h (.inl rfl) .null _).mp hasked) (by decide)

end Provider

end ReviewDesk
