import Mathlib.Data.List.Induction
import Mathlib.Data.List.Nodup
import ReviewDesk.Git.Basic

/-!
# Groups of items

Items are read one after another. The first item of a group makes an entry, and the entry changes with
every further one. So there is one entry for each group, and it tells of all items of the group.

The statistics of a history group its commits by author and by month. Both dates of an author are
those of the newest commit: the date of an older one is never looked at.
-/

namespace ReviewDesk

open List

namespace Tally

/-- How items are grouped, and what stands for the items of a group. -/
structure Grouping (α β κ : Type) where
  key : α → κ
  group : β → κ
  entry : κ → List β → α
  step : α → β → α
  key_entry : ∀ k bs, key (entry k bs) = k
  key_step : ∀ x b, key (step x b) = key x
  entry_snoc : ∀ k b {bs}, bs ≠ [] → entry k (bs ++ [b]) = step (entry k bs) b

namespace Grouping

variable {α β κ : Type} [DecidableEq κ] (G : Grouping α β κ) {bs : List β} {b : β} {xs : List α}
  {k : κ}

def items (bs : List β) (k : κ) : List β := bs.filter (G.group · = k)

def read (xs : List α) (b : β) : List α :=
  if G.group b ∈ xs.map G.key then xs.map fun x => if G.key x = G.group b then G.step x b else x
  else xs ++ [G.entry (G.group b) [b]]

/-- The groups that occur have one entry each, which tells of the items of the group. -/
structure Tells (bs : List β) (xs : List α) : Prop where
  apart : (xs.map G.key).Nodup
  occurs : ∀ k, k ∈ xs.map G.key ↔ k ∈ bs.map G.group
  counted : ∀ x ∈ xs, x = G.entry (G.key x) (G.items bs (G.key x))

variable {G}

lemma items_snoc_self : G.items (bs ++ [b]) (G.group b) = G.items bs (G.group b) ++ [b] := by
  simp [items]

lemma items_snoc_of_ne (h : G.group b ≠ k) : G.items (bs ++ [b]) k = G.items bs k := by
  simp [items, h]

lemma items_eq_nil : G.items bs k = [] ↔ k ∉ bs.map G.group := by
  simp [items]

lemma Tells.read (h : G.Tells bs xs) (b : β) : G.Tells (bs ++ [b]) (G.read xs b) := by
  unfold Grouping.read
  split
  case isTrue hmem =>
    have hkeys : (xs.map fun x => if G.key x = G.group b then G.step x b else x).map G.key =
        xs.map G.key := by
      rw [map_map]
      refine map_congr_left fun x _ => ?_
      simp only [Function.comp_apply, apply_ite G.key, G.key_step, ite_self]
    refine ⟨hkeys ▸ h.apart, fun k => ?_, fun x hx => ?_⟩
    · rw [hkeys, map_append, mem_append, map_singleton, mem_singleton, ← h.occurs]
      exact ⟨.inl, fun hk => hk.elim id (· ▸ hmem)⟩
    · obtain ⟨y, hy, rfl⟩ := mem_map.mp hx
      have hold := h.counted y hy
      split
      case isTrue heq =>
        have hne : G.items bs (G.group b) ≠ [] := fun hnil => items_eq_nil.mp hnil ((h.occurs _).mp hmem)
        rw [G.key_step, heq, items_snoc_self, G.entry_snoc _ _ hne, ← heq, ← hold]
      case isFalse hne => rwa [items_snoc_of_ne (Ne.symm hne)]
  case isFalse hnew =>
    refine ⟨?_, fun k => ?_, fun x hx => ?_⟩
    · rw [map_append, nodup_append_comm, map_singleton, G.key_entry]
      exact nodup_cons.mpr ⟨hnew, h.apart⟩
    · rw [map_append, map_append, mem_append, mem_append, h.occurs, map_singleton, G.key_entry,
        map_singleton]
    · rcases mem_append.mp hx with hx | hx
      · rw [items_snoc_of_ne fun heq => hnew (heq ▸ mem_map_of_mem hx)]
        exact h.counted x hx
      · -- No item before this one is of its group.
        rw [mem_singleton.mp hx, G.key_entry, items_snoc_self,
          items_eq_nil.mpr (mt (h.occurs _).mpr hnew), nil_append]

lemma sumOf_at {n : Nat} (hapart : (xs.map G.key).Nodup) (hk : k ∈ xs.map G.key) :
    sumOf (fun x => if k = G.key x then n else 0) xs = n := by
  induction xs with
  | nil => cases hk
  | cons x xs ih =>
    obtain ⟨hnotMem, hrest⟩ := nodup_cons.mp hapart
    rw [sumOf_cons]
    by_cases heq : k = G.key x
    · have hzero : sumOf (fun x => if k = G.key x then n else 0) xs = 0 := by
        refine sumOf_eq_zero.mpr fun y hy => if_neg fun hkey => hnotMem ?_
        exact heq ▸ hkey ▸ mem_map_of_mem hy
      rw [if_pos heq, hzero, Nat.add_zero]
    · rw [if_neg heq, Nat.zero_add]
      exact ih hrest ((mem_cons.mp hk).resolve_left heq)

lemma tells_foldl (bs : List β) : G.Tells bs (bs.foldl G.read []) := by
  induction bs using reverseRecOn with
  | nil => exact ⟨nodup_nil, by simp, by simp⟩
  | append_singleton bs b ih =>
    rw [foldl_append]
    exact ih.read b

/-- What the items weigh together is what the entries of their groups say. -/
lemma Tells.sumOf_column (h : G.Tells bs xs) {column : α → Nat} {w : β → Nat}
    (hcolumn : ∀ k, column (G.entry k (G.items bs k)) = sumOf w (G.items bs k)) :
    sumOf column xs = sumOf w bs := by
  have hgroups (cs : List β) (hcs : ∀ c ∈ cs, G.group c ∈ xs.map G.key) :
      sumOf (fun x => sumOf w (G.items cs (G.key x))) xs = sumOf w cs := by
    induction cs with
    | nil => exact sumOf_eq_zero.mpr fun _ _ => rfl
    | cons c cs ih =>
      obtain ⟨hc, hcs⟩ := forall_mem_cons.mp hcs
      have hsplit : (fun x => sumOf w (G.items (c :: cs) (G.key x))) = fun x =>
          (if G.group c = G.key x then w c else 0) + sumOf w (G.items cs (G.key x)) := by
        funext x
        by_cases hx : G.group c = G.key x <;> simp [items, hx]
      rw [hsplit, sumOf_add, sumOf_at h.apart hc, ih hcs, sumOf_cons]
  rw [← hgroups bs fun b hb => (h.occurs _).mpr (mem_map_of_mem hb)]
  exact sumOf_congr fun x hx => by rw [← hcolumn, ← h.counted x hx]

end Grouping

lemma sumOf_one {α : Type} (xs : List α) : sumOf (fun _ => 1) xs = xs.length := by
  induction xs with
  | nil => rfl
  | cons x xs ih => rw [sumOf_cons, ih, length_cons, Nat.add_comm]

end Tally

namespace Git

open Tally

/-! ## Statistics of a history -/

/-- An address that an author can have: a text, or none. -/
def IsAddress (v : Value) : Prop := v = .null ∨ ∃ s, v = .text s

/-- The commits of an author, in the order of the history. -/
def commitsBy (email : Value) (cs : List Commit) : List Commit :=
  cs.filter (·.author.email.same email)

/-- When an author committed last, if the newest commit stands first. -/
def newest? (email : Value) (cs : List Commit) : Option ZonedMoment :=
  (commitsBy email cs).head?.map (·.date)

/-- When an author committed first. -/
def oldest? (email : Value) (cs : List Commit) : Option ZonedMoment :=
  (commitsBy email cs).getLast?.map (·.date)

/-- The entry of an author. Both of its dates are those of the newest commit. -/
def authorEntry (email : Value) : List Commit → Contributor
  | [] => ⟨email, .null, 0, ⟨⟨0⟩, none⟩, ⟨⟨0⟩, none⟩⟩
  | c :: cs => ⟨email, c.author.name, cs.length + 1, c.date, c.date⟩

def byAuthor : Grouping Contributor Commit Value where
  key := (·.email)
  group := (·.author.email)
  entry := authorEntry
  step x _ := { x with commits := x.commits + 1 }
  key_entry _ cs := by cases cs <;> rfl
  key_step _ _ := rfl
  entry_snoc _ _ cs h := by
    cases cs with
    | nil => exact absurd rfl h
    | cons => simp [authorEntry]

def byName : Grouping (String × Nat) String String where
  key := (·.1)
  group := id
  entry name names := (name, names.length)
  step x _ := (x.1, x.2 + 1)
  key_entry _ _ := rfl
  key_step _ _ := rfl
  entry_snoc _ _ _ _ := by simp

lemma IsAddress.same_iff {v : Value} (hv : IsAddress v) (w : Value) :
    (v.same w = true ↔ v = w) ∧ (w.same v = true ↔ w = v) := by
  rcases hv with rfl | ⟨s, rfl⟩ <;> cases w <;> simp [Value.same, Value.number?]

lemma tally_eq_read (counts : List (String × Nat)) (name : String) :
    tally counts name = byName.read counts name := by
  have hmem : (counts.lookup name).isSome = true ↔ name ∈ counts.map (·.1) := by
    simp
  unfold tally
  simp only [hmem]
  rfl

lemma sumOf_activity (cs : List Commit) : sumOf (·.2) (activity cs) = cs.length := by
  have hsum : sumOf (·.2) (activity cs) = sumOf (fun _ => 1) (cs.map Commit.month) := by
    rw [activity, tallies, funext₂ tally_eq_read]
    exact (byName.tells_foldl _).sumOf_column fun _ => (sumOf_one _).symm
  rw [hsum, sumOf_one, length_map]

section

variable {cs : List Commit} (hcs : ∀ c ∈ cs, IsAddress c.author.email)

include hcs

lemma commitsBy_eq [DecidableEq Value] (email : Value) : commitsBy email cs = byAuthor.items cs email := by
  refine filter_congr fun c hc => ?_
  rw [Bool.eq_iff_iff, decide_eq_true_iff]
  exact ((hcs c hc).same_iff email).1

lemma contributors_eq [DecidableEq Value] : contributors cs = cs.foldl byAuthor.read [] := by
  refine foldl_ext _ _ _ fun xs c hc => ?_
  unfold addContribution
  simp only [any_eq_true, ((hcs c hc).same_iff _).2, ← mem_map (f := Contributor.email)]
  rfl

lemma tells_contributors [DecidableEq Value] : byAuthor.Tells cs (contributors cs) := by
  rw [contributors_eq hcs]
  exact byAuthor.tells_foldl cs

lemma entry_of_mem {x : Contributor} (hx : x ∈ contributors cs) :
    x.commits = (commitsBy x.email cs).length ∧ some x.last = newest? x.email cs ∧
      some x.first = newest? x.email cs := by
  classical
  have htells := tells_contributors hcs
  have hentry : x = authorEntry x.email (commitsBy x.email cs) := by
    rw [commitsBy_eq hcs]
    exact htells.counted x hx
  have hne : commitsBy x.email cs ≠ [] := by
    rw [commitsBy_eq hcs, ne_eq, Grouping.items_eq_nil, not_not, ← htells.occurs]
    exact mem_map_of_mem hx
  obtain ⟨c, rest, heq⟩ := exists_cons_of_ne_nil hne
  rw [heq] at hentry
  rw [newest?, heq]
  exact ⟨congrArg (·.commits) hentry, congrArg (some ·.last) hentry, congrArg (some ·.first) hentry⟩

end

/-- **Statistics of a history.** Every author has one entry, which tells the number of the author's
commits and when the newest was made. The entries of the authors and those of the months count all
commits. The oldest commits are told right exactly if no author committed at two different times
first and last. -/
theorem oldest_told_iff (r : Repository) (t : Tree) (root : Path)
    (hr : ∀ c ∈ r.commits, IsAddress c.author.email) :
    let xs := contributors r.commits
    let told := Fields.get? (statistics r t root)
    (told "contributors" = some (.object (xs.map fun x => (x.email.plain, contributorValue x))) ∧
      told "activity_by_month" = some (talliesValue (activity r.commits)) ∧
      told "total_commits" = some (.ofNat r.commits.length)) ∧
    (xs.map (·.email)).Nodup ∧ (∀ e, e ∈ xs.map (·.email) ↔ e ∈ r.commits.map (·.author.email)) ∧
    (∀ x ∈ xs, x.commits = (commitsBy x.email r.commits).length ∧
      some x.last = newest? x.email r.commits) ∧
    sumOf (·.commits) xs = r.commits.length ∧ sumOf (·.2) (activity r.commits) = r.commits.length ∧
    ((∀ x ∈ xs, some x.first = oldest? x.email r.commits) ↔
      ∀ e, newest? e r.commits = oldest? e r.commits) := by
  classical
  have htells := tells_contributors hr
  have hcommits : sumOf (·.commits) (contributors r.commits) = sumOf (fun _ => 1) r.commits :=
    htells.sumOf_column fun e => by
      cases byAuthor.items r.commits e <;> simp [byAuthor, authorEntry, sumOf_one, Nat.add_comm]
  refine ⟨⟨rfl, rfl, rfl⟩, htells.apart, htells.occurs, fun x hx => ?_, hcommits.trans (sumOf_one _),
    sumOf_activity _, fun h e => ?_, fun h x hx => ?_⟩
  · obtain ⟨hcount, hlast, _⟩ := entry_of_mem hr hx
    exact ⟨hcount, hlast⟩
  · by_cases hnone : commitsBy e r.commits = []
    · rw [newest?, oldest?, hnone]
      rfl
    · rw [commitsBy_eq hr, Grouping.items_eq_nil, not_not, ← htells.occurs] at hnone
      obtain ⟨x, hx, rfl⟩ := mem_map.mp hnone
      exact (entry_of_mem hr hx).2.2.symm.trans (h x hx)
  · exact (entry_of_mem hr hx).2.2.trans (h x.email)

def twoCommits : List Commit :=
  [1, 0].map fun n => ⟨"", ⟨.null, .text "a"⟩, ⟨.null, .null⟩, "", ⟨⟨n⟩, none⟩, ⟨⟨n⟩, none⟩, [], []⟩

/-- The older one of two commits is not told. -/
theorem older_commit_untold : (∀ c ∈ twoCommits, IsAddress c.author.email) ∧
    ¬∀ x ∈ contributors twoCommits, some x.first = oldest? x.email twoCommits := by
  have hr : ∀ c ∈ twoCommits, IsAddress c.author.email := fun c hc => by
    obtain ⟨n, _, rfl⟩ := mem_map.mp hc
    exact .inr ⟨"a", rfl⟩
  refine ⟨hr, fun h => ?_⟩
  have hsame := (oldest_told_iff { commits := twoCommits } .empty default hr).2.2.2.2.2.2.mp h
  exact absurd (hsame (.text "a")) (by decide)

end Git

end ReviewDesk
