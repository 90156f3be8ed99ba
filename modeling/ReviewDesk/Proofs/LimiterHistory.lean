import Mathlib.Tactic.Lemma
import ReviewDesk.Limiter

/-!
# The limiter against a full history

A limiter forgets the requests of a client when that client is checked again. As long as the clock
does not run backwards, it admits the same requests as an archive that never forgets, and no window
ever holds more admitted requests of a client than its share.
-/

namespace ReviewDesk.Limiter

open List

variable {l : Limiter} {now t : Int}

/-! ## Entries of a client -/

lemma lookup_change (client other : String) (f : List (Int × Nat) → List (Int × Nat))
    (cs : List (String × List (Int × Nat))) : (change client f cs).lookup other =
      if other = client then (cs.lookup client).map f else cs.lookup other := by
  induction cs with
  | nil => simp [change]
  | cons e cs ih =>
    obtain ⟨c, rs⟩ := e
    by_cases hc : c = client
    · subst hc
      by_cases ho : other = c
      · simp [change, ho]
      · have hb : (other == c) = false := by simp [ho]
        simp [change, lookup_cons, ho, hb]
    · have hb : (client == c) = false := by simp [Ne.symm hc]
      by_cases ho : other = client
      · subst ho
        simp only [change, hc, ↓reduceIte, lookup_cons, hb, ih]
      · simp only [change, hc, ↓reduceIte, lookup_cons, ih, ho]

def within (picks : Int → Bool) (rs : List (Int × Nat)) : Nat :=
  Tally.sumOf (·.2) (rs.filter fun r => picks r.1)

lemma within_countIn (picks : Int → Bool) (second : Int) (rs : List (Int × Nat)) :
    within picks (countIn second rs) = within picks rs + if picks second then 1 else 0 := by
  induction rs with
  | nil => by_cases h : picks second <;> simp [countIn, within, h]
  | cons r rs ih =>
    obtain ⟨s, n⟩ := r
    by_cases hs : s = second
    · subst hs
      by_cases h : picks s
      · simp only [countIn, within, h, ↓reduceIte, filter_cons, Tally.sumOf_cons]
        omega
      · simp [countIn, within, h]
    · simp only [countIn, hs, ↓reduceIte]
      by_cases h : picks s
      · simp only [within, filter_cons, h, ↓reduceIte, Tally.sumOf_cons] at ih ⊢
        omega
      · simpa [within, filter_cons, h] using ih

lemma within_filter (picks keeps : Int → Bool) (rs : List (Int × Nat)) :
    within picks (rs.filter fun r => keeps r.1) = within (fun s => picks s && keeps s) rs := by
  simp [within, filter_filter]

lemma total_eq_within (l : Limiter) (client : String) :
    l.total client = within (fun _ => true) (l.requests client) := by
  rw [within, filter_eq_self.mpr fun _ _ => rfl, total]

lemma requests_prune (l : Limiter) (now : Int) (client other : String) :
    (l.prune now client).requests other =
      if other = client then (l.requests client).filter fun r => now - l.window < r.1
      else l.requests other := by
  unfold requests prune
  rw [lookup_change]
  by_cases h : other = client
  · subst h
    cases l.counts.lookup other <;> simp
  · simp [h]

lemma requests_record (l : Limiter) (now : Int) (client other : String) :
    (l.record now client).requests other =
      if other = client then countIn now (l.requests client) else l.requests other := by
  unfold requests record
  simp only [lookup_change]
  cases hl : l.counts.lookup client with
  | some rs => by_cases h : other = client <;> simp [h, hl]
  | none =>
    by_cases h : other = client
    · simp [h, hl, lookup_append]
    · have hb : (other == client) = false := by simp [h]
      simp [h, lookup_append, lookup_cons, hb]

/-! ## Runs -/

/-- A request of a client, with the readings of the clock when it is checked and when it is counted.
-/
structure Visit where
  client : String
  checked : Int
  counted : Int
  deriving DecidableEq, Repr

def readings (vs : List Visit) : List Int := vs.flatMap fun v => [v.checked, v.counted]

def visit (l : Limiter) (v : Visit) : Limiter × Bool := l.accept v.checked v.counted v.client

def after (l : Limiter) : List Visit → Limiter
  | [] => l
  | v :: vs => (l.visit v).1.after vs

def decisions (l : Limiter) : List Visit → List Bool
  | [] => []
  | v :: vs => (l.visit v).2 :: (l.visit v).1.decisions vs

abbrev Log := List (String × Int)

def admitted (l : Limiter) : List Visit → Log
  | [] => []
  | v :: vs =>
    (if (l.visit v).2 then [(v.client, v.counted)] else []) ++ (l.visit v).1.admitted vs

/-- The requests of a client in the window that ends with the second `now`. -/
def recent (window now : Int) (client : String) (log : Log) : Nat :=
  log.countP fun e => e.1 = client && now - window < e.2 && e.2 ≤ now

/-! ## The archive -/

/-- A limiter that forgets nothing. -/
structure Archive where
  most : Int
  window : Int
  log : Log := []

namespace Archive

/-- Refuses a request of a client whose window holds its share. -/
def visit (a : Archive) (v : Visit) : Archive × Bool :=
  if a.most ≤ recent a.window v.checked v.client a.log then (a, false)
  else ({ a with log := a.log ++ [(v.client, v.counted)] }, true)

def after (a : Archive) : List Visit → Archive
  | [] => a
  | v :: vs => (a.visit v).1.after vs

def decisions (a : Archive) : List Visit → List Bool
  | [] => []
  | v :: vs => (a.visit v).2 :: (a.visit v).1.decisions vs

lemma visit_limits (a : Archive) (v : Visit) :
    (a.visit v).1.most = a.most ∧ (a.visit v).1.window = a.window := by
  unfold visit
  split <;> exact ⟨rfl, rfl⟩

lemma after_limits (a : Archive) (vs : List Visit) :
    (a.after vs).most = a.most ∧ (a.after vs).window = a.window := by
  induction vs generalizing a with
  | nil => exact ⟨rfl, rfl⟩
  | cons v vs ih =>
    obtain ⟨hm, hw⟩ := ih (a.visit v).1
    obtain ⟨hm', hw'⟩ := a.visit_limits v
    exact ⟨hm.trans hm', hw.trans hw'⟩

lemma visit_refused_iff (a : Archive) (v : Visit) :
    (a.visit v).2 = false ↔ a.most ≤ recent a.window v.checked v.client a.log := by
  unfold visit
  split <;> simp_all

end Archive

lemma recent_append (window now : Int) (client : String) (log more : Log) :
    recent window now client (log ++ more) =
      recent window now client log + recent window now client more :=
  countP_append ..

/-! ## One step

The archive is read with the seconds after a bound only: what is recorded is never later than the
clock, so that the end of the window does not matter.
-/

/-- The limiter counts what the archive holds, for every window that ends at `now` or later. -/
structure Follows (l : Limiter) (a : Archive) (now : Int) : Prop where
  most : l.most = a.most
  window : l.window = a.window
  past : ∀ e ∈ a.log, e.2 ≤ now
  counts : ∀ client t, now ≤ t →
    within (fun s => t - l.window < s) (l.requests client) = recent a.window t client a.log

lemma Follows.total_prune {a : Archive} (h : Follows l a now) (ht : now ≤ t) (client : String) :
    (l.prune t client).total client = recent a.window t client a.log := by
  rw [total_eq_within, requests_prune, if_pos rfl,
    within_filter _ (fun s => t - l.window < s), ← h.counts client t ht]
  simp

/-- Forgetting what has left a window does not change later windows. -/
lemma Follows.prune {a : Archive} (h : Follows l a now)
    (ht : now ≤ t) (client : String) : Follows (l.prune t client) a t where
  most := h.most
  window := h.window
  past e he := Int.le_trans (h.past e he) ht
  counts other u hu := by
    show within (fun s => u - l.window < s) ((l.prune t client).requests other) = _
    rw [requests_prune, ← h.counts other u (Int.le_trans ht hu)]
    by_cases ho : other = client
    · rw [if_pos ho, within_filter _ (fun s => t - l.window < s), ho]
      congr 1
      funext s
      have hs : u - l.window < s → t - l.window < s := by omega
      by_cases hu : u - l.window < s
      · simp [hu, hs hu]
      · simp [hu]
    · rw [if_neg ho]

lemma Follows.record {a : Archive} (h : Follows l a now) (ht : now ≤ t) (client : String) :
    Follows (l.record t client) { a with log := a.log ++ [(client, t)] } t where
  most := h.most
  window := h.window
  past e he := by
    rcases mem_append.mp he with he | he
    · exact Int.le_trans (h.past e he) ht
    · exact Int.le_of_eq (congrArg Prod.snd (mem_singleton.mp he))
  counts other u hu := by
    show within (fun s => u - l.window < s) ((l.record t client).requests other) = _
    rw [requests_record, recent_append, ← h.counts other u (Int.le_trans ht hu)]
    by_cases ho : other = client
    · rw [if_pos ho, within_countIn, ho]
      simp [recent, h.window, hu]
    · have hn : ¬ client = other := fun e => ho e.symm
      simp [recent, ho, hn]

/-- One request: both decide alike, and the limiter goes on following the archive. -/
lemma Follows.visit {a : Archive} (h : Follows l a now) (v : Visit)
    (hc : now ≤ v.checked) (hr : v.checked ≤ v.counted) :
    (l.visit v).2 = (a.visit v).2 ∧ Follows (l.visit v).1 (a.visit v).1 v.counted := by
  have htotal := h.total_prune hc v.client
  have hpruned := h.prune hc v.client
  have hfull : (l.prune v.checked v.client).full v.client =
      decide (a.most ≤ recent a.window v.checked v.client a.log) := by
    rw [full, htotal]
    show decide (l.most ≤ _) = _
    rw [h.most]
  by_cases hm : a.most ≤ recent a.window v.checked v.client a.log
  · have hl : l.visit v = (l.prune v.checked v.client, false) := by
      simp [Limiter.visit, accept, check, hfull, hm]
    have ha : a.visit v = (a, false) := if_pos hm
    rw [hl, ha]
    exact ⟨rfl, hpruned.most, hpruned.window, fun e he => Int.le_trans (hpruned.past e he) hr,
      fun client t ht => hpruned.counts client t (Int.le_trans hr ht)⟩
  · have hl : l.visit v = ((l.prune v.checked v.client).record v.counted v.client, true) := by
      simp [Limiter.visit, accept, check, hfull, hm]
    have ha : a.visit v = ({ a with log := a.log ++ [(v.client, v.counted)] }, true) := if_neg hm
    rw [hl, ha]
    exact ⟨rfl, hpruned.record hr v.client⟩

/-! ## Whole runs -/

def Forward (now : Int) (vs : List Visit) : Prop := (now :: readings vs).Pairwise (· ≤ ·)

lemma forward_cons {v : Visit} {vs : List Visit} (h : Forward now (v :: vs)) :
    now ≤ v.checked ∧ v.checked ≤ v.counted ∧ Forward v.counted vs := by
  simp only [Forward, readings, flatMap_cons, cons_append, nil_append,
    pairwise_cons] at h
  obtain ⟨hnow, hchecked, hrest⟩ := h
  exact ⟨hnow _ (by simp), hchecked _ (by simp), pairwise_cons.mpr hrest⟩

lemma Follows.run {a : Archive} (h : Follows l a now)
    (vs ws : List Visit) (hv : Forward now (vs ++ ws)) :
    l.decisions vs = a.decisions vs ∧ (a.after vs).log = a.log ++ l.admitted vs ∧
      ∃ last, Forward last ws ∧ Follows (l.after vs) (a.after vs) last := by
  induction vs generalizing l a now with
  | nil => exact ⟨rfl, (append_nil _).symm, now, hv, h⟩
  | cons v vs ih =>
    obtain ⟨hc, hr, hrest⟩ := forward_cons hv
    obtain ⟨hsame, hnext⟩ := h.visit v hc hr
    obtain ⟨hdec, hlog, hlast⟩ := ih hnext hrest
    refine ⟨by simp only [decisions, Archive.decisions, hsame, hdec], ?_, hlast⟩
    have hone : (a.visit v).1.log =
        a.log ++ if (a.visit v).2 then [(v.client, v.counted)] else [] := by
      unfold Archive.visit
      split <;> simp
    simp only [Archive.after, admitted, hlog, hone, hsame, append_assoc]

/-- No window of a client holds more than its share. -/
def Archive.Fair (a : Archive) : Prop :=
  ∀ client t, (recent a.window t client a.log : Int) ≤ max 0 a.most

/-- A window that holds the second in which a request is counted ends after the request was checked,
so that all it holds of the past is also in the window of the check. -/
lemma recent_le_recent {log : Log} {checked : Int} (window : Int) (client : String)
    (hpast : ∀ e ∈ log, e.2 ≤ checked) (ht : checked ≤ t) :
    recent window t client log ≤ recent window checked client log := by
  apply countP_mono_left
  intro e he hin
  have hle := hpast e he
  simp only [Bool.and_eq_true, decide_eq_true_eq] at hin ⊢
  obtain ⟨⟨hclient, hlow⟩, _⟩ := hin
  exact ⟨⟨hclient, by omega⟩, hle⟩

lemma Archive.fair_visit {a : Archive} {v : Visit} (h : a.Fair)
    (hpast : ∀ e ∈ a.log, e.2 ≤ v.checked) (hr : v.checked ≤ v.counted) : (a.visit v).1.Fair := by
  unfold Archive.visit
  split
  · exact h
  · rename_i hm
    intro client t
    have hold := h client t
    simp only [recent_append]
    by_cases hin : v.client = client ∧ t - a.window < v.counted ∧ v.counted ≤ t
    · obtain ⟨hclient, hlow, hhigh⟩ := hin
      have hle := recent_le_recent a.window v.client hpast (Int.le_trans hr hhigh)
      have hone : recent a.window t client [(v.client, v.counted)] = 1 := by
        simp [recent, hclient, hlow, hhigh]
      rw [hone, ← hclient]
      omega
    · have hzero : recent a.window t client [(v.client, v.counted)] = 0 := by
        simp only [recent, countP_eq_zero, mem_singleton, forall_eq, Bool.and_eq_true,
          decide_eq_true_eq, and_assoc]
        exact hin
      rw [hzero]
      exact hold

lemma Follows.fair {a : Archive} (h : Follows l a now) (hf : a.Fair)
    (vs : List Visit) (hv : Forward now vs) : (a.after vs).Fair := by
  induction vs generalizing l a now with
  | nil => exact hf
  | cons v vs ih =>
    obtain ⟨hc, hr, hrest⟩ := forward_cons hv
    have hpast : ∀ e ∈ a.log, e.2 ≤ v.checked := fun e he => Int.le_trans (h.past e he) hc
    exact ih (h.visit v hc hr).2 (Archive.fair_visit hf hpast hr) hrest

/-! ## A new limiter -/

def fresh (most window : Int) : Limiter := { most, window }

lemma fresh_follows (most window now : Int) :
    Follows (fresh most window) ⟨most, window, []⟩ now where
  most := rfl
  window := rfl
  past e he := by cases he
  counts _ _ _ := rfl

lemma fresh_fair (most window : Int) : (Archive.mk most window []).Fair := by
  intro client t
  show ((0 : Nat) : Int) ≤ max 0 most
  omega

lemma forward_head {v : Visit} {vs : List Visit}
    (h : (readings (v :: vs)).Pairwise (· ≤ ·)) : Forward v.checked (v :: vs) := by
  refine pairwise_cons.mpr ⟨?_, h⟩
  intro r hr
  rcases mem_cons.mp hr with rfl | hr
  · exact Int.le_refl _
  · exact (pairwise_cons.mp h).1 r hr

/-- **A limiter decides by the whole history.** While the clock does not run backwards, a request is
refused exactly if the window that ends with its check holds the share of its client; these are the
decisions of the archive; and no window ever holds more than the share. -/
theorem refused_iff_share_used (most window : Int) (vs : List Visit)
    (h : (readings vs).Pairwise (· ≤ ·)) : (∀ before v rest, vs = before ++ v :: rest →
      ((((fresh most window).after before).visit v).2 = false ↔
        most ≤ recent window v.checked v.client ((fresh most window).admitted before))) ∧
    (fresh most window).decisions vs = (Archive.mk most window []).decisions vs ∧ ∀ client second,
      (recent window second client ((fresh most window).admitted vs) : Int) ≤ max 0 most := by
  obtain ⟨now, hv⟩ : ∃ now, Forward now vs := by
    cases vs with
    | nil => exact ⟨0, pairwise_singleton _ _⟩
    | cons v vs => exact ⟨v.checked, forward_head h⟩
  have hstart := fresh_follows most window now
  obtain ⟨hdec, hlog, _⟩ := hstart.run vs [] (by rwa [append_nil])
  refine ⟨?_, hdec, ?_⟩
  · rintro before v rest rfl
    obtain ⟨_, hlog, last, hlast, hf⟩ := hstart.run before (v :: rest) hv
    obtain ⟨hm, hw⟩ := Archive.after_limits ⟨most, window, []⟩ before
    obtain ⟨hc, hr, _⟩ := forward_cons hlast
    rw [(hf.visit v hc hr).1, Archive.visit_refused_iff, hm, hw, hlog, nil_append]
  · intro client second
    have hfair := hstart.fair (fresh_fair most window) vs hv client second
    obtain ⟨hm, hw⟩ := Archive.after_limits ⟨most, window, []⟩ vs
    rwa [hm, hw, hlog, nil_append] at hfair

def atTheEdge : List Visit :=
  [⟨"a", 0, 1⟩, ⟨"a", 2, 2⟩, ⟨"b", 3, 3⟩, ⟨"a", 10, 10⟩, ⟨"a", 11, 12⟩]

theorem refused_at_the_edge : (readings atTheEdge).Pairwise (· ≤ ·) ∧
      (fresh 2 10).decisions atTheEdge = [true, true, true, false, true] := by
  have h : (readings atTheEdge).Pairwise (· ≤ ·) := by decide
  exact ⟨h, (refused_iff_share_used 2 10 atTheEdge h).2.1.trans (by decide)⟩

end ReviewDesk.Limiter
