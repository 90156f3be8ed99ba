import Mathlib.Tactic.FinCases
import ReviewDesk.Http.Site
import ReviewDesk.Proofs.LimiterHistory

/-!
# Requests that overlap at the limiter

While the layers inside are at work on a request, the limiter takes up others. Each request is
checked, it is counted, and when the layers inside have answered, the client is told its quota. All
clients share the counts of one limiter, and a run is any order of such steps. Still what becomes of
the requests of one client is what becomes of them if nobody else is there.
-/

namespace ReviewDesk

open List Limiter Option

variable {client : String} {l : Limiter} {q : Request}

namespace Limiter

/-! ## What concerns one client -/

/-- Two limiters that are the same for a client. -/
structure Agree (client : String) (l l' : Limiter) : Prop where
  most : l.most = l'.most
  window : l.window = l'.window
  requests : l.requests client = l'.requests client

variable {other : String} {l' : Limiter}

lemma Agree.refl (client : String) (l : Limiter) : Agree client l l := ⟨rfl, rfl, rfl⟩

lemma Agree.trans {l'' : Limiter} (h : Agree client l l') (h' : Agree client l' l'') :
    Agree client l l'' :=
  ⟨h.most.trans h'.most, h.window.trans h'.window, h.requests.trans h'.requests⟩

lemma Agree.total (h : Agree client l l') : l.total client = l'.total client := by
  unfold Limiter.total
  rw [h.requests]

lemma Agree.prune (h : Agree client l l') (now : Int) :
    Agree client (l.prune now client) (l'.prune now client) where
  most := h.most
  window := h.window
  requests := by rw [requests_prune, requests_prune, if_pos rfl, if_pos rfl, h.requests, h.window]

lemma Agree.record (h : Agree client l l') (now : Int) :
    Agree client (l.record now client) (l'.record now client) where
  most := h.most
  window := h.window
  requests := by rw [requests_record, requests_record, if_pos rfl, if_pos rfl, h.requests]

lemma Agree.full (h : Agree client l l') : l.full client = l'.full client := by
  unfold Limiter.full
  rw [h.most, h.total]

lemma Agree.quota (h : Agree client l l') (now : Int) :
    l.quota now client = l'.quota now client := by
  unfold Limiter.quota
  rw [h.most, h.window, h.total]

lemma agree_prune (h : client ≠ other) (l : Limiter) (now : Int) :
    Agree client (l.prune now other) l :=
  ⟨rfl, rfl, by rw [requests_prune, if_neg h]⟩

lemma agree_record (h : client ≠ other) (l : Limiter) (now : Int) :
    Agree client (l.record now other) l :=
  ⟨rfl, rfl, by rw [requests_record, if_neg h]⟩

end Limiter

namespace Http

open Limiter (Quota)

/-! ## One request -/

/-- How far a request is. -/
inductive Stage where
  | outside
  /-- The request was checked and is within the limit of its client. -/
  | passed
  /-- The layers inside are at work; `counted` says whether the request counts. -/
  | inside (counted : Bool)
  | refused
  /-- The layers inside are done, and the client of a request that counts is told its quota. -/
  | left (quota : Option Quota)

inductive Decision where
  | exempted
  | admitted
  | refused
  deriving DecidableEq

def Stage.decision? : Stage → Option Decision
  | .outside => none
  | .passed | .inside true | .left (some _) => some .admitted
  | .inside false | .left none => some .exempted
  | .refused => some .refused

/-- What the limiter makes of the answer of the layers inside. -/
def Stage.response? (inner : Option Response) : Stage → Option Response
  | .left none => inner
  | .left (some quota) => inner.map (·.withHeaders (Site.quotaHeaders quota))
  | _ => none

/-- The next step of a request, taken in a second. -/
def advance (q : Request) (now : Int) (l : Limiter) : Stage → Limiter × Stage
  | .outside =>
    if exempt.contains (Site.limitedPath q) then (l, .inside false)
    else
      match l.check now (Site.clientOf q) with
      | (l, true) => (l, .refused)
      | (l, false) => (l, .passed)
  | .passed => (l.record now (Site.clientOf q), .inside true)
  | .inside true => (l, .left (some (l.quota now (Site.clientOf q))))
  | .inside false => (l, .left none)
  | stage => (l, stage)

lemma advance_exempt (h : exempt.contains (Site.limitedPath q) = true)
    (now : Int) (l : Limiter) : advance q now l .outside = (l, .inside false) :=
  if_pos h

lemma advance_limited (h : exempt.contains (Site.limitedPath q) = false)
    (now : Int) (l : Limiter) : advance q now l .outside = (l.prune now (Site.clientOf q),
        if (l.prune now (Site.clientOf q)).full (Site.clientOf q) then .refused else .passed) := by
  simp only [advance, h, Bool.false_eq_true, ↓reduceIte, check]
  cases (l.prune now (Site.clientOf q)).full (Site.clientOf q) <;> rfl

lemma agree_advance (h : client ≠ Site.clientOf q) (now : Int)
    (l : Limiter) (stage : Stage) : Limiter.Agree client (advance q now l stage).1 l := by
  cases stage with
  | outside =>
    cases hexempt : exempt.contains (Site.limitedPath q) with
    | true =>
      rw [advance_exempt hexempt]
      exact .refl ..
    | false =>
      rw [advance_limited hexempt]
      exact agree_prune h l now
  | passed => exact agree_record h l now
  | inside counted => cases counted <;> exact .refl ..
  | refused | left _ => exact .refl ..

/-- What a step does depends on nothing but what concerns the client. -/
lemma advance_of_agree {l' : Limiter}
    (h : Limiter.Agree (Site.clientOf q) l l') (now : Int) (stage : Stage) :
    (advance q now l stage).2 = (advance q now l' stage).2 ∧
      Limiter.Agree (Site.clientOf q) (advance q now l stage).1 (advance q now l' stage).1 := by
  cases stage with
  | outside =>
    cases hexempt : exempt.contains (Site.limitedPath q) with
    | true =>
      rw [advance_exempt hexempt, advance_exempt hexempt]
      exact ⟨rfl, h⟩
    | false =>
      rw [advance_limited hexempt, advance_limited hexempt, (h.prune now).full]
      exact ⟨rfl, h.prune now⟩
  | passed => exact ⟨rfl, h.record now⟩
  | inside counted =>
    cases counted with
    | true => exact ⟨congrArg (Stage.left ∘ some) (h.quota now), h⟩
    | false => exact ⟨rfl, h⟩
  | refused | left _ => exact ⟨rfl, h⟩

/-- Hands a request that the limiter has let through to the layers inside, and then lets it leave. -/
def Site.handOn (s : Site) (q : Request) (l : Limiter) (stage : Stage) : Site × Response :=
  let (s', inner) := { s with limiter := l }.enter q
  (s', q.sent (((advance q s.desk.now.seconds l stage).2.response? inner).getD .errorPage))

/-- A request that nobody interrupts is served in these steps. -/
lemma serve_eq_steps (s : Site) (q : Request) :
    let now := s.desk.now.seconds
    s.serve q =
      match advance q now s.limiter .outside with
      | (l, .passed) => s.handOn q (advance q now l .passed).1 (.inside true)
      | (l, .inside counted) => s.handOn q l (.inside counted)
      | (l, _) => ({ s with limiter := l }, q.sent .errorPage) := by
  unfold Site.serve advance accept
  cases hexempt : exempt.contains (Site.limitedPath q) with
  | true => simp only [↓reduceIte, Site.handOn, advance, Stage.response?]
  | false =>
    simp only [Bool.false_eq_true, ↓reduceIte]
    rcases s.limiter.check s.desk.now.seconds (Site.clientOf q) with ⟨l, _ | _⟩
    · simp only [Site.handOn, advance, Stage.response?]
      rcases Site.enter _ q with ⟨s', _ | r⟩ <;> rfl
    · rfl

/-! ## All requests -/

/-- Whose step it is, and in which second. -/
structure Step (ι : Type) where
  request : ι
  second : Int

/-- The limiter and the requests that are under way. -/
structure Traffic (ι : Type) where
  limiter : Limiter
  stage : ι → Stage

namespace Traffic

variable {ι : Type} (request : ι → Request)

def opened (l : Limiter) : Traffic ι := { limiter := l, stage := fun _ => .outside }

variable [DecidableEq ι]

def afterStep (t : Traffic ι) (x : Step ι) : Traffic ι :=
  let next := advance (request x.request) x.second t.limiter (t.stage x.request)
  { limiter := next.1, stage := Function.update t.stage x.request next.2 }

def after (t : Traffic ι) (xs : List (Step ι)) : Traffic ι := xs.foldl (afterStep request) t

def stepsOf (client : String) (xs : List (Step ι)) : List (Step ι) :=
  xs.filter fun x => Site.clientOf (request x.request) = client

/-- Two runs that have got equally far with the requests of a client. -/
structure Alike (client : String) (t t' : Traffic ι) : Prop where
  limiter : Limiter.Agree client t.limiter t'.limiter
  stage : ∀ i, Site.clientOf (request i) = client → t.stage i = t'.stage i

variable {request} {t t' : Traffic ι}

lemma stage_afterStep_self (t : Traffic ι) (x : Step ι) :
    (t.afterStep request x).stage x.request =
      (advance (request x.request) x.second t.limiter (t.stage x.request)).2 :=
  Function.update_self ..

lemma stage_afterStep_ne {i : ι} {x : Step ι} (h : i ≠ x.request) :
    (t.afterStep request x).stage i = t.stage i :=
  Function.update_of_ne h ..

lemma Alike.afterStep_other (h : Alike request client t t') {x : Step ι}
    (hx : Site.clientOf (request x.request) ≠ client) :
    Alike request client (t.afterStep request x) t' where
  limiter := (agree_advance hx.symm ..).trans h.limiter
  stage i hi := by
    rw [stage_afterStep_ne fun heq => hx (heq ▸ hi)]
    exact h.stage i hi

lemma Alike.afterStep_own (h : Alike request client t t') {x : Step ι}
    (hx : Site.clientOf (request x.request) = client) :
    Alike request client (t.afterStep request x) (t'.afterStep request x) := by
  subst hx
  obtain ⟨hstage, hlimiter⟩ := advance_of_agree h.limiter x.second (t.stage x.request)
  have hown := h.stage x.request rfl
  refine ⟨?_, fun i hi => ?_⟩
  · rw [hown] at hlimiter
    simp only [afterStep, hown]
    exact hlimiter
  · by_cases hsame : i = x.request
    · rw [hsame, stage_afterStep_self, stage_afterStep_self, hstage, hown]
    · rw [stage_afterStep_ne hsame, stage_afterStep_ne hsame]
      exact h.stage i hi

/-- A run with all requests and the run with those of one client. -/
lemma Alike.after (h : Alike request client t t') (xs : List (Step ι)) :
    Alike request client (t.after request xs) (t'.after request (stepsOf request client xs)) := by
  induction xs generalizing t t' with
  | nil => exact h
  | cons x xs ih =>
    by_cases hx : Site.clientOf (request x.request) = client
    · have hsteps : stepsOf request client (x :: xs) = x :: stepsOf request client xs :=
        filter_cons_of_pos (by simpa using hx)
      rw [hsteps]
      exact ih (h.afterStep_own hx)
    · have hsteps : stepsOf request client (x :: xs) = stepsOf request client xs :=
        filter_cons_of_neg (by simpa using hx)
      rw [hsteps]
      exact ih (h.afterStep_other hx)

end Traffic

/-! ## Headers -/

def Response.header? (r : Response) (name : String) : Option String := r.headers.lookup name

lemma lookup_cons_ite (name value other : String) (hs : List (String × String)) :
    ((name, value) :: hs).lookup other = if other = name then some value else hs.lookup other := by
  rw [lookup_cons]
  by_cases h : other = name
  · simp [h]
  · have hb : (other == name) = false := by simp [h]
    simp [h, hb]

lemma lookup_replaced (hs : List (String × String)) (name value other : String) :
    (hs.map fun h => if h.1 == name then (name, value) else h).lookup other =
      if other = name then (hs.lookup name).map fun _ => value else hs.lookup other := by
  induction hs with
  | nil => simp
  | cons h hs ih =>
    obtain ⟨n, v⟩ := h
    simp only [map_cons, beq_iff_eq] at ih ⊢
    by_cases hn : n = name
    · subst hn
      rw [if_pos rfl, lookup_cons_ite, ih, lookup_cons_ite, lookup_cons_ite, if_pos rfl]
      split <;> rfl
    · rw [if_neg hn, lookup_cons_ite, ih, lookup_cons_ite, lookup_cons_ite,
        if_neg (Ne.symm hn)]
      by_cases ho : other = name
      · rw [if_pos ho, if_pos ho, if_neg fun h => hn (h.symm.trans ho)]
      · rw [if_neg ho, if_neg ho]

lemma isSome_lookup (hs : List (String × String)) (name : String) :
    (hs.lookup name).isSome = hs.any (·.1 == name) := by
  induction hs with
  | nil => rfl
  | cons h hs ih =>
    obtain ⟨n, v⟩ := h
    rw [lookup_cons_ite, any_cons, ← ih]
    by_cases hn : name = n
    · simp [hn]
    · have hb : (n == name) = false := by simp [Ne.symm hn]
      simp [hn, hb]

lemma Response.header?_withHeader (r : Response) (name value other : String) :
    (r.withHeader name value).header? other =
      if other = name then some value else r.header? other := by
  have hsome := isSome_lookup r.headers name
  simp only [header?, withHeader]
  cases hany : r.headers.any (·.1 == name) with
  | true =>
    rw [hany] at hsome
    obtain ⟨old, hold⟩ := isSome_iff_exists.mp hsome
    rw [if_pos rfl, lookup_replaced, hold, map_some]
  | false =>
    rw [hany] at hsome
    have hnone := isSome_eq_false_iff.mp hsome
    rw [if_neg Bool.false_ne_true, lookup_append, lookup_cons_ite, lookup_nil]
    by_cases ho : other = name
    · rw [if_pos ho, if_pos ho, ho, isNone_iff_eq_none.mp hnone]
      rfl
    · rw [if_neg ho, if_neg ho, or_none]

def limitHeaders : List String := ["x-ratelimit-limit", "x-ratelimit-remaining"]

lemma quotaHeaders_eq (quota : Quota) : Site.quotaHeaders quota =
      [("x-ratelimit-limit", Value.intText quota.limit),
        ("x-ratelimit-remaining", Value.intText quota.remaining),
        ("x-ratelimit-reset", Value.intText quota.reset)] := by
  have hlimit : Text.lowered "X-RateLimit-Limit" = "x-ratelimit-limit" := by decide +kernel
  have hremaining : Text.lowered "X-RateLimit-Remaining" = "x-ratelimit-remaining" := by
    decide +kernel
  have hreset : Text.lowered "X-RateLimit-Reset" = "x-ratelimit-reset" := by decide +kernel
  simp only [Site.quotaHeaders, Quota.headers, map_cons, map_nil, hlimit, hremaining, hreset]

/-- What a client is told does not depend on what the layers inside have answered. -/
lemma header?_withQuota (r r' : Response) (quota : Quota) {name : String}
    (hname : name ∈ limitHeaders) : (r.withHeaders (Site.quotaHeaders quota)).header? name =
      (r'.withHeaders (Site.quotaHeaders quota)).header? name := by
  simp only [quotaHeaders_eq, Response.withHeaders, foldl_cons, foldl_nil,
    Response.header?_withHeader]
  fin_cases hname <;> rfl

/-- **Clients do not notice each other.** Whatever requests overlap and in whatever order their steps
are taken, a request is decided as in the run that has only the steps of its own client, in the same
seconds. If the layers inside answer it alike in both runs, so does the limiter; and if they do not,
the client of an admitted request is still told the same limit and the same remaining number. -/
theorem clients_apart {ι : Type} [DecidableEq ι] (request : ι → Request) (l : Limiter)
    (xs : List (Step ι)) (inner inner' : ι → Option Response) (i : ι) :
    let all := (Traffic.opened l).after request xs
    let alone := (Traffic.opened l).after request
      (Traffic.stepsOf request (Site.clientOf (request i)) xs)
    (all.stage i).decision? = (alone.stage i).decision? ∧
      (inner i = inner' i →
        (all.stage i).response? (inner i) = (alone.stage i).response? (inner' i)) ∧
      ((all.stage i).decision? = some .admitted → ∀ r r',
        (all.stage i).response? (inner i) = some r →
        (alone.stage i).response? (inner' i) = some r' →
        ∀ name ∈ limitHeaders, r.header? name = r'.header? name) := by
  intro all alone
  have hstart : Traffic.Alike request (Site.clientOf (request i)) (Traffic.opened l)
      (Traffic.opened l) := ⟨.refl .., fun _ _ => rfl⟩
  have hstage : all.stage i = alone.stage i := (hstart.after xs).stage i rfl
  rw [← hstage]
  refine ⟨rfl, fun hinner => by rw [hinner], fun hadmitted r r' hr hr' name hname => ?_⟩
  cases hleft : all.stage i with
  | outside | passed | refused => rw [hleft] at hr; cases hr
  | inside counted => rw [hleft] at hr; cases hr
  | left quota =>
    cases quota with
    | none => rw [hleft] at hadmitted; cases hadmitted
    | some quota =>
      rw [hleft] at hr hr'
      obtain ⟨a, _, rfl⟩ := Option.map_eq_some_iff.mp hr
      obtain ⟨b, _, rfl⟩ := Option.map_eq_some_iff.mp hr'
      exact header?_withQuota a b quota hname

def mixedRequests (i : Nat) : Request := { path := "/", client := some (if i = 1 then "b" else "a") }

/-- The second request goes through the limiter while the first is on its way, which leaves the share
of the first client as it is: the first is told that nothing remains, and the third is refused. -/
theorem second_client_unnoticed :
    let xs : List (Step Nat) := [⟨0, 5⟩, ⟨1, 5⟩, ⟨1, 6⟩, ⟨0, 6⟩, ⟨2, 7⟩, ⟨1, 8⟩, ⟨0, 9⟩]
    let inner : Nat → Option Response := fun _ => some (.text 200 "OK")
    let all := (Traffic.opened (Limiter.fresh 1 10)).after mixedRequests xs
    let alone := (Traffic.opened (Limiter.fresh 1 10)).after mixedRequests
      (Traffic.stepsOf mixedRequests "a" xs)
    [0, 1, 2].map (fun i => (all.stage i).decision?) =
        [some .admitted, some .admitted, some .refused] ∧
      (Traffic.stepsOf mixedRequests "a" xs).map (·.request) = [0, 0, 2, 0] ∧
      ((all.stage 0).response? (inner 0)).map (limitHeaders.map ·.header?) =
        some [some "1", some "0"] ∧
      (all.stage 0).response? (inner 0) = (alone.stage 0).response? (inner 0) ∧
      (all.stage 2).decision? = (alone.stage 2).decision? := by
  intro xs inner all alone
  obtain ⟨_, hresponse, _⟩ :=
    clients_apart mixedRequests (Limiter.fresh 1 10) xs inner inner 0
  obtain ⟨hdecision, _⟩ := clients_apart mixedRequests (Limiter.fresh 1 10) xs inner inner 2
  exact ⟨by decide +kernel, by decide +kernel, by decide +kernel, hresponse rfl, hdecision⟩

end Http

/-!
## What a refused client is told

The limiter refuses a request by a fault, but the layer that answers faults stands inside the
limiter. So along every run a client that is over its limit gets the page of an internal error,
without the status and the header that the fault carries, and nothing inside the limiter sees the
request.
-/

namespace Limiter

variable {now counted : Int}

lemma accept_full (h : (l.check now client).2 = true) :
    l.accept now counted client = (l.prune now client, false) := by
  have hfull : (l.prune now client).full client = true := h
  simp only [accept, check, hfull]

lemma accept_within (h : (l.check now client).2 = false) :
    l.accept now counted client = ((l.prune now client).record counted client, true) := by
  have hfull : (l.prune now client).full client = false := h
  simp only [accept, check, hfull]

lemma exists_forward {vs : List Visit} (h : (readings vs).Pairwise (· ≤ ·)) :
    ∃ now, Forward now vs := by
  cases vs with
  | nil => exact ⟨0, pairwise_singleton _ _⟩
  | cons v vs => exact ⟨v.checked, forward_head h⟩

/-- After a run, a client is found to be over its limit if the window holds its share. -/
lemma check_after_iff (most window : Int) {vs : List Visit} {v : Visit}
    (h : (readings (vs ++ [v])).Pairwise (· ≤ ·)) :
    (((fresh most window).after vs).check v.checked v.client).2 = true ↔
      most ≤ recent window v.checked v.client ((fresh most window).admitted vs) := by
  obtain ⟨now, hforward⟩ := exists_forward h
  obtain ⟨_, hlog, last, hlast, hfollows⟩ := (fresh_follows most window now).run vs [v] hforward
  obtain ⟨hmost, hwindow⟩ := Archive.after_limits ⟨most, window, []⟩ vs
  have htotal := hfollows.total_prune (forward_cons hlast).1 v.client
  show decide (_ ≤ _) = true ↔ _
  rw [decide_eq_true_iff, htotal, hwindow, hlog, nil_append]
  show ((fresh most window).after vs).most ≤ _ ↔ _
  rw [hfollows.most, hmost]

lemma after_append (l : Limiter) (vs ws : List Visit) :
    l.after (vs ++ ws) = (l.after vs).after ws := by
  induction vs generalizing l with
  | nil => rfl
  | cons v vs ih => exact ih _

end Limiter

namespace Http

lemma Request.status_sent (q : Request) (r : Response) : (q.sent r).status = r.status := by
  unfold sent
  split <;> rfl

lemma Request.headers_sent (q : Request) (r : Response) : (q.sent r).headers = r.headers := by
  unfold sent
  split <;> rfl

namespace Site

variable {s : Site}

/-! ## One request -/

/-- The site with other layers inside the limiter. -/
def serveThrough (inner : Site → Request → Site × Option Response) (s : Site) (q : Request) :
    Site × Response :=
  if exempt.contains (limitedPath q) then
    let (s, r) := inner s q
    (s, q.sent (r.getD .errorPage))
  else
    let now := s.desk.now.seconds
    let client := clientOf q
    match s.limiter.accept now now client with
    | (l, false) => ({ s with limiter := l }, q.sent .errorPage)
    | (l, true) =>
      let (s, r) := inner { s with limiter := l } q
      match r with
      | some r => (s, q.sent (r.withHeaders (quotaHeaders (l.quota now client))))
      | none => (s, q.sent .errorPage)

lemma serve_eq_serveThrough (s : Site) (q : Request) : s.serve q = s.serveThrough enter q := rfl

/-- The request counts, and the limiter finds that its client has used up its share. -/
def overLimit (s : Site) (q : Request) : Bool :=
  !exempt.contains (limitedPath q) &&
    (s.limiter.check s.desk.now.seconds (clientOf q)).2

lemma overLimit_exempt (h : exempt.contains (limitedPath q) = true)
    (s : Site) : s.overLimit q = false := by
  rw [overLimit, h, Bool.not_true, Bool.false_and]

lemma overLimit_counted (h : exempt.contains (limitedPath q) = false)
    (s : Site) : s.overLimit q = (s.limiter.check s.desk.now.seconds (clientOf q)).2 := by
  rw [overLimit, h, Bool.not_false, Bool.true_and]

lemma serveThrough_over (h : s.overLimit q = true)
    (inner : Site → Request → Site × Option Response) : s.serveThrough inner q =
      ({ s with limiter := s.limiter.prune s.desk.now.seconds (clientOf q) },
        q.sent .errorPage) := by
  cases hexempt : exempt.contains (limitedPath q) with
  | true =>
    rw [overLimit_exempt hexempt] at h
    cases h
  | false =>
    rw [overLimit_counted hexempt] at h
    rw [serveThrough, hexempt, if_neg Bool.false_ne_true]
    simp only [accept_full h]

lemma serveThrough_within (h : s.overLimit q = false) :
    ∃ l, ∀ inner, (s.serveThrough inner q).1 = (inner { s with limiter := l } q).1 := by
  cases hexempt : exempt.contains (limitedPath q) with
  | true =>
    refine ⟨s.limiter, fun inner => ?_⟩
    rw [serveThrough, if_pos hexempt]
  | false =>
    rw [overLimit_counted hexempt] at h
    let now := s.desk.now.seconds
    refine ⟨(s.limiter.prune now (clientOf q)).record now (clientOf q), fun inner => ?_⟩
    rw [serveThrough, hexempt, if_neg Bool.false_ne_true]
    simp only [accept_within h]
    rcases inner _ q with ⟨s', _ | r⟩ <;> rfl

/-! ## Runs -/

/-- A request with the moment at which it comes, and with what has happened to the desk since the
request before it. -/
structure Call where
  request : Request
  moment : Moment
  meanwhile : Desk → Desk := id

/-- The site when a request comes. -/
def facing (s : Site) (c : Call) : Site :=
  { s with desk := { c.meanwhile s.desk with now := c.moment } }

def after (s : Site) : List Call → Site
  | [] => s
  | c :: cs => ((s.facing c).serve c.request).1.after cs

/-- The limiter's view of a request, if it counts. -/
def Call.visit? (c : Call) : Option Limiter.Visit :=
  if exempt.contains (limitedPath c.request) then none
  else some ⟨clientOf c.request, c.moment.seconds, c.moment.seconds⟩

def visits (cs : List Call) : List Limiter.Visit := cs.filterMap Call.visit?

lemma limiter_serve (s : Site) (c : Call) :
    ((s.facing c).serve c.request).1.limiter = s.limiter.after c.visit?.toList := by
  unfold Call.visit?
  cases hexempt : exempt.contains (limitedPath c.request) with
  | true =>
    rw [serve, if_pos hexempt]
    rfl
  | false =>
    rw [serve, hexempt, if_neg Bool.false_ne_true]
    show _ = (s.limiter.accept c.moment.seconds c.moment.seconds (clientOf c.request)).1
    simp only [facing]
    rcases s.limiter.accept c.moment.seconds c.moment.seconds (clientOf c.request) with ⟨l, _ | _⟩
    · rfl
    · simp only
      rcases hinside : enter _ c.request with ⟨s', _ | r⟩
      · exact congrArg (·.1.limiter) hinside.symm
      · exact congrArg (·.1.limiter) hinside.symm

lemma limiter_after (s : Site) (cs : List Call) :
    (s.after cs).limiter = s.limiter.after (visits cs) := by
  induction cs generalizing s with
  | nil => rfl
  | cons c cs ih =>
    have hvisits : visits (c :: cs) = c.visit?.toList ++ visits cs := by
      unfold visits
      rw [filterMap_cons]
      cases c.visit? <;> rfl
    rw [after, ih, limiter_serve, hvisits, after_append]

/-- **A client over its limit meets the error page.** In every run of requests, and whatever happens
to the desk between them, a request that counts and whose client is over its limit is answered by the
page of an internal error: its status is 500 and not 429, it does not say when to try again, and
nothing inside the limiter has any part in it. All other requests do reach the layers inside. If the
clock does not run backwards, a client is over its limit exactly if the window that ends with its
request holds as many admitted requests of the client as the client can make. -/
theorem over_limit_meets_error_page (d : Desk) (most window : Int) (calls : List Call) (c : Call) :
    let start : Site := ⟨d, Limiter.fresh most window⟩
    let s := (start.after calls).facing c
    let q := c.request
    (s.overLimit q = true →
      (s.serve q).2 = q.sent .errorPage ∧ (s.serve q).2.status = 500 ∧
        (s.serve q).2.header? "retry-after" = none ∧ (s.serve q).1.desk = s.desk ∧
        ∀ inner, s.serveThrough inner q = s.serve q) ∧
      (s.overLimit q = false →
        ∃ l, ∀ inner, (s.serveThrough inner q).1 = (inner { s with limiter := l } q).1) ∧
      ((Limiter.readings (visits (calls ++ [c]))).Pairwise (· ≤ ·) →
        (s.overLimit q = true ↔
          Limiter.exempt.contains (limitedPath q) = false ∧
            most ≤ Limiter.recent window c.moment.seconds (clientOf q)
              ((Limiter.fresh most window).admitted (visits calls)))) := by
  intro start s q
  refine ⟨fun hover => ?_, serveThrough_within, fun hclock => ?_⟩
  · rw [serve_eq_serveThrough, serveThrough_over hover]
    refine ⟨rfl, Request.status_sent .., ?_, rfl, fun inner => serveThrough_over hover inner⟩
    rw [Response.header?, Request.headers_sent]
    rfl
  · cases hexempt : Limiter.exempt.contains (limitedPath q) with
    | true =>
      rw [overLimit_exempt hexempt]
      exact ⟨fun h => (Bool.false_ne_true h).elim, fun h => (Bool.false_ne_true h.1.symm).elim⟩
    | false =>
      have hvisit : c.visit? = some ⟨clientOf q, c.moment.seconds, c.moment.seconds⟩ := by
        rw [Call.visit?, hexempt, if_neg Bool.false_ne_true]
      have hvisits : visits (calls ++ [c]) = visits calls ++ c.visit?.toList :=
        filterMap_append ..
      rw [hvisits, hvisit] at hclock
      have hlimiter : s.limiter = (Limiter.fresh most window).after (visits calls) :=
        limiter_after start calls
      have hcheck := Limiter.check_after_iff most window hclock
      rw [← hlimiter] at hcheck
      rw [overLimit_counted hexempt]
      exact ⟨fun h => ⟨rfl, hcheck.mp h⟩, fun h => hcheck.mpr h.2⟩

def firstPage : Call := { request := { path := "/", client := some "127.0.0.1" }, moment := ⟨0⟩ }

/-- The request after a hundred others gets the page of an internal error, where the fault of the
limiter says 429 and when to try again. -/
theorem hundred_and_first_request :
    let calls := List.replicate 100 firstPage
    let start : Site := ⟨{ now := ⟨0⟩ }, Limiter.fresh 100 60⟩
    let s := (start.after calls).facing firstPage
    (Limiter.readings (visits (calls ++ [firstPage]))).Pairwise (· ≤ ·) ∧
      s.overLimit firstPage.request = true ∧ (s.serve firstPage.request).2 = .errorPage ∧
      (s.serve firstPage.request).2.status = 500 ∧
      (Limiter.fresh 100 60).refusal =
        .rejected 429 (.text "Rate limit exceeded. Please try again later.")
          (some [("Retry-After", .text "60")]) := by
  let calls := List.replicate 100 firstPage
  have hclock : (Limiter.readings (visits (calls ++ [firstPage]))).Pairwise (· ≤ ·) := by
    decide +kernel
  have hcounts : Limiter.exempt.contains (limitedPath firstPage.request) = false := by decide +kernel
  have hshare : (100 : Int) ≤ Limiter.recent 60 firstPage.moment.seconds
      (clientOf firstPage.request) ((Limiter.fresh 100 60).admitted (visits calls)) := by
    decide +kernel
  have hrun := over_limit_meets_error_page { now := ⟨0⟩ } 100 60 calls firstPage
  dsimp only [calls] at hclock hshare hrun ⊢
  obtain ⟨hanswer, _, hover⟩ := hrun
  have hlimit := (hover hclock).mpr ⟨hcounts, hshare⟩
  obtain ⟨hpage, hstatus, _⟩ := hanswer hlimit
  exact ⟨hclock, hlimit, hpage.trans (if_neg (by decide)), hstatus, rfl⟩

end Site

end Http

/-!
## What the remaining number promises

With each answer a client is told how many requests remain. The number is taken when the answer
leaves, from counts that may be out of date or hold other requests of the client. Still so many
further requests are admitted, whenever they come; and if no time passes, the next one is refused,
unless nothing is ever in the window.
-/

open List

namespace Limiter

variable {t : Int}

def countOf (client : String) (vs : List Visit) : Nat := vs.countP (·.client = client)

lemma countOf_cons (v : Visit) (vs : List Visit) :
    countOf client (v :: vs) = countOf client vs + if v.client = client then 1 else 0 := by
  simp [countOf, countP_cons]

lemma recent_log_visit (a : Archive) (t : Int) (client : String) (v : Visit) :
    recent a.window t client (a.visit v).1.log = recent a.window t client a.log +
      if a.most ≤ recent a.window v.checked v.client a.log then 0
      else if v.client = client ∧ t - a.window < v.counted ∧ v.counted ≤ t then 1 else 0 := by
  unfold Archive.visit
  split
  · rfl
  · rw [recent_append]
    simp [recent, countP_cons, and_assoc]

lemma recent_of_window {window : Int} {log : Log} (h : window ≤ 0) :
    recent window t client log = 0 := by
  simp only [recent, countP_eq_zero, Bool.and_eq_true, decide_eq_true_eq]
  omega

/-- A request adds one to a window at most. -/
lemma Archive.recent_after_le (a : Archive) (t : Int) (client : String) (vs : List Visit) :
    recent a.window t client (a.after vs).log ≤ recent a.window t client a.log + countOf client vs := by
  induction vs generalizing a with
  | nil => exact Nat.le_refl _
  | cons v vs ih =>
    have hrest := ih (a.visit v).1
    rw [(a.visit_limits v).2, recent_log_visit] at hrest
    rw [countOf_cons, Archive.after]
    by_cases h : v.client = client
    · simp only [h, true_and, ↓reduceIte] at hrest ⊢
      split at hrest
      · omega
      · split at hrest <;> omega
    · simp only [h, false_and, ↓reduceIte, ite_self] at hrest ⊢
      omega

/-- While no time passes, each request adds one until the share is used up. -/
lemma Archive.share_after (a : Archive) (client : String) (hwindow : 0 < a.window) {vs : List Visit}
    (hvs : ∀ v ∈ vs, v.checked = t ∧ v.counted = t) :
    min a.most (recent a.window t client a.log + countOf client vs) ≤
      recent a.window t client (a.after vs).log := by
  induction vs generalizing a with
  | nil => exact Int.min_le_right ..
  | cons v vs ih =>
    obtain ⟨hmost, hsame⟩ := a.visit_limits v
    have hrest := ih (a.visit v).1 (hsame ▸ hwindow) fun u hu => hvs u (.tail _ hu)
    obtain ⟨hchecked, hcounted⟩ := hvs v (.head _)
    have hnow : t - a.window < t := by omega
    rw [hmost, hsame, recent_log_visit, hchecked, hcounted] at hrest
    rw [countOf_cons, Archive.after]
    by_cases h : v.client = client
    · simp only [h, hnow, Int.le_refl, and_self, ↓reduceIte] at hrest ⊢
      split at hrest <;> omega
    · simp only [h, false_and, ↓reduceIte, ite_self] at hrest ⊢
      omega

lemma within_le_total (l : Limiter) (client : String) (picks : Int → Bool) :
    within picks (l.requests client) ≤ l.total client := by
  rw [within, total, Tally.sumOf_filter]
  generalize l.requests client = rs
  induction rs with
  | nil => exact Nat.le_refl _
  | cons r rs ih =>
    simp only [Tally.sumOf_cons]
    split <;> omega

lemma visit_eq_ite (l : Limiter) (v : Visit) : l.visit v =
    if l.most ≤ (l.prune v.checked v.client).total v.client then
      (l.prune v.checked v.client, false)
    else ((l.prune v.checked v.client).record v.counted v.client, true) := by
  split
  · rename_i hfull
    exact accept_full (decide_eq_true hfull)
  · rename_i hfull
    exact accept_within (decide_eq_false hfull)

lemma visit_limits (l : Limiter) (v : Visit) :
    (l.visit v).1.most = l.most ∧ (l.visit v).1.window = l.window := by
  rw [visit_eq_ite]
  split <;> exact ⟨rfl, rfl⟩

lemma after_limits (l : Limiter) (vs : List Visit) :
    (l.after vs).most = l.most ∧ (l.after vs).window = l.window := by
  induction vs generalizing l with
  | nil => exact ⟨rfl, rfl⟩
  | cons v vs ih =>
    have hone := l.visit_limits v
    obtain ⟨hmost, hwindow⟩ := ih (l.visit v).1
    exact ⟨hmost.trans hone.1, hwindow.trans hone.2⟩

/-- All that is counted of a client is in the window that ends now. -/
def Tight (l : Limiter) (t : Int) (client : String) : Prop :=
  l.total client = within (fun s => t - l.window < s) (l.requests client)

lemma tight_prune (l : Limiter) (t : Int) (client : String) : Tight (l.prune t client) t client := by
  rw [Tight, total_eq_within, requests_prune, if_pos rfl, within_filter _ (fun s => t - l.window < s),
    within_filter _ (fun s => t - l.window < s)]
  simp only [Bool.true_and]
  show _ = within (fun s => decide (t - l.window < s) && decide (t - l.window < s)) _
  simp only [Bool.and_self]

lemma Tight.record (h : Tight l t client) (hwindow : 0 < l.window) :
    Tight (l.record t client) t client := by
  have hnow : t - l.window < t := by omega
  rw [Tight, total_eq_within] at h ⊢
  rw [requests_record, if_pos rfl, within_countIn, within_countIn, h]
  simp [show (l.record t client).window = l.window from rfl, hnow]

lemma Tight.of_agree {l' : Limiter} (h : Tight l t client) (hagree : Agree client l' l) :
    Tight l' t client := by
  rw [Tight, hagree.total, hagree.window, hagree.requests]
  exact h

lemma Tight.visit {v : Visit} (h : v.client ≠ client → Tight l t client) (hwindow : 0 < l.window)
    (hv : v.checked = t ∧ v.counted = t) : Tight (l.visit v).1 t client := by
  rw [visit_eq_ite, hv.1, hv.2]
  by_cases hc : v.client = client
  · subst hc
    have hpruned := l.tight_prune t v.client
    split
    · exact hpruned
    · exact hpruned.record hwindow
  · have hother := Ne.symm hc
    have hpruned := agree_prune hother l t
    split
    · exact (h hc).of_agree hpruned
    · exact (h hc).of_agree ((agree_record hother _ t).trans hpruned)

lemma Tight.after {vs : List Visit} (h : Tight l t client) (hwindow : 0 < l.window)
    (hvs : ∀ v ∈ vs, v.checked = t ∧ v.counted = t) : Tight (l.after vs) t client := by
  induction vs generalizing l with
  | nil => exact h
  | cons v vs ih =>
    have hsame := (l.visit_limits v).2
    exact ih (Tight.visit (fun _ => h) hwindow (hvs v (.head _))) (hsame ▸ hwindow)
      fun u hu => hvs u (.tail _ hu)

lemma tight_after_visit {v : Visit} {vs : List Visit} (hwindow : 0 < l.window)
    (hvs : ∀ u ∈ v :: vs, u.checked = t ∧ u.counted = t) : Tight (l.after (v :: vs)) t v.client := by
  have hown := Tight.visit (fun hother => absurd rfl hother) hwindow (hvs v (.head _))
  have hsame := (l.visit_limits v).2
  exact hown.after (by rwa [hsame]) fun u hu => hvs u (.tail _ hu)

/-- After a first part of a run there is an archive that holds, of the window of a later request, what
the limiter counts there, and that decides this request. -/
lemma exists_archive {most window : Int} {vs later : List Visit} {w : Visit}
    (hclock : (readings (vs ++ (later ++ [w]))).Pairwise (· ≤ ·))
    (hl : l = (fresh most window).after vs) : ∃ a : Archive, a.most = most ∧ a.window = window ∧
      within (fun s => w.checked - window < s) (l.requests w.client) =
        recent window w.checked w.client a.log ∧
      (((l.after later).visit w).2 = false ↔
        most ≤ recent window w.checked w.client (a.after later).log) := by
  subst hl
  obtain ⟨now, hforward⟩ := exists_forward hclock
  obtain ⟨_, _, last, hlast, hvs⟩ := (fresh_follows most window now).run vs _ hforward
  obtain ⟨_, _, last', hlast', hlater⟩ := hvs.run later [w] hlast
  obtain ⟨hchecked, hcounted, _⟩ := forward_cons hlast'
  obtain ⟨hmost, hwindow⟩ := Archive.after_limits ⟨most, window, []⟩ vs
  obtain ⟨hmost', hwindow'⟩ := (Archive.after ⟨most, window, []⟩ vs).after_limits later
  refine ⟨_, hmost, hwindow, ?_, ?_⟩
  · have hcounts := hvs.counts w.client w.checked ((pairwise_cons.mp hlast).1 _ (by simp [readings]))
    rwa [hvs.window, hwindow] at hcounts
  · rw [(hlater.visit w hchecked hcounted).1, Archive.visit_refused_iff, hmost', hwindow', hmost,
      hwindow]

end Limiter

namespace Http

open Limiter (fresh readings countOf)

lemma remaining_told (q : Request) (now : Int) (l : Limiter) (inner : Response) :
    ((advance q now l (.inside true)).2.response? (some inner)).bind
      (·.header? "x-ratelimit-remaining") =
        some (Value.intText (max 0 (l.most - l.total (Site.clientOf q)))) := by
  show (inner.withHeaders (Site.quotaHeaders _)).header? _ = _
  simp only [quotaHeaders_eq, Response.withHeaders, foldl_cons, foldl_nil,
    Response.header?_withHeader]
  rfl

/-- **The remaining number is kept.** A request of a client was admitted, and its answer leaves when
further requests, also of the same client, have come. The answer carries a number. Then, whoever
else makes requests and however the clock goes on, so many requests of the client are admitted. If
no time has passed since the request was checked, the next one is refused, provided that the window
lasts at all: a window of no seconds never holds a request. -/
theorem remaining_is_kept (most window : Int) (before during : List Limiter.Visit)
    (v : Limiter.Visit) (hv : (((fresh most window).after before).visit v).2 = true) (q : Request)
    (hq : Site.clientOf q = v.client) (now : Int) (inner : Response) :
    let l := (fresh most window).after (before ++ v :: during)
    ∃ r : Nat, ((advance q now l (.inside true)).2.response? (some inner)).bind
        (·.header? "x-ratelimit-remaining") = some (Value.intText r) ∧
      ∀ later w, w.client = v.client →
        (readings (before ++ v :: during ++ (later ++ [w]))).Pairwise (· ≤ ·) →
        (countOf v.client later < r → ((l.after later).visit w).2 = true) ∧
        ((∀ u ∈ v :: during ++ later, u.checked = w.checked ∧ u.counted = w.checked) →
          countOf v.client later = r → (((l.after later).visit w).2 = false ↔ 0 < window)) := by
  intro l
  refine ⟨(max 0 (l.most - l.total v.client)).toNat, ?_, fun later w hw hclock => ?_⟩
  · rw [remaining_told, hq, Int.toNat_of_nonneg (by omega)]
  obtain ⟨hmost, hwindow⟩ : l.most = most ∧ l.window = window := Limiter.after_limits ..
  obtain ⟨a, rfl, rfl, hcounts, hrefused⟩ := Limiter.exists_archive (l := l) hclock rfl
  rw [hw] at hcounts hrefused
  refine ⟨fun hroom => ?_, fun hstill hcount => ?_⟩
  · have hle := a.recent_after_le w.checked v.client later
    have hwithin := l.within_le_total v.client fun s => w.checked - a.window < s
    rw [← Bool.not_eq_false, hrefused]
    omega
  have hbefore : ((fresh a.most a.window).after before).most = a.most ∧
      ((fresh a.most a.window).after before).window = a.window := Limiter.after_limits ..
  rw [hrefused]
  constructor
  · intro hshare
    refine Int.not_le.mp fun hnone => ?_
    rw [Limiter.recent_of_window hnone] at hshare
    rw [Limiter.visit_eq_ite, if_pos (by rw [hbefore.1]; omega)] at hv
    cases hv
  · intro hpositive
    have htight : l.Tight w.checked v.client := by
      show Limiter.Tight ((fresh a.most a.window).after (before ++ v :: during)) _ _
      rw [Limiter.after_append]
      exact Limiter.tight_after_visit (hbefore.2.symm ▸ hpositive) fun u hu =>
        hstill u (mem_append_left _ hu)
    have hshare := a.share_after v.client hpositive fun u hu => hstill u (mem_append_right _ hu)
    rw [Limiter.Tight, hwindow, hcounts] at htight
    omega

/-- Of two requests in ten seconds one remains after the first, and then none. -/
theorem one_remains : let v : Limiter.Visit := { client := "a", checked := 100, counted := 100 }
    (((fresh 2 10).after [v]).visit v).2 = true ∧ (((fresh 2 10).after [v, v]).visit v).2 = false := by
  intro v
  obtain ⟨r, hr, hkept⟩ := remaining_is_kept 2 10 [] [] v (by decide)
    { path := "/", client := some "a" } rfl 100 { status := 200 }
  have htext : some "1" = some (Value.intText r) := .trans (by decide) hr
  have hdigits : ['1'] = Nat.toDigits 10 r := String.ofList_injective (Option.some.inj htext)
  have hone : r = 1 := by
    rw [← Nat.ofDigitChars_ten_toDigits (n := r), ← hdigits]
    rfl
  subst hone
  exact ⟨(hkept [] v rfl (by decide)).1 (by decide),
    ((hkept [v] v rfl (by decide)).2 (by decide) rfl).mpr (by decide)⟩

/-- With a window of no seconds no request remains after the first, yet another one is admitted. -/
theorem none_remains_in_no_time :
    let v : Limiter.Visit := { client := "a", checked := 100, counted := 100 }
    let l := (fresh 1 0).after [v]
    ((advance { path := "/", client := some "a" } 100 l (.inside true)).2.response?
      (some { status := 200 })).bind (·.header? "x-ratelimit-remaining") = some "0" ∧
      (l.visit v).2 = true := by
  decide

end Http

end ReviewDesk
