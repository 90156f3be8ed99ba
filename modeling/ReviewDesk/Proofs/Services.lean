import ReviewDesk.Api.Requests
import ReviewDesk.Proofs.Rows

/-!
# What is written for requests

The parts that requests are made of, at any desk: statements and commits may fail. What was not
committed is taken back, so that each part ends with nothing that waits.
-/

namespace ReviewDesk

open List Outcome Work Store

variable {α β : Type} {s s' : Store} {E : Fault → Desk → Prop}

/-! ## Reading -/

section

lemma ends_found (q : Store → Outcome (Option α)) :
    Ends (At s) (orElse (query q) none) (fun a d => At s d ∧ ∀ r, a = some r → q s = .ok (some r))
      E := by
  refine ((ends_query q).imp ?_).orElse ?_
  · rintro a d ⟨hd, ha⟩
    exact ⟨hd, fun r hr => hr ▸ ha⟩
  · exact fun _ d hd => ⟨hd, fun r hr => by cases hr⟩

/-- What follows a search knows the row that was found. -/
lemma ends_bind_found {q : Store → Outcome (Option α)} {f : Option α → Work β}
    {Q : β → Desk → Prop} (hnone : Ends (At s) (f none) Q E)
    (hsome : ∀ a, q s = .ok (some a) → Ends (At s) (f (some a)) Q E) :
    Ends (At s) (orElse (query q) none >>= f) Q E := by
  refine (ends_found q).bind fun found => Ends.assume fun hfound => ?_
  cases found with
  | none => exact hnone
  | some a => exact hsome a (hfound a rfl)

lemma ends_listed (q : Store → Outcome (List α)) :
    Ends (At s) (orElse (query q) []) (fun rs d => At s d ∧ (rs = [] ∨ q s = .ok rs)) E := by
  refine ((ends_query q).imp ?_).orElse ?_
  · exact fun _ d hd => ⟨hd.1, .inr hd.2⟩
  · exact fun _ d hd => ⟨hd, .inl rfl⟩

variable (hs : s.Whole) (user : User) (n : Int)

include hs

lemma ends_ownRepository :
    Ends (At s) (Api.ownRepository user (.int n)) (fun _ d => At s d ∧ s.Owns user.id n)
      (fun _ => At s) :=
  ends_bind_found (ends_throw fun _ hd => hd) fun _ hp =>
    ends_pure fun _ hd => ⟨hd, owns_of_owned hs hp⟩

lemma ends_ownReview :
    Ends (At s) (Api.ownReview user (.int n)) (fun r d => At s d ∧ r.id = n ∧ s.Mine user.id n)
      (fun _ => At s) :=
  ends_bind_found (ends_throw fun _ hd => hd) fun _ hr => ends_pure fun _ hd =>
    ⟨hd, (mem_of_ownedReview hs hr).2.1, mine_of_ownedReview hs hr⟩

end

/-! ## Writing -/

section

variable {id : Value}

lemma edited_of_change {key : α → Int} {R : α → α → Prop} {f : α → Outcome α}
    {rows : List α} {put : List α → Store} (hf : ∀ r r', f r = .ok r' → R r r')
    (h : (do
      let p ← parameter id
      return put (← changeWhere (fun r => intIs (key r) p) f rows)) = .ok s') :
    ∃ rows', s' = put rows' ∧ Edited key R id rows rows' := by
  obtain ⟨p, hp, h⟩ := bind_eq_ok h
  obtain ⟨rows', hrows, h⟩ := bind_eq_ok h
  cases h
  exact ⟨rows', rfl, changeWhere_edited hf hp hrows⟩

end

namespace Reviews

variable {f : Filled} {metrics : Fields} {total : Value} {c : String × Value}

lemma ends_write {f : Review → Outcome Review} (hf : ∀ r r', f r = .ok r' → r.SameTies r')
    (id : Value) : Ends (At s) (write id f) (fun _ d => ∃ rows, At { s with reviews := rows } d ∧
        Edited (·.id) Review.SameTies id s.reviews rows) (Lasts s) := by
  refine ends_now.bind fun t => (ends_change_commit _).imp ?_
  rintro _ d ⟨s', hd, h⟩
  obtain ⟨rows, rfl, hrows⟩ := edited_of_change (R := Review.SameTies) (fun r r' hr => by
    obtain ⟨q, hq, hr⟩ := bind_eq_ok hr
    cases hr
    have hties := hf r q hq
    exact ⟨hties.id, hties.repository, hties.author⟩) h
  exact ⟨rows, hd, hrows⟩

lemma ends_update (hf : ∀ c ∈ f.changes, c.1 ∉ Review.tied) (n : Int) :
    Ends (At s) (update (.int n) f) (fun found d => ∃ rows, At { s with reviews := rows } d ∧
        Edited (·.id) Review.SameTies (.int n) s.reviews rows ∧ ∀ r, found = some r → r.id = n)
      (fun _ => At s) := by
  have hfind : ∀ rows, Ends (At { s with reviews := rows }) (find (.int n))
      (fun found d => At { s with reviews := rows } d ∧ ∀ r, found = some r → r.id = n)
      (Lasts s) := by
    refine fun rows => (ends_found _).imp ?_
    exact fun _ d hd => ⟨hd.1, fun r hr => id_of_reviewById (hd.2 r hr)⟩
  refine Ends.orRollback ?_
  split
  · refine (ends_write (fun r r' hr => Review.setAll_ties hr hf) (.int n)).bind fun _ => ?_
    refine Ends.exists fun rows => Ends.assume fun hrows => (hfind rows).imp ?_
    exact fun _ d hd => ⟨rows, hd.1, hrows, hd.2⟩
  · refine (hfind s.reviews).imp ?_
    exact fun _ d hd => ⟨s.reviews, hd.1, .refl _, hd.2⟩

lemma ends_remove (n : Int) : Ends (At s) (remove (.int n))
      (fun _ d => At { s with reviews := s.reviews.filter fun r => !(r.id == n) } d ∨ At s d) E := by
  refine Ends.succeeds ((ends_change_commit _).imp ?_) fun d hd => .inr hd
  rintro _ d ⟨s', hd, h⟩
  obtain ⟨_, h⟩ := bind_parameter_int h
  cases h
  exact .inl (by simpa only [intIs_int] using hd)

def resultNames : List String :=
  ["total_issues", "critical_issues", "high_issues", "medium_issues", "low_issues",
   "code_quality_score", "security_score", "maintainability_score", "test_coverage"]

lemma resultColumns_names (h : c ∈ resultColumns metrics total) : c.1 ∈ resultNames := by
  rcases mem_append.mp h with h | h
  · exact mem_append_left ["test_coverage"] (mem_map_of_mem (f := Prod.fst) h)
  · obtain ⟨v, _, rfl⟩ := Option.map_eq_some_iff.mp (Option.mem_toList.mp h)
    exact mem_append_right (resultNames.take 8) (mem_singleton_self _)

lemma resultColumns_free (h : c ∈ resultColumns metrics total) : c.1 ∉ Review.tied := by
  have hnames : ∀ key ∈ resultNames, key ∉ Review.tied := by decide
  exact hnames c.1 (resultColumns_names h)

lemma newReview_ties {author : Value} {id : Int} {t : Moment} {r : Review}
    (h : newReview f author t id = .ok r) :
    r.id = id ∧ wholeColumn (f.get "repository_id") = .ok (some r.repositoryId) ∧
      integerColumn author = .ok r.authorId := by
  obtain ⟨hid, hrepository, hauthor⟩ := Review.ofFields_ties h
  rw [Fields.get?_set_ne (by decide)] at hrepository
  rw [Fields.get?_set_self, Option.getD_some] at hauthor
  exact ⟨hid, hrepository, hauthor⟩

lemma ends_made (f : Filled) (author : Value) : Ends (At s) (create f author)
      (fun r d => At { s with reviews := s.reviews ++ [r] } d ∧
        (∃ t, newReview f author t (nextId (s.reviews.map (·.id))) = .ok r) ∧
        ∃ p ∈ s.repositories, Names (f.get "repository_id") p.id ∧ author.same p.ownerId = true)
      (fun _ => At s) := by
  refine Ends.tryCatch (F := fun _ => At s) ?_ fun fault => ?_
  · refine ends_bind_found (ends_throw fun d hd => hd) fun p hfound => ?_
    obtain ⟨hp, hid⟩ := repositoryById_names hfound
    simp only
    split
    · exact ends_throw fun d hd => hd
    · rename_i hsame
      refine ends_now.bind fun t => (ends_add _).imp ?_
      rintro r d ⟨s', hd, h⟩
      obtain ⟨q, hq, h⟩ := bind_eq_ok h
      cases h
      exact ⟨hd, ⟨t, hq⟩, p, hp, hid, by simpa using hsame⟩
  · split
    · exact ends_throw fun d hd => hd
    · refine Ends.bind (R := fun _ => At s) (fun d hd => ?_) fun _ => ends_throw fun d hd => hd
      exact ⟨hd.lasting, hd.lasting⟩

lemma ends_createAs (f : Filled) (author : Value) : Ends (At s) (create f author)
      (fun r d => At { s with reviews := s.reviews ++ [r] } d ∧
        r.id = nextId (s.reviews.map (·.id)) ∧ integerColumn author = .ok r.authorId ∧
        wholeColumn (f.get "repository_id") = .ok (some r.repositoryId) ∧
        ∃ p ∈ s.repositories, Names (f.get "repository_id") p.id ∧ author.same p.ownerId = true)
      (fun _ => At s) := by
  refine (ends_made f author).imp ?_
  rintro r d ⟨hd, ⟨t, ht⟩, hp⟩
  obtain ⟨hnew, hrepository, hauthor⟩ := newReview_ties ht
  exact ⟨hd, hnew, hauthor, hrepository, hp⟩

lemma ends_create (hs : s.Whole) {m : Int} (hf : f.get "repository_id" = .int m) (u : Int) :
    Ends (At s) (create f (.int u)) (fun r d => At { s with reviews := s.reviews ++ [r] } d ∧
        r.id = nextId (s.reviews.map (·.id)) ∧ r.authorId = .int u ∧ s.Owns u r.repositoryId ∧
        fits u)
      (fun _ => At s) := by
  refine (ends_createAs f (.int u)).imp ?_
  rintro r d ⟨hd, hid, hauthor, hrepository, p, hp, hname, hsame⟩
  rw [hf] at hrepository hname
  obtain ⟨hu, hauthor⟩ := integerColumn_int hauthor
  obtain ⟨k, hk⟩ := hs.owner p hp
  rw [hk, Value.same_int, beq_iff_eq] at hsame
  exact ⟨hd, hid, hauthor, ⟨p, hp, hname.eq.trans (wholeColumn_int hrepository).symm, hsame ▸ hk⟩, hu⟩

end Reviews

namespace Issues

lemma ends_made (review issue : Value) : Ends (At s) (create review issue)
      (fun i d => At { s with issues := s.issues ++ [i] } d ∧
        ∃ (v : Value) (f : Filled) (t : Moment), Form.issueCreate.read v = .ok f ∧
          newIssue f t (nextId (s.issues.map (·.id))) = .ok i)
      (fun _ => At s) := by
  refine Ends.orRollback ((ends_value _).bind fun fields => ?_)
  refine ends_ofOutcome_bind (fun _ _ h => h.lasting) fun f hread => ends_now.bind fun t => ?_
  refine (ends_add _).mono ?_ fun _ d hd => hd.lasting
  rintro i d ⟨s', hd, h⟩
  obtain ⟨j, hj, h⟩ := bind_eq_ok h
  cases h
  exact ⟨hd, _, f, t, hread, hj⟩

lemma changed_ties {changes : Fields} {t : Moment} {i i' : Issue}
    (hc : ∀ c ∈ changes, c.1 ≠ "review_id") (h : changed changes t i = .ok i') : i.SameTies i' := by
  obtain ⟨j, hj, h⟩ := bind_eq_ok h
  have hties := Issue.setAll_ties hj hc
  split at h
  · cases h; exact hties
  · cases h; exact hties

lemma ends_update {f : Filled} (hf : ∀ c ∈ f.changes, c.1 ≠ "review_id") (n : Int) :
    Ends (At s) (update (.int n) f) (fun found d => ∃ rows, At { s with issues := rows } d ∧
        Edited (·.id) Issue.SameTies (.int n) s.issues rows ∧ ∀ i, found = some i → i.id = n)
      (fun _ => At s) := by
  have hfind : ∀ rows, Ends (At { s with issues := rows }) (find (.int n))
      (fun found d => At { s with issues := rows } d ∧ ∀ i, found = some i → i.id = n)
      (Lasts s) := by
    refine fun rows => (ends_found _).imp ?_
    exact fun _ d hd => ⟨hd.1, fun i hi => (issueById_some (hd.2 i hi)).2⟩
  refine Ends.orRollback ?_
  split
  · refine ends_now.bind fun t => (ends_change _).bind fun _ => ?_
    refine (ends_commit fun s' => s.changeIssue (.int n) (changed f.changes t) = .ok s').bind
      fun _ => ?_
    refine Ends.exists fun s' => Ends.assume fun h => ?_
    obtain ⟨rows, rfl, hrows⟩ := edited_of_change (fun i i' => changed_ties hf) h
    refine (hfind rows).imp ?_
    exact fun _ d hd => ⟨rows, hd.1, hrows, hd.2⟩
  · refine (hfind s.issues).imp ?_
    exact fun _ d hd => ⟨s.issues, hd.1, .refl _, hd.2⟩

end Issues

namespace Comments

lemma ends_createAs (f : Filled) (author review : Value) : Ends (At s) (create f author review)
      (fun c d => At { s with comments := s.comments ++ [c] } d ∧
        ∃ t, newComment f author review t (nextId (s.comments.map (·.id))) = .ok c)
      (fun _ => At s) := by
  refine Ends.orRollback (ends_now.bind fun t => (ends_add _).mono ?_ fun _ d hd => hd.lasting)
  rintro c d ⟨s', hd, h⟩
  obtain ⟨b, hb, h⟩ := bind_eq_ok h
  cases h
  exact ⟨hd, t, hb⟩

lemma ends_create {n : Int} (hn : 0 < n) (f : Filled) (author : Value) :
    Ends (At s) (create f author (.int n))
      (fun c d => At { s with comments := s.comments ++ [c] } d ∧
        c.id = nextId (s.comments.map (·.id)) ∧ c.reviewId = .int n)
      (fun _ => At s) := by
  refine (ends_createAs f author (.int n)).imp ?_
  rintro c d ⟨hd, t, h⟩
  rw [newComment, Value.truthy_int hn] at h
  obtain ⟨hid, hreview⟩ := Comment.ofFields_review rfl h
  exact ⟨hd, hid, (integerColumn_int hreview).2⟩

end Comments

namespace Repositories

lemma ends_write {f : Repository → Outcome Repository}
    (hf : ∀ p p', f p = .ok p' → p.SameTies p') (id : Value) : Ends (At s) (write id f)
      (fun _ d => ∃ rows, At { s with repositories := rows } d ∧
        Edited (·.id) Repository.SameTies id s.repositories rows) (Lasts s) := by
  refine ends_now.bind fun t => (ends_change_commit _).imp ?_
  rintro _ d ⟨s', hd, h⟩
  obtain ⟨rows, rfl, hrows⟩ := edited_of_change (R := Repository.SameTies) (fun p p' hp => by
    obtain ⟨q, hq, hp⟩ := bind_eq_ok hp
    cases hp
    have hties := hf p q hq
    exact ⟨hties.id, hties.owner⟩) h
  exact ⟨rows, hd, hrows⟩

lemma ends_connectAs (f : Filled) (owner : Value) : Ends (At s) (connect f owner)
      (fun p d => At { s with repositories := s.repositories ++ [p] } d ∧
        p.id = nextId (s.repositories.map (·.id)) ∧ integerColumn owner = .ok p.ownerId)
      (fun _ => At s) := by
  refine Ends.tryCatch (F := fun _ => At s) ?_ fun fault => ?_
  · refine (ends_query _).bind fun found => ?_
    split
    · exact ends_throw fun d hd => hd.1
    · refine Ends.assume fun _ => ends_now.bind fun t => (ends_add _).imp ?_
      rintro p d ⟨s', hd, h⟩
      obtain ⟨q, hq, h⟩ := bind_eq_ok h
      cases h
      obtain ⟨v, hv, hq⟩ := bind_eq_ok hq
      obtain ⟨w, hw, hq⟩ := bind_eq_ok hq
      cases hq
      exact ⟨hd, rfl, requiredFigure_eq_ok hw ▸ hv⟩
  · split
    · exact ends_throw fun d hd => hd
    · refine Ends.bind (R := fun _ => At s) (fun d hd => ?_) fun _ => ends_throw fun d hd => hd
      exact ⟨hd.lasting, hd.lasting⟩

lemma ends_connect (f : Filled) (u : Int) : Ends (At s) (connect f (.int u))
      (fun p d => At { s with repositories := s.repositories ++ [p] } d ∧
        p.id = nextId (s.repositories.map (·.id)) ∧ p.ownerId = .int u ∧ fits u)
      (fun _ => At s) := by
  refine (ends_connectAs f (.int u)).imp ?_
  rintro p d ⟨hd, hid, howner⟩
  obtain ⟨hu, howner⟩ := integerColumn_int howner
  exact ⟨hd, hid, howner, hu⟩

lemma ends_setWebhook (n : Int) (hook : Value) : Ends (At s) (setWebhook (.int n) hook)
      (fun _ d => ∃ rows, At { s with repositories := rows } d ∧
        Edited (·.id) Repository.SameTies (.int n) s.repositories rows)
      E := by
  refine Ends.succeeds ?_ fun d hd => ⟨s.repositories, hd, .refl _⟩
  refine (ends_value _).bind fun _ => ends_write (fun p p' hp => ?_) (.int n)
  cases hp
  exact ⟨rfl, rfl⟩

lemma ends_disconnect (n : Int) : Ends (At s) (disconnect (.int n))
      (fun _ d => At { s with repositories := s.repositories.filter fun p => !(p.id == n) } d ∨
        At s d) E := by
  refine Ends.succeeds ((ends_change_commit _).imp ?_) fun d hd => .inr hd
  rintro _ d ⟨s', hd, h⟩
  obtain ⟨_, h⟩ := bind_parameter_int h
  cases h
  exact .inl (by simpa only [intIs_int] using hd)

/-- Writing to the repository that was added last leaves all others as they are. -/
lemma edited_last {rows rows' : List Repository} {p : Repository}
    (h : Edited (·.id) Repository.SameTies (.int p.id) (rows ++ [p]) rows')
    (hnew : p.id ∉ rows.map (·.id)) : ∃ p', rows' = rows ++ [p'] ∧ p.SameTies p' := by
  obtain ⟨g, rfl, hg⟩ := h
  have hold : rows.map g = rows := by
    refine (map_congr_left fun q hq => ?_).trans (map_id rows)
    rcases hg q (mem_append_left _ hq) with heq | ⟨hid, _⟩
    · exact heq
    · exact absurd (hid.eq ▸ mem_map_of_mem hq) hnew
  refine ⟨g p, by rw [map_append, hold]; rfl, ?_⟩
  rcases hg p (mem_append_right _ (mem_singleton_self p)) with heq | ⟨_, hties⟩
  · rw [heq]
    exact .refl p
  · exact hties

end Repositories

/-!
## What calls write to single rows

Calls write to the rows of a table, each at a desk of its own. The marks that they leave on a row are
put down in the order of the calls, from the making of the row on. What such a trail says of a row is
shown call by call.
-/

open List Work Store

/-- Calls on the rows of a table, and the marks that a call leaves on the row with a number. -/
structure Journal (κ α μ : Type) where
  rows : Store → List α
  key : α → Int
  work : κ → Work Bool
  marks : κ → Int → List μ

namespace Journal

variable {κ α μ : Type} (J : Journal κ α μ)
variable {n : Int} {ms : List μ}

def done (c : κ) (d : Desk) (s : Store) : Bool :=
  (run (J.work c) (d.holding s)).1.toOption == some true

def numbers (s : Store) : List Int := (J.rows s).map J.key

/-- The marks on the row with number `n` after a call that is made when they are `ms`. They are lost
with the row. -/
def next (n : Int) (d : Desk) (c : κ) (s : Store) (ms : List μ) : List μ :=
  if n ∈ J.numbers s ∧ n ∈ J.numbers ((J.work c).result d s) then
    ms ++ if J.done c d s then J.marks c n else []
  else []

/-- The marks on the row with number `n` after a run that begins when they are `ms`. -/
def trail (n : Int) : Store → List μ → List (Desk × κ) → List μ
  | _, ms, [] => ms
  | s, ms, (d, c) :: steps => trail n ((J.work c).result d s) (J.next n d c s ms) steps

variable {J}

/-- What a call does to a row in the eyes of `R`: it is one that was there, with new marks, or it is
new. -/
def Keeps (J : Journal κ α μ) (R : List μ → α → Prop) (c : κ) (s s' : Store) (went : Bool) : Prop :=
  ∀ r' ∈ J.rows s',
    (∃ r ∈ J.rows s, J.key r = J.key r' ∧
      ∀ ms, R ms r → R (ms ++ if went then J.marks c (J.key r') else []) r') ∨
    J.key r' ∉ J.numbers s ∧ R [] r'

variable {R : List μ → α → Prop}

section

variable {c : κ} {went : Bool}
lemma keeps_of_mem (hrows : ∀ r ∈ J.rows s', r ∈ J.rows s)
    (hmarks : went = true → ∀ n, J.marks c n = []) : J.Keeps R c s s' went := by
  refine fun r hr => .inl ⟨r, hrows r hr, rfl, fun ms h => ?_⟩
  have hnone : (if went then J.marks c (J.key r) else []) = [] := by
    split
    · rename_i hwent
      exact hmarks hwent _
    · rfl
  rwa [hnone, append_nil]

lemma keeps_snoc {r : α} (hrows : J.rows s' = J.rows s ++ [r])
    (hkey : J.key r = nextId (J.numbers s)) (hr : R [] r) (hmarks : ∀ n, J.marks c n = []) :
    J.Keeps R c s s' went := by
  intro r' hr'
  rw [hrows] at hr'
  rcases mem_append.mp hr' with hold | hnew
  · refine .inl ⟨r', hold, rfl, fun ms h => ?_⟩
    rwa [hmarks, ite_self, append_nil]
  · obtain rfl := mem_singleton.mp hnew
    exact .inr ⟨hkey ▸ nextId_notMem _, hr⟩

/-- The rows that a value looks up are written, and each gets the marks `ms₀`. -/
lemma keeps_changeWhere {id q : Value} {f : α → Outcome α} {ms₀ : List μ}
    (hq : parameter id = .ok q)
    (h : changeWhere (fun r => intIs (J.key r) q) f (J.rows s) = .ok (J.rows s'))
    (hf : ∀ r r', f r = .ok r' → J.key r' = J.key r ∧ ∀ ms, R ms r → R (ms ++ ms₀) r')
    (hmarks : ∀ n, J.marks c n = if Names id n then ms₀ else []) : J.Keeps R c s s' true := by
  obtain ⟨g, hmap, hg⟩ := changeWhere_map h
  intro r' hr'
  rw [hmap] at hr'
  obtain ⟨r, hr, rfl⟩ := mem_map.mp hr'
  have hgr := hg r hr
  rw [if_pos rfl, hmarks]
  split at hgr
  · rename_i hpicked
    obtain ⟨hkey, hmarked⟩ := hf r _ hgr
    refine .inl ⟨r, hr, hkey.symm, fun ms h => ?_⟩
    rw [hkey, if_pos ((names_iff hq).mpr hpicked)]
    exact hmarked ms h
  · rename_i hother
    rw [← Except.ok.inj hgr]
    refine .inl ⟨r, hr, rfl, fun ms h => ?_⟩
    rwa [if_neg (mt (names_iff hq).mp hother), append_nil]

/-- A desk where a call is done and what it keeps is lasting. -/
def Recorded (J : Journal κ α μ) (R : List μ → α → Prop) (c : κ) (s : Store) (went : Bool)
    (d : Desk) : Prop :=
  ∃ s', At s' d ∧ J.Keeps R c s s' went

lemma recorded_found (q : Store → Outcome (Option β)) :
    Ends (J.Recorded R c s went) (orElse (query q) none) (fun _ => J.Recorded R c s went) E :=
  Ends.exists fun s' => Ends.assume fun h => (ends_found q).imp fun _ _ hd => ⟨s', hd.1, h⟩

lemma recorded_idle (q : Store → Outcome (Option β)) (hmarks : ∀ n, J.marks c n = []) :
    Ends (At s) (orElse (query q) none) (fun _ => J.Recorded R c s went) E :=
  Ends.pre (fun _ hd => ⟨s, hd, keeps_of_mem (fun _ hr => hr) fun _ => hmarks⟩) (recorded_found q)

/-- A call that reads what it is told and goes through if its work does. -/
lemma recorded_told {γ : Type} {o : Outcome β} {x : β → Work γ}
    (hx : ∀ b, o = .ok b → Ends (At s) (x b) (fun _ => J.Recorded R c s true) (Lasts s)) :
    Ends (At s) (do let b ← ofOutcome o; discard (x b); return true) (J.Recorded R c s) (Lasts s) :=
  ends_ofOutcome_bind (fun _ _ h => h.lasting) fun b ho =>
    (hx b ho).discard.bind fun _ => ends_pure fun _ h => h

lemma recorded_answer {x : Work Unit}
    (hx : Ends (At s) x (fun _ => J.Recorded R c s true) (Lasts s)) :
    Ends (At s) (succeeds x) (J.Recorded R c s) E := by
  refine (ends_answer hx).imp fun went d h => ?_
  rcases h with ⟨rfl, h⟩ | ⟨rfl, hd⟩
  · exact h
  · exact ⟨s, hd, keeps_of_mem (fun _ hr => hr) fun hfalse => by cases hfalse⟩

/-- A call that raises does not go through and leaves the store alone. -/
lemma keeps_result
    (h : Ends (At s) (J.work c) (J.Recorded R c s) (Lasts s)) (d : Desk) :
    J.Keeps R c s ((J.work c).result d s) (J.done c d s) := by
  unfold result done
  have hend := h (d.holding s) (d.holding_at s)
  rcases hrun : run (J.work c) (d.holding s) with ⟨e | went, d'⟩ <;> rw [hrun] at hend
  · rw [hend]
    exact keeps_of_mem (fun _ hr => hr) fun hfalse => by cases hfalse
  · obtain ⟨s', hd, hkeeps⟩ := hend
    rw [hd.lasting]
    cases went with
    | true => exact hkeeps
    | false => exact hkeeps

end

lemma next_holds {c : κ} {d : Desk} (hstep : J.Keeps R c s ((J.work c).result d s) (J.done c d s))
    (h : ∀ r ∈ J.rows s, J.key r = n → R ms r) :
    ∀ r ∈ J.rows ((J.work c).result d s), J.key r = n → R (J.next n d c s ms) r := by
  intro r' hr' hn
  rcases hstep r' hr' with ⟨r, hr, hkey, hmarks⟩ | ⟨hnew, hfirst⟩
  · have hmem : n ∈ J.numbers s := hn ▸ hkey ▸ mem_map_of_mem hr
    have hmem' : n ∈ J.numbers ((J.work c).result d s) := hn ▸ mem_map_of_mem hr'
    rw [next, if_pos ⟨hmem, hmem'⟩, ← hn]
    exact hmarks ms (h r hr (hkey.trans hn))
  · -- The number may be one that a row had before; what was put down then is forgotten.
    rw [next, if_neg fun hmem => hnew (hn ▸ hmem.1)]
    exact hfirst

/-- What every call keeps holds of a row and its trail after a run. -/
lemma trail_holds
    (hstep : ∀ (c : κ) (d : Desk) (s : Store), J.Keeps R c s ((J.work c).result d s) (J.done c d s))
    (h : ∀ r ∈ J.rows s, J.key r = n → R ms r) (steps : List (Desk × κ)) :
    ∀ r ∈ J.rows (s.after J.work steps), J.key r = n → R (J.trail n s ms steps) r := by
  induction steps generalizing s ms with
  | nil => exact h
  | cons step steps ih => exact ih (next_holds (hstep step.2 step.1 s) h)

lemma trail_holds_of_nil
    (hstep : ∀ (c : κ) (d : Desk) (s : Store), J.Keeps R c s ((J.work c).result d s) (J.done c d s))
    (hs : J.rows s = []) (steps : List (Desk × κ)) :
    ∀ r ∈ J.rows (s.after J.work steps), R (J.trail (J.key r) s [] steps) r :=
  fun r hr => trail_holds hstep (fun q hq => by rw [hs] at hq; cases hq) steps r hr rfl

end Journal

end ReviewDesk
