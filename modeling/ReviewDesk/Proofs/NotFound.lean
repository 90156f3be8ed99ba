import ReviewDesk.Http.Routes
import ReviewDesk.Proofs.Requests

/-!
# Requests about what is not the user's

A request names repositories and reviews by numbers, in its path or in its body. What its path names
and is not the user's is not found, and nothing is written. In its body a repository of somebody
else is a failure of the server, and a review is not looked at.
-/

namespace ReviewDesk

open List Work Store

variable {α β : Type} {s : Store} {n : Int}

/-! ## Refusals -/

section

variable {status : Nat} {x : Work α}

/-- A request that is refused with a status and writes nothing. -/
def Declined (status : Nat) (s : Store) (x : Work α) : Prop :=
  Ends (At s) x (fun _ _ => False)
    (fun e d => At s d ∧ ∃ detail headers, e = .rejected status detail headers)

lemma Declined.bind (h : Declined status s x) {f : α → Work β} : Declined status s (x >>= f) :=
  Ends.bind h fun _ _ hd => hd.elim

lemma Declined.discard (h : Declined status s x) : Declined status s (discard x) := Ends.discard h

lemma declined_throw (detail : String) : Declined status s (throw (.denied status detail) : Work α) :=
  ends_throw fun _ hd => ⟨hd, _, _, rfl⟩

lemma declined_search {q : Store → Outcome (Option α)} (hq : ∀ a, q s ≠ .ok (some a))
    {f : Option α → Work β} (hf : Declined status s (f none)) :
    Declined status s (orElse (query q) none >>= f) :=
  ends_bind_found hf fun a ha => absurd ha (hq a)

lemma Declined.run_eq (h : Declined status s x) {d : Desk} (hd : At s d) :
    ∃ detail headers, (run x d).1 = .error (.rejected status detail headers) := by
  have hend := h d hd
  rcases hrun : run x d with ⟨e | a, d'⟩ <;> rw [hrun] at hend
  · obtain ⟨-, detail, headers, rfl⟩ := hend
    exact ⟨detail, headers, rfl⟩
  · exact hend.elim

end

/-! ## What is not the user's -/

namespace Api

variable (hs : s.Whole) (user : User)

include hs

section

variable (h : ¬s.Owns user.id n)

include h

lemma declined_repositoryWithFigures : Declined 404 s (repositoryWithFigures user (.int n)) := by
  have hnone : Ends (At s) (Repositories.withFigures (.int n) (.int user.id))
      (fun found d => At s d ∧ found = none) (fun _ _ => False) := by
    refine Ends.orElse (F := fun _ => At s) ((ends_query _).bind fun found => ?_) fun _ _ hd => ⟨hd, rfl⟩
    refine Ends.assume fun hfound => ?_
    cases found with
    | none => exact ends_pure fun _ hd => ⟨hd, rfl⟩
    | some p => exact absurd (owns_of_owned hs hfound) h
  refine (hnone.imp_error fun _ _ hd => hd.elim).bind fun found => Ends.assume fun hfound => ?_
  subst hfound
  exact declined_throw _

lemma declined_repositoryFor : Declined 404 s (repositoryFor user (.int n)) := by
  refine ends_bind_found (declined_throw _) fun p hfound => ?_
  obtain ⟨hp, hid⟩ := repositoryById_names hfound
  obtain ⟨m, howner⟩ := hs.owner p hp
  have hother : ¬Value.same (.int user.id) p.ownerId = true := by
    rw [howner, Value.same_int]
    intro hsame
    exact h ⟨p, hp, hid.eq, by rw [howner, ← beq_iff_eq.mp hsame]⟩
  dsimp only
  rw [if_neg hother]
  exact declined_throw _

/-- The refusal is taken for a failure. -/
lemma declined_createReview {f : Filled} (hf : f.get "repository_id" = .int n) :
    Declined 500 s (createReview user f) := by
  refine Declined.bind ?_
  refine Ends.tryCatch (hf ▸ declined_repositoryFor hs user h).bind fun e => ?_
  rintro d ⟨hd, detail, headers, rfl⟩
  exact ⟨hd, _, _, rfl⟩

lemma declined_startAnalysis {f : Filled} (hf : f.get "repository_id" = .int n) :
    Declined 500 s (startAnalysis user f) := by
  refine Ends.tryCatch (hf ▸ declined_repositoryFor hs user h).bind fun e => ?_
  exact Ends.pre (fun _ hd => hd.1) (declined_throw _)

end

section

variable (h : ¬s.Mine user.id n)

include h

lemma declined_detailedReview (hu : 0 < user.id) : Declined 404 s (detailedReview user (.int n)) := by
  refine declined_search (fun a ha => h ?_) (declined_throw _)
  simp only [Value.truthy_int hu, ↓reduceIte] at ha
  obtain ⟨found, hr, ha⟩ := Outcome.bind_eq_ok ha
  cases found with
  | none => cases ha
  | some r => exact mine_of_ownedReview hs hr

end

end Api

/-! ## Faults of rows

What a row cannot hold is no refusal of a request.
-/

def Fault.refuses : Fault → Bool
  | .rejected .. => true
  | _ => false

section

variable {x : Outcome α} (v : Value)

/-- An outcome that does not refuse a request. -/
def Inward (x : Outcome α) : Prop := ∀ e, x = .error e → e.refuses = false

lemma inward_ok (a : α) : Inward (.ok a : Outcome α) := fun _ h => by cases h

lemma inward_error {e : Fault} (h : e.refuses = false) : Inward (.error e : Outcome α) :=
  fun _ he => Except.error.inj he ▸ h

lemma Inward.bind (hx : Inward x) {f : α → Outcome β} (hf : ∀ a, Inward (f a)) :
    Inward (x >>= f) := by
  cases x with
  | error e => exact inward_error (hx e rfl)
  | ok a => exact hf a

lemma inward_parameter : Inward (parameter v) := by
  cases v with
  | null | bool | real | text => exact inward_ok _
  | int n =>
    unfold parameter
    dsimp only
    split
    · exact inward_ok _
    · exact inward_error rfl
  | list | object => exact inward_error rfl

lemma inward_integerColumn : Inward (integerColumn v) :=
  (inward_parameter v).bind fun _ => inward_ok _

lemma inward_textColumn : Inward (textColumn v) :=
  (inward_parameter v).bind fun _ => inward_ok _

lemma inward_wholeColumn : Inward (wholeColumn v) := by
  refine (inward_integerColumn v).bind fun w => ?_
  cases w with
  | null | int => exact inward_ok _
  | bool | real | text | list | object => exact inward_error rfl

lemma inward_flagColumn : Inward (flagColumn v) := by
  unfold flagColumn
  split
  · exact inward_ok _
  · split
    · exact inward_ok _
    · split
      · exact inward_ok _
      · exact inward_error rfl

lemma inward_timeColumn : Inward (timeColumn v) := by
  unfold timeColumn
  split
  · exact inward_ok _
  · split
    · exact inward_ok _
    · exact inward_error rfl
  · exact inward_error rfl

lemma inward_required (column : String) (x : Option α) : Inward (required column x) := by
  cases x with
  | some a => exact inward_ok a
  | none => exact inward_error rfl

lemma inward_requiredFigure (column : String) (v : Figure) : Inward (requiredFigure column v) := by
  unfold requiredFigure
  split
  · exact inward_error rfl
  · exact inward_ok _

namespace Comment

lemma inward_set (c : Comment) (column : String) (v : Value) : Inward (c.set column v) := by
  unfold Comment.set
  split
  · exact (inward_textColumn v).bind fun _ => (inward_required _ _).bind fun _ => inward_ok _
  · exact (inward_textColumn v).bind fun _ => inward_ok _
  · exact (inward_textColumn v).bind fun _ => inward_ok _
  · exact (inward_wholeColumn v).bind fun _ => inward_ok _
  · exact (inward_flagColumn v).bind fun _ => inward_ok _
  · exact (inward_timeColumn v).bind fun _ => (inward_required _ _).bind fun _ => inward_ok _
  · exact (inward_timeColumn v).bind fun _ => inward_ok _
  · exact (inward_integerColumn v).bind fun _ => (inward_requiredFigure _ _).bind fun _ => inward_ok _
  · exact (inward_integerColumn v).bind fun _ => inward_ok _
  · exact (inward_wholeColumn v).bind fun _ => inward_ok _
  · exact (inward_wholeColumn v).bind fun _ => inward_ok _
  · exact inward_error rfl

lemma inward_setAll (c : Comment) (changes : Fields) : Inward (c.setAll changes) := by
  induction changes generalizing c with
  | nil => exact inward_ok c
  | cons f changes ih =>
    rw [setAll, foldlM_cons]
    exact (inward_set c f.1 f.2).bind ih

lemma inward_ofFields (t : Moment) (id : Int) (fs : Fields) : Inward (ofFields t id fs) := by
  refine (inward_textColumn _).bind fun _ => (inward_required _ _).bind fun _ => ?_
  refine (inward_integerColumn _).bind fun _ => (inward_requiredFigure _ _).bind fun _ => ?_
  exact inward_setAll _ _

end Comment

end

/-! ## A comment on a review of the user -/

namespace Api

lemma gives_ownReview (hs : s.Whole) (hk : s.Keyed) (hfits : ∀ r ∈ s.reviews, fits r.id)
    {user : User} (hu : fits user.id) (h : s.Mine user.id n) (t : Moment) :
    ∃ r, Gives (ownReview user (.int n)) t s (.ok r) s := by
  obtain ⟨r, hr, rfl, howns⟩ := h
  have hfound := ownedReview_of_mine hs hk (hfits r hr) hu hr howns
  have hquery := gives_orElse_query (fun s => s.ownedReview (.int r.id) (.int user.id)) none t s
  rw [hfound] at hquery
  exact ⟨r, hquery.bind (gives_pure r t s)⟩

lemma gives_createComment (f : Filled) (author review : Value) (t : Moment) (s : Store) :
    ∃ o s', Gives (Comments.create f author review) t s o s' ∧ Inward o := by
  have hrow : Inward (Comments.newComment f author review t (nextId (s.comments.map (·.id)))) :=
    Comment.inward_ofFields _ _ _
  cases hnew : Comments.newComment f author review t (nextId (s.comments.map (·.id))) with
  | ok c =>
    have hadd : s.addComment (Comments.newComment f author review t) =
        .ok (c, { s with comments := s.comments ++ [c] }) := Outcome.bind_of_ok hnew _
    exact ⟨_, _, ((gives_now t s).bind (gives_add hadd t)).orRollback_ok, inward_ok c⟩
  | error e =>
    have hadd : s.addComment (Comments.newComment f author review t) = .error e := by
      rw [addComment, hnew]
      rfl
    exact ⟨_, _, ((gives_now t s).bind (gives_add_error hadd t)).orRollback_error,
      inward_error (hrow e hnew)⟩

/-- A comment on a review of the user is not refused, whatever review its body names. -/
lemma gives_addReviewComment (hs : s.Whole) (hk : s.Keyed) (hfits : ∀ r ∈ s.reviews, fits r.id)
    {user : User} (hu : fits user.id) (h : s.Mine user.id n) (f : Filled) (t : Moment) :
    ∃ o s', Gives (addReviewComment user (.int n) f) t s o s' ∧ Inward o := by
  obtain ⟨r, hown⟩ := gives_ownReview hs hk hfits hu h t
  obtain ⟨o, s', hcreate, ho⟩ := gives_createComment f (.int user.id) (.int n) t s
  exact ⟨o, s', hown.discard.bind hcreate, ho⟩

end Api

/-! ## Routes -/

namespace Http

open Api

variable (r : Route)

/-- What a request is about. -/
inductive Target where
  | repository (n : Int)
  | review (n : Int)

namespace Target

def field : Target → String
  | .repository _ => "repository_id"
  | .review _ => "review_id"

def number : Target → Int
  | .repository n | .review n => n

/-- It is there and belongs to a user. -/
def Of (s : Store) (u : Int) : Target → Prop
  | .repository n => s.Owns u n
  | .review n => s.Mine u n

end Target

def Route.hasHole (name : String) : Bool := (holes r.parts).any (·.name == name)

def Route.hasSlot (name : String) : Bool :=
  match r.content with
  | .object f => f.slots.any (·.name == name)
  | .ignored | .login => false

/-- The path of a request names a target. -/
def InPath (g : Given) (T : Target) : Prop :=
  r.hasHole T.field = true ∧ g.get T.field = .int T.number

/-- The body of a request names a target. -/
def InBody (g : Given) (T : Target) : Prop :=
  r.hasSlot T.field = true ∧ g.body.get T.field = .int T.number

def ownRoutes : List Route := repositoryRoutes ++ reviewRoutes

lemma repository_holes : ownRoutes.filter (·.hasHole "repository_id") =
    [.showRepository, .changeRepository, .disconnect, .analyze, .listBranches, .sync] := rfl

lemma review_holes : ownRoutes.filter (·.hasHole "review_id") =
    [.showReview, .changeReview, .dropReview, .showProgress, .listIssues, .listComments,
      .addComment, .orderSummary] := rfl

lemma repository_slots : ownRoutes.filter (·.hasSlot "repository_id") =
    [.openReview, .orderAnalysis] := rfl

lemma review_slots : ownRoutes.filter (·.hasSlot "review_id") = [.addComment] := rfl

section

variable (hs : s.Whole) {user : User} {g : Given} {r : Route}

include hs

lemma declined_repository_inPath (hr : r ∈ ownRoutes) (hpath : InPath r g (.repository n))
    (h : ¬s.Owns user.id n) : Declined 404 s (r.call (some user) g) := by
  obtain ⟨hhole, hn⟩ := hpath
  have hown : Declined 404 s (ownRepository user (g.get "repository_id")) :=
    hn ▸ declined_search (fun _ hp => h (owns_of_owned hs hp)) (declined_throw _)
  have hfigures : Declined 404 s (repositoryWithFigures user (g.get "repository_id")) :=
    hn ▸ declined_repositoryWithFigures hs user h
  have hmem := repository_holes ▸ mem_filter.mpr ⟨hr, hhole⟩
  fin_cases hmem
  · exact hfigures.bind
  all_goals exact hown.bind.bind

lemma declined_review_inPath (hr : r ∈ ownRoutes) (hu : 0 < user.id)
    (hpath : InPath r g (.review n)) (h : ¬s.Mine user.id n) :
    Declined 404 s (r.call (some user) g) := by
  obtain ⟨hhole, hn⟩ := hpath
  have hown : Declined 404 s (ownReview user (g.get "review_id")) :=
    hn ▸ declined_search (fun _ hr => h (mine_of_ownedReview hs hr)) (declined_throw _)
  have hdetailed : Declined 404 s (detailedReview user (g.get "review_id")) :=
    hn ▸ declined_detailedReview hs user h hu
  have hmem := review_holes ▸ mem_filter.mpr ⟨hr, hhole⟩
  fin_cases hmem
  · exact hdetailed.bind
  · exact hown.bind.bind
  all_goals exact hown.discard.bind.bind

lemma declined_repository_inBody (hr : r ∈ ownRoutes) (hbody : InBody r g (.repository n))
    (h : ¬s.Owns user.id n) : Declined 500 s (r.call (some user) g) := by
  obtain ⟨hslot, hn⟩ := hbody
  have hmem := repository_slots ▸ mem_filter.mpr ⟨hr, hslot⟩
  fin_cases hmem
  · exact (declined_createReview hs user h hn).bind
  · exact (declined_startAnalysis hs user h hn).bind

/-- A review that the body of a comment names is not looked at. -/
lemma inward_review_inBody (hk : s.Keyed) (hfits : ∀ r ∈ s.reviews, fits r.id)
    (hmax : fits user.id) (hr : r ∈ ownRoutes)
    (hg : ∀ name, r.hasHole name = true → ∃ m, g.get name = .int m)
    (hpath : ∀ T, InPath r g T → T.Of s user.id) (hbody : InBody r g (.review n)) (t : Moment) :
    ∃ o s', Gives (r.call (some user) g) t s o s' ∧ Inward o := by
  have hmem := review_slots ▸ mem_filter.mpr ⟨hr, hbody.1⟩
  obtain rfl := mem_singleton.mp hmem
  obtain ⟨m, hm⟩ := hg "review_id" rfl
  have hmine : s.Mine user.id m := hpath (.review m) ⟨rfl, hm⟩
  obtain ⟨o, s', hgives, ho⟩ := gives_addReviewComment hs hk hfits hmax hmine g.body t
  rw [← hm] at hgives
  cases o with
  | ok c => exact ⟨_, s', hgives.bind (gives_pure _ t s'), inward_ok _⟩
  | error e => exact ⟨_, s', hgives.bind_error, inward_error (ho e rfl)⟩

end

/-- A user asks for something with the number of a repository or a review that is not the user's or
is not there, in the path or in the body. It is not found, and nothing is written, exactly if the path
has such a number. A repository that the body names is told as a failure of the server, with nothing
written either. A review that the body of a comment names is not looked at, and the comment is made or
does not fit its row. -/
theorem not_found_iff_in_path {s : Store} (hs : s.Whole) (hk : s.Keyed)
    (hfits : ∀ r ∈ s.reviews, fits r.id) {user : User} (hu : 0 < user.id) (hmax : fits user.id)
    {r : Route} (hr : r ∈ ownRoutes) {g : Given}
    (hg : ∀ name, r.hasHole name = true → ∃ n, g.get name = .int n) {T : Target}
    (hnamed : InPath r g T ∨ InBody r g T) (hforeign : ¬T.Of s user.id) :
    (Declined 404 s (r.call (some user) g) ↔ ∃ P, InPath r g P ∧ ¬P.Of s user.id) ∧
      (∀ n, InBody r g (.repository n) → ¬s.Owns user.id n →
        Declined 500 s (r.call (some user) g)) ∧
      ((∀ P, InPath r g P → P.Of s user.id) → ∀ n, InBody r g (.review n) →
        ∀ t, ∃ o s', Gives (r.call (some user) g) t s o s' ∧ Inward o) := by
  have hbody : ∀ n, InBody r g (.repository n) → ¬s.Owns user.id n →
      Declined 500 s (r.call (some user) g) := fun n => declined_repository_inBody hs hr
  have hcomment := fun hpath n => inward_review_inBody (n := n) hs hk hfits hmax hr hg hpath
  refine ⟨⟨fun h => ?_, ?_⟩, hbody, hcomment⟩
  · by_contra hnone
    have hpath : ∀ P, InPath r g P → P.Of s user.id := fun P hP =>
      Classical.not_not.mp fun hother => hnone ⟨P, hP, hother⟩
    let d : Desk := { store := s, lasting := s, now := ⟨0⟩ }
    obtain ⟨detail, headers, hrun⟩ := h.run_eq (d := d) ⟨rfl, rfl⟩
    have hT : InBody r g T := hnamed.resolve_left fun hT => hforeign (hpath T hT)
    cases T with
    | repository n =>
      obtain ⟨_, _, hfails⟩ := (hbody n hT hforeign).run_eq (d := d) ⟨rfl, rfl⟩
      cases hrun.symm.trans hfails
    | review n =>
      obtain ⟨o, s', hgives, ho⟩ := hcomment hpath n hT ⟨0⟩
      obtain ⟨d', hends, -⟩ := hgives d ⟨fun _ => rfl, rfl, rfl, rfl, rfl⟩
      rw [hends] at hrun
      cases ho _ hrun
  · rintro ⟨P, hP, hother⟩
    cases P with
    | repository n => exact declined_repository_inPath hs hr hP hother
    | review n => exact declined_review_inPath hs hr hu hP hother

/-! ## The second of two owners -/

lemma whole_twoOwners : twoOwners.Whole where
  owner := by simp [twoOwners, sampleRepository]
  comment := by simp [twoOwners]
  positive := by simp [twoOwners, sampleReview]

lemma not_owns_second : ¬twoOwners.Owns 1 2 := by
  simp [Owns, twoOwners, sampleRepository]

lemma not_mine_second : ¬twoOwners.Mine 1 2 := by
  simp [Mine, Owns, twoOwners, sampleRepository, sampleReview]

def secondReview : Given := { values := [("review_id", .int 2)] }

def secondRepository : Given where
  body := ⟨[("title", .text "notes"), ("repository_id", .int 2)], ["title", "repository_id"]⟩

/-- The first of two owners does not find the review of the second one, and a review of the second
one's repository fails otherwise. -/
theorem second_owner_not_found : ¬twoOwners.Mine 1 2 ∧ ¬twoOwners.Owns 1 2 ∧
      Declined 404 twoOwners (Route.showReview.call (some (sampleUser 1)) secondReview) ∧
      Declined 500 twoOwners (Route.openReview.call (some (sampleUser 1)) secondRepository) ∧
      ¬Declined 404 twoOwners (Route.openReview.call (some (sampleUser 1)) secondRepository) := by
  have hfits : ∀ r ∈ twoOwners.reviews, fits r.id := by decide
  have hinPath : InPath Route.showReview secondReview (.review 2) := ⟨rfl, rfl⟩
  have hinBody : InBody Route.openReview secondRepository (.repository 2) := ⟨rfl, rfl⟩
  have hread : ∀ name, Route.showReview.hasHole name = true →
      ∃ n, secondReview.get name = .int n := by
    intro name hname
    have heq : ("review_id" == name || false) = true := hname
    obtain rfl : "review_id" = name := by simpa using heq
    exact ⟨2, rfl⟩
  have hreview := not_found_iff_in_path whole_twoOwners numbered_twoOwners.keyed hfits
    (by decide : 0 < (sampleUser 1).id) (by decide) (mem_append_right _ (by simp [reviewRoutes]))
    hread (.inl hinPath) not_mine_second
  have hrepository := not_found_iff_in_path whole_twoOwners numbered_twoOwners.keyed hfits
    (by decide : 0 < (sampleUser 1).id) (by decide) (mem_append_right _ (by simp [reviewRoutes]))
    (fun name hname => by cases hname) (.inr hinBody) not_owns_second
  refine ⟨not_mine_second, not_owns_second, hreview.1.mpr ⟨_, hinPath, not_mine_second⟩,
    hrepository.2.1 2 hinBody not_owns_second, fun h => ?_⟩
  obtain ⟨P, hP, -⟩ := hrepository.1.mp h
  cases P with
  | repository n => cases hP.1
  | review n => cases hP.1

end Http

end ReviewDesk
