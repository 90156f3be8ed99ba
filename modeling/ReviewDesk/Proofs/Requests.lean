import ReviewDesk.Proofs.Forms
import ReviewDesk.Proofs.Services

/-!
# What requests do

Every request about repositories and reviews, at any desk and with any payload: which `Effect` it has
and what it shows. A request that fails has an effect too, if what failed came after a commit.
-/

namespace ReviewDesk

open List Outcome Work Store Form Repositories

variable {u : Int} {s : Store} {α : Type}

namespace Api

variable {n : Int} {shown : List Item} {d : Desk} {key : String} {form : Form}

/-! ## Requests -/

/-- A request of a user is over: it had an effect, and it shows what the user could reach before or
what it made. -/
def Done (u : Int) (s : Store) (shown : List Item) (d : Desk) : Prop :=
  ∃ s' made, At s' d ∧ Effect u s s' made ∧ ∀ x ∈ shown, s.Reach u x ∨ x ∈ made

/-- A request that is over however it ends, and what its answer shows. -/
abbrev Shows (u : Int) (s : Store) (x : Work α) (items : α → List Item) : Prop :=
  Ends (At s) x (fun a => Done u s (items a)) (fun _ => Done u s [])

lemma done_show (hd : At s d) (h : ∀ x ∈ shown, s.Reach u x) : Done u s shown d :=
  ⟨s, [], hd, .nothing, fun x hx => .inl (h x hx)⟩

lemma done_nothing (h : At s d) : Done u s [] d :=
  done_show h fun x hx => by cases hx

lemma done_fail (_ : Fault) (d : Desk) (h : At s d) : Done u s [] d :=
  done_nothing h

lemma Done.forget (h : Done u s shown d) : Done u s [] d := by
  obtain ⟨s', made, hd, heffect, _⟩ := h
  exact ⟨s', made, hd, heffect, fun x hx => by cases hx⟩

section

variable (user : User)

lemma ends_preferencesOf (u : Int) :
    Ends (At s) (preferencesOf u) (fun _ => At s) (fun _ => At s) :=
  (ends_query _).bind fun _ => ends_pure fun _ h => h.1

lemma ends_hostDetails (provider id : Value) (u : Int) :
    Ends (At s) (hostDetails provider id u) (fun _ => At s) (fun _ => At s) :=
  (ends_preferencesOf u).bind fun _ => ends_web _

lemma ends_tryHook (p : Repository) {E : Fault → Desk → Prop} : Ends (At s) (tryHook user p)
      (fun _ d => ∃ rows, At { s with repositories := rows } d ∧
        Edited (·.id) Repository.SameTies (.int p.id) s.repositories rows) E := by
  have hkept : ∀ d, At s d → ∃ rows, At { s with repositories := rows } d ∧
      Edited (·.id) Repository.SameTies (.int p.id) s.repositories rows :=
    fun d hd => ⟨s.repositories, hd, .refl _⟩
  refine Ends.orElse (F := fun _ => At s) ?_ fun _ d hd => hkept d hd
  refine ends_settings.bind fun _ => Ends.bind ((ends_preferencesOf _).bind fun _ => ends_web _)
    fun hook => ?_
  split
  · exact (ends_setWebhook p.id hook).discard
  · exact ends_pure hkept

lemma done_connect {p : Repository} {rows : List Repository}
    (hid : p.id = nextId (s.repositories.map (·.id))) (howner : p.ownerId = .int u) (hu : fits u)
    (hd : At { s with repositories := rows } d)
    (hrows : Edited (·.id) Repository.SameTies (.int p.id) (s.repositories ++ [p]) rows) :
    Done u s [] d := by
  obtain ⟨p', rfl, hties⟩ := edited_last hrows (hid ▸ nextId_notMem _)
  exact ⟨_, _, hd, .connect p' (hties.id.trans hid) (hties.owner.trans howner) hu,
    fun x hx => by cases hx⟩

lemma ends_connectById (externalId : Value) :
    Shows user.id s (connectById user externalId) fun _ => [] := by
  unfold connectById
  split
  · exact ends_throw fun d hd => done_nothing hd
  · refine Ends.tryCatch (F := fun _ => Done user.id s []) ?_ fun fault => ?_
    · refine (ends_found _).bind fun found => ?_
      split
      · exact ends_throw fun d hd => done_nothing hd.1
      · refine Ends.assume fun _ => ?_
        refine ((ends_hostDetails _ _ _).imp_error done_fail).bind fun info => ?_
        refine ((ends_ofOutcome _).imp_error done_fail).bind fun form => Ends.assume fun _ => ?_
        refine ((ends_connect form user.id).imp_error done_fail).bind fun p => ?_
        refine Ends.assume fun ⟨hid, howner, hu⟩ => ?_
        refine (ends_tryHook user p).bind fun _ => ?_
        refine Ends.exists fun rows => Ends.assume fun hrows => ?_
        have hjob := (ends_enqueue (s := { s with repositories := rows })
          { name := "setup_repository_analysis", arguments := [.int p.id] }).discard
        refine (hjob.orElse fun _ _ h => h).bind fun _ d hd => ?_
        exact done_connect hid howner hu hd hrows
    · split
      · exact ends_throw fun d hd => hd
      · exact ends_throw fun d hd => hd

lemma ends_connectByUrl (f : Filled) : Shows user.id s (connectByUrl user f) fun _ => [] := by
  refine ((ends_web _).imp_error done_fail).bind fun info => ?_
  refine ((ends_ofOutcome _).imp_error done_fail).bind fun form => Ends.assume fun _ => ?_
  refine Ends.bind (R := fun _ => Done user.id s []) (Ends.discard ?_) fun _ =>
    ends_throw fun d hd => hd
  refine (ends_connect form user.id).mono ?_ done_fail
  rintro p d ⟨hd, hid, howner, hu⟩
  exact done_connect hid howner hu hd (.refl _)

lemma ends_disconnectRepository (hs : s.Whole) (n : Int) :
    Shows user.id s (disconnectRepository user (.int n)) fun _ => [] := by
  refine ((ends_ownRepository hs user n).imp_error done_fail).bind fun p => ?_
  refine Ends.assume fun howns => ?_
  have hdrop : Shows user.id s (discard (Repositories.disconnect (.int n))) fun _ => [] := by
    refine Ends.discard ((ends_disconnect n).imp ?_)
    rintro _ d (hd | hd)
    · exact ⟨_, _, hd, .disconnect n howns, fun x hx => by cases hx⟩
    · exact done_nothing hd
  split
  · refine Ends.bind (R := fun _ => At s) ?_ fun _ => hdrop
    exact ((ends_ofOutcome _).imp fun _ _ h => h.1).discard.orElse fun _ _ h => h
  · exact hdrop

end

/-! ## Reviews in answers -/

/-- The review that the fields of an answer name. -/
def named (key : String) (fs : Fields) : List Item :=
  match Fields.get? fs key with
  | some (.int n) => [.review n]
  | _ => []

lemma named_of_get {fs : Fields}
    (h : Fields.get? fs key = some (.int n)) : named key fs = [.review n] := by
  rw [named, h]

lemma named_of_read {data : Fields} {f : Filled} (h : form.read (.object data) = .ok f)
    (hs : form.slots.find? (·.name == key) = some (need key anInt))
    (hn : Fields.get? data key = some (.int n)) : named key f.values = [.review n] := by
  obtain ⟨v, hv, hread⟩ := fills_get (read_object h) hs
  rw [read_need_int hn] at hread
  cases hread
  exact named_of_get hv

section

variable (hs : s.Whole) (user : User)
variable {x : Work α} {E : Fault → Desk → Prop} {r : Review} {f : Filled}

lemma Done.quiet (shown : List Item) (hx : ∀ s, Ends (At s) x (fun _ => At s) (fun _ => At s)) :
    Ends (Done u s shown) x (fun _ => Done u s shown) (fun _ => Done u s shown) := by
  refine Ends.exists fun s' => Ends.exists fun made => Ends.assume fun h => (hx s').mono ?_ ?_
  · exact fun _ d hd => ⟨s', made, hd, h⟩
  · exact fun _ d hd => ⟨s', made, hd, h⟩

lemma ends_repositoryFor (id : Value) :
    Ends (At s) (repositoryFor user id) (fun _ => At s) (fun _ => At s) := by
  refine ends_bind_found (ends_throw fun d hd => hd) fun p _ => ?_
  simp only
  split
  · exact ends_pure fun d hd => hd
  · exact ends_throw fun d hd => hd

lemma done_addReview
    (hd : At { s with reviews := s.reviews ++ [r] } d)
    (hr : r.id = nextId (s.reviews.map (·.id)) ∧ r.authorId = .int u ∧ s.Owns u r.repositoryId ∧
      fits u) (hshown : ∀ x ∈ shown, x = .review r.id) : Done u s shown d := by
  obtain ⟨hid, hauthor, howns, hu⟩ := hr
  refine ⟨_, _, hd, .addReview r hid hauthor howns hu, fun x hx => .inr ?_⟩
  exact mem_singleton.mpr (hshown x hx)

include hs

lemma ends_createReview {m : Int} (hf : f.get "repository_id" = .int m) :
    Shows user.id s (createReview user f) (named "id") := by
  refine Ends.bind (R := fun a => Done user.id s (named "id" a.1)) ?_ fun a => ?_
  · refine Ends.tryCatch (F := fun _ => Done user.id s []) ?_ fun fault => ?_
    · refine ((ends_repositoryFor user _).imp_error done_fail).bind fun p => ?_
      refine ((Reviews.ends_create hs hf user.id).imp_error done_fail).bind fun r => ?_
      refine Ends.assume fun hr => ?_
      refine ((ends_ofOutcome _).imp_error ?_).bind fun summary => ?_
      · exact fun _ d hd => done_addReview hd hr fun x hx => by cases hx
      · refine Ends.assume fun hsummary => ends_pure fun d hd => done_addReview hd hr fun x hx => ?_
        rw [named_of_read hsummary rfl rfl] at hx
        exact mem_singleton.mp hx
    · split <;> exact ends_throw fun d hd => hd
  · obtain ⟨summary, analysis⟩ := a
    cases analysis with
    | none => exact ends_pure fun d hd => hd
    | some numbers =>
      have hjob := Done.quiet (s := s) (u := user.id) (x := tryAnalysis numbers.1 numbers.2)
        (named "id" summary) fun s' => (ends_enqueue (s := s') _).discard.orElse fun _ _ h => h
      exact (hjob.imp_error fun _ _ h => h.forget).bind fun _ => ends_pure fun d hd => hd

lemma ends_startAnalysis (f : Filled) :
    Shows user.id s (startAnalysis user f) (named "review_id") := by
  refine Ends.tryCatch (F := fun _ => Done user.id s []) ?_ fun _ => ends_throw fun d hd => hd
  refine ((ends_repositoryFor user _).imp_error done_fail).bind fun p => ?_
  refine ((ends_ofOutcome _).imp_error done_fail).bind fun form => Ends.assume fun hform => ?_
  unfold analysisForm at hform
  obtain ⟨m, hm⟩ := get_need_int hform "repository_id" rfl
  refine ((Reviews.ends_create hs hm user.id).imp_error done_fail).bind fun r => ?_
  refine Ends.assume fun hr => ?_
  refine Ends.bind (R := fun _ => At { s with reviews := s.reviews ++ [r] }) ?_ fun task => ?_
  · refine Ends.orElse ?_ fun _ _ h => h
    exact (ends_enqueue _).bind fun _ => ends_pure fun d hd => hd
  · refine ends_pure fun d hd => done_addReview hd hr fun x hx => ?_
    rw [named_of_get rfl] at hx
    exact mem_singleton.mp hx

/-! ## Requests about one review -/

lemma ends_listReviews (repository status skip limit : Value) :
    Ends (At s) (Reviews.list (.int user.id) repository status skip limit)
      (fun answers => Done user.id s (answers.flatMap (named "id"))) E := by
  refine Ends.orElse (F := fun _ => At s) ?_ fun _ d hd => done_nothing hd
  refine (ends_query _).bind fun rs => Ends.assume fun hrs => ?_
  refine Ends.imp (ends_mapM (φ := fun r fs => named "id" fs = [.review r.id]) fun r hr => ?_) ?_
  · refine (ends_ofOutcome _).bind fun summary => Ends.assume fun hsummary => ?_
    exact ends_pure fun d hd => ⟨hd, named_of_read hsummary rfl rfl⟩
  · rintro answers d ⟨hd, hanswers⟩
    refine done_show hd fun x hx => ?_
    obtain ⟨fs, hfs, hx⟩ := mem_flatMap.mp hx
    obtain ⟨r, hr, hnamed⟩ := hanswers fs hfs
    rw [hnamed] at hx
    rw [mem_singleton.mp hx]
    exact mine_of_listed hs hrs hr

/-- What an answer shows about a review with all that belongs to it. -/
def itemsOf (a : Reviews.Detailed) : List Item :=
  .review a.review.id :: (a.issues.map (Item.issue ·.id) ++ a.comments.map (Item.comment ·.id))

lemma ends_detailedReview (hu : 0 < user.id) (n : Int) :
    Shows user.id s (detailedReview user (.int n)) itemsOf := by
  refine ends_bind_found (ends_throw fun d hd => done_nothing hd) fun a ha => ?_
  refine ends_pure fun d hd => done_show hd ?_
  simp only [Value.truthy_int hu, ↓reduceIte] at ha
  obtain ⟨found, hr, ha⟩ := bind_eq_ok ha
  cases found with
  | none => cases ha
  | some r =>
    cases ha
    obtain ⟨hmem, rfl, howns⟩ := mem_of_ownedReview hs hr
    have hmine : s.Mine user.id r.id := ⟨r, hmem, rfl, howns⟩
    simp only [itemsOf, forall_mem_cons, forall_mem_append, forall_mem_map]
    refine ⟨hmine, fun i hi => ?_, fun c hc => ?_⟩
    · obtain ⟨hi, hreview⟩ := mem_filter.mp hi
      exact reach_issue hi (by rwa [show i.reviewId = r.id by simpa using hreview])
    · obtain ⟨hc, hreview⟩ := mem_filter.mp hc
      exact reach_comment hs hc hreview hmine

lemma ends_updateReview (n : Int) (hf : ∀ c ∈ f.changes, c.1 ∉ Review.tied) :
    Shows user.id s (updateReview user (.int n) f) fun found => found.toList.map (Item.review ·.id) := by
  refine ((ends_ownReview hs user n).imp_error done_fail).bind fun before => ?_
  refine Ends.assume fun ⟨hbefore, hmine⟩ => ?_
  refine ((Reviews.ends_update hf n).imp_error done_fail).bind fun found => ends_pure ?_
  rintro d ⟨rows, hd, hrows, hid⟩
  refine ⟨_, _, hd, .editReview n hmine rows hrows, ?_⟩
  cases found with
  | none => exact fun x hx => by cases hx
  | some after =>
    have hseen : (Accounts.seenAfter (.int n) before.id before after).id = n := by
      unfold Accounts.seenAfter
      split
      · exact hid after rfl
      · exact hbefore
    refine forall_mem_singleton.mpr (.inl ?_)
    show s.Mine _ (Accounts.seenAfter (.int n) before.id before after).id
    rwa [hseen]

lemma ends_withReview (n : Int) {Q : α → Desk → Prop}
    (hx : s.Mine user.id n → Ends (At s) x Q (fun _ => Done user.id s [])) :
    Ends (At s) (do discard (ownReview user (.int n)); x) Q (fun _ => Done user.id s []) := by
  refine Ends.bind (R := fun _ d => At s d ∧ s.Mine user.id n) ?_ fun _ => Ends.assume hx
  exact Ends.discard (((ends_ownReview hs user n).imp_error done_fail).imp fun _ _ h => ⟨h.1, h.2.2⟩)

lemma ends_deleteReview (n : Int) : Shows user.id s (deleteReview user (.int n)) fun _ => [] := by
  refine ends_withReview hs user n fun hmine => Ends.discard ((Reviews.ends_remove n).imp ?_)
  rintro _ d (hd | hd)
  · exact ⟨_, _, hd, .dropReview n hmine, fun x hx => by cases hx⟩
  · exact done_nothing hd

omit hs in
lemma named_of_progressFields {t : Moment} {fs : Fields}
    (h : Reviews.progressFields t r = .ok fs) : named "review_id" fs = [.review r.id] := by
  unfold Reviews.progressFields at h
  split at h
  · cases h
  · obtain ⟨_, _, h⟩ := bind_eq_ok h
    obtain ⟨_, _, h⟩ := bind_eq_ok h
    obtain ⟨f, hf, h⟩ := bind_eq_ok h
    cases h
    exact named_of_read hf rfl rfl

lemma ends_reviewProgress (n : Int) :
    Shows user.id s (reviewProgress user (.int n)) (named "review_id") := by
  refine ends_withReview hs user n fun hmine =>
    ends_bind_found (ends_throw fun d hd => done_nothing hd) fun r hfound => ?_
  refine ends_now.bind fun t => (ends_ofOutcome _).mono ?_ done_fail
  rintro fs d ⟨hd, hfs⟩
  refine done_show hd ?_
  rw [named_of_progressFields hfs, id_of_reviewById hfound]
  exact forall_mem_singleton.mpr hmine

lemma ends_reviewIssues (n : Int) (f : Issues.Filter) :
    Shows user.id s (reviewIssues user (.int n) f) fun rows => rows.map (Item.issue ·.id) := by
  refine ends_withReview hs user n fun hmine => (ends_listed _).imp ?_
  rintro rows d ⟨hd, rfl | hrows⟩
  · exact done_nothing hd
  · refine done_show hd (forall_mem_map.mpr fun i hi => ?_)
    obtain ⟨_, h⟩ := bind_parameter_int hrows
    obtain ⟨picks, _, h⟩ := bind_eq_ok h
    cases h
    obtain ⟨hi, hpicked⟩ := mem_filter.mp (mem_mergeSort.mp hi)
    have hreview : i.reviewId = n := by
      simpa [intIs_int] using (Bool.and_eq_true_iff.mp hpicked).1
    exact reach_issue hi (hreview ▸ hmine)

lemma ends_reviewComments (n : Int) :
    Shows user.id s (reviewComments user (.int n)) fun rows => rows.map (Item.comment ·.id) := by
  refine ends_withReview hs user n fun hmine => (ends_listed _).imp ?_
  rintro rows d ⟨hd, rfl | hrows⟩
  · exact done_nothing hd
  · refine done_show hd (forall_mem_map.mpr fun c hc => ?_)
    obtain ⟨_, h⟩ := bind_parameter_int hrows
    cases h
    obtain ⟨hc, hreview⟩ := mem_filter.mp (mem_mergeSort.mp hc)
    exact reach_comment hs hc hreview hmine

lemma ends_addReviewComment (n : Int) (f : Filled) :
    Shows user.id s (addReviewComment user (.int n) f) fun c => [.comment c.id] := by
  refine ends_withReview hs user n fun hmine => ?_
  have hpositive : 0 < n := by
    obtain ⟨r, hr, hid, _⟩ := hmine
    exact hid ▸ hs.positive r hr
  refine (Comments.ends_create hpositive f _).mono ?_ done_fail
  rintro c d ⟨hd, hnew, hreview⟩
  exact ⟨_, _, hd, .addComment c n hnew hreview hmine, fun x hx => .inr hx⟩

lemma ends_requestSummary (n : Int) :
    Shows user.id s (requestSummary user (.int n)) (named "review_id") := by
  refine ends_withReview hs user n fun hmine => ?_
  refine Ends.bind (R := fun _ => At s) ?_ fun task => ends_pure fun d hd => done_show hd ?_
  · refine Ends.orElse ?_ fun _ _ h => h
    exact (ends_enqueue _).bind fun _ => ends_pure fun d hd => hd
  · rw [named_of_get rfl]
    exact forall_mem_singleton.mpr hmine

lemma ends_updateIssue (n : Int) (hf : ∀ c ∈ f.changes, c.1 ≠ "review_id") :
    Shows user.id s (updateIssue user (.int n) f) fun found => found.toList.map (Item.issue ·.id) := by
  refine ends_bind_found (ends_throw fun d hd => done_nothing hd) fun before hfound => ?_
  obtain ⟨hi, rfl⟩ := issueById_some hfound
  refine ends_bind_found (ends_throw fun d hd => done_nothing hd) fun r hreview => ?_
  have hmine := mine_of_ownedReview hs hreview
  refine ((Issues.ends_update hf before.id).imp_error done_fail).bind
    fun found => ends_pure ?_
  rintro d ⟨rows, hd, hrows, hid⟩
  refine ⟨_, _, hd, .editIssue before hi hmine rows hrows, ?_⟩
  cases found with
  | none => exact fun x hx => by cases hx
  | some after =>
    have hseen : (Accounts.seenAfter (.int before.id) before.id before after).id = before.id := by
      unfold Accounts.seenAfter
      split
      · exact hid after rfl
      · rfl
    refine forall_mem_singleton.mpr (.inl ?_)
    show s.Reach _ (.issue (Accounts.seenAfter (.int before.id) before.id before after).id)
    rw [hseen]
    exact reach_issue hi hmine

end

/-! ## All requests -/

/-- A request about repositories and reviews. What stands in a body can be any value. -/
inductive Call where
  | connectById (externalId : Value)
  | connectByUrl (body : Value)
  | disconnectRepository (repository : Int)
  | createReview (body : Value)
  | startAnalysis (body : Value)
  | listReviews (repository status skip limit : Value)
  | detailedReview (review : Int)
  | updateReview (review : Int) (body : Value)
  | deleteReview (review : Int)
  | reviewProgress (review : Int)
  | reviewIssues (review : Int) (filter : Issues.Filter)
  | updateIssue (issue : Int) (body : Value)
  | reviewComments (review : Int)
  | addComment (review : Int) (body : Value)
  | requestSummary (review : Int)

/-- The work of a request, and what of reviews its answer shows. -/
def Call.work (user : User) : Call → Work (List Item)
  | .connectById externalId => do
    discard (Api.connectById user externalId)
    return []
  | .connectByUrl body => do
    let f ← ofOutcome (connectRepositoryRequest.read body)
    discard (Api.connectByUrl user f)
    return []
  | .disconnectRepository repository => do
    Api.disconnectRepository user (.int repository)
    return []
  | .createReview body => do
    let f ← ofOutcome (reviewCreate.read body)
    return named "id" (← Api.createReview user f)
  | .startAnalysis body => do
    let f ← ofOutcome (analysisRequest.read body)
    return named "review_id" (← Api.startAnalysis user f)
  | .listReviews repository status skip limit => do
    return (← Reviews.list (.int user.id) repository status skip limit).flatMap (named "id")
  | .detailedReview review => do
    return itemsOf (← Api.detailedReview user (.int review))
  | .updateReview review body => do
    let f ← ofOutcome (reviewUpdate.read body)
    return (← Api.updateReview user (.int review) f).toList.map (Item.review ·.id)
  | .deleteReview review => do
    Api.deleteReview user (.int review)
    return []
  | .reviewProgress review => do
    return named "review_id" (← Api.reviewProgress user (.int review))
  | .reviewIssues review filter => do
    return (← Api.reviewIssues user (.int review) filter).map (Item.issue ·.id)
  | .updateIssue issue body => do
    let f ← ofOutcome (issueUpdate.read body)
    return (← Api.updateIssue user (.int issue) f).toList.map (Item.issue ·.id)
  | .reviewComments review => do
    return (← Api.reviewComments user (.int review)).map (Item.comment ·.id)
  | .addComment review body => do
    let f ← ofOutcome (commentCreate.read body)
    return [.comment (← Api.addReviewComment user (.int review) f).id]
  | .requestSummary review => do
    return named "review_id" (← Api.requestSummary user (.int review))

lemma ends_withBody {body : Value} {x : Filled → Work α} {Q : α → Desk → Prop}
    (hx : ∀ f, form.read body = .ok f → Ends (At s) (x f) Q (fun _ => Done u s [])) :
    Ends (At s) (ofOutcome (form.read body) >>= x) Q (fun _ => Done u s []) := by
  exact ((ends_ofOutcome _).imp_error done_fail).bind fun f => Ends.assume (hx f)

lemma ends_shown {x : Work α} {items : α → List Item}
    {E : Fault → Desk → Prop} (hx : Ends (At s) x (fun a => Done u s (items a)) E) :
    Ends (At s) (x >>= fun a => pure (items a)) (Done u s) E :=
  hx.bind fun _ => ends_pure fun _ h => h

/-- Whatever a user asks for, the request has an `Effect` of that user and shows only what the user
can reach. -/
lemma ends_call (hs : s.Whole) (user : User) (hu : 0 < user.id) (c : Call) :
    Ends (At s) (c.work user) (Done user.id s) (fun _ => Done user.id s []) := by
  cases c with
  | connectById externalId =>
    exact ends_shown (ends_connectById user externalId).discard
  | connectByUrl body =>
    refine ends_withBody fun f _ => ?_
    exact ends_shown (ends_connectByUrl user f).discard
  | disconnectRepository repository =>
    exact ends_shown (ends_disconnectRepository user hs repository)
  | createReview body =>
    refine ends_withBody fun f hf => ?_
    obtain ⟨m, hm⟩ := get_need_int hf "repository_id" rfl
    exact ends_shown (ends_createReview hs user hm)
  | startAnalysis body =>
    refine ends_withBody fun f _ => ?_
    exact ends_shown (ends_startAnalysis hs user f)
  | listReviews repository status skip limit =>
    exact ends_shown (ends_listReviews hs user repository status skip limit)
  | detailedReview review =>
    exact ends_shown (ends_detailedReview hs user hu review)
  | updateReview review body =>
    refine ends_withBody fun f hf => ?_
    have htied := changes_names (· ∉ Review.tied) hf (by decide)
    exact ends_shown (ends_updateReview hs user review htied)
  | deleteReview review =>
    exact ends_shown (ends_deleteReview hs user review)
  | reviewProgress review =>
    exact ends_shown (ends_reviewProgress hs user review)
  | reviewIssues review filter =>
    exact ends_shown (ends_reviewIssues hs user review filter)
  | updateIssue issue body =>
    refine ends_withBody fun f hf => ?_
    have htied := changes_names (· ≠ "review_id") hf (by decide)
    exact ends_shown (ends_updateIssue hs user issue htied)
  | reviewComments review =>
    exact ends_shown (ends_reviewComments hs user review)
  | addComment review body =>
    refine ends_withBody fun f _ => ?_
    exact ends_shown (ends_addReviewComment hs user review f)
  | requestSummary review =>
    exact ends_shown (ends_requestSummary hs user review)

end Api

end ReviewDesk
