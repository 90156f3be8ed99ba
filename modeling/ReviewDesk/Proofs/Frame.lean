import ReviewDesk.Http.Routes
import ReviewDesk.Proofs.Requests

/-!
# What requests leave alone

A request of a user writes to the user's part of the store only, whether it is answered or fails and
whatever it brings. Every statement of a request keeps what is said in `Spares`, so that it holds of
the store at every moment and of what is lasting.
-/

namespace ReviewDesk

open List Outcome Work Store Repositories Reviews

variable {α : Type} {u : Int} {s : Store}

namespace Store

/-! ## Rows of others -/

/-- Two tables differ at most in the rows that are somebody's own. -/
def SameOthers {α : Type} (mine : α → Bool) (rows rows' : List α) : Prop :=
  rows'.filter (!mine ·) = rows.filter (!mine ·)

section

variable {mine picks : α → Bool} {rows rows' rows'' : List α}

lemma SameOthers.snoc (h : SameOthers mine rows rows') {r : α} (hr : mine r = true) :
    SameOthers mine rows (rows' ++ [r]) := by
  rw [SameOthers, filter_append, h, filter_singleton]
  simp [hr]

lemma SameOthers.drop (h : SameOthers mine rows rows')
    (hpicks : ∀ r ∈ rows, picks r = true → mine r = true) :
    SameOthers mine rows (rows'.filter (!picks ·)) := by
  have hkept : ∀ r ∈ rows.filter (!mine ·), (!picks r) = true := by
    intro r hr
    obtain ⟨hmem, hother⟩ := mem_filter.mp hr
    by_contra hpicked
    have hmine := hpicks r hmem (by simpa using hpicked)
    simp [hmine] at hother
  calc (rows'.filter (!picks ·)).filter (!mine ·)
      = (rows'.filter (!mine ·)).filter (!picks ·) := by
        simp only [filter_filter, Bool.and_comm]
    _ = (rows.filter (!mine ·)).filter (!picks ·) := by rw [h]
    _ = rows.filter (!mine ·) := filter_eq_self.mpr hkept

lemma SameOthers.change (h : SameOthers mine rows rows')
    (hpicks : ∀ r ∈ rows, picks r = true → mine r = true) {f : α → Outcome α}
    (hf : ∀ r r', f r = .ok r' → mine r' = mine r)
    (hrows : changeWhere picks f rows' = .ok rows'') : SameOthers mine rows rows'' := by
  obtain ⟨g, rfl, hg⟩ := changeWhere_kept hrows
  have hmine : ∀ r ∈ rows', (!mine (g r)) = (!mine r) := by
    intro r hr
    rcases hg r hr with heq | ⟨_, hwritten⟩
    · rw [heq]
    · rw [hf r _ hwritten]
  have hsame : ∀ r ∈ rows'.filter (!mine ·), g r = r := by
    intro r hr
    have hr' : r ∈ rows.filter (!mine ·) := h ▸ hr
    obtain ⟨hmem, hother⟩ := mem_filter.mp hr'
    rcases hg r (mem_filter.mp hr).1 with heq | ⟨hpicked, _⟩
    · exact heq
    · simp [hpicks r hmem hpicked] at hother
  calc (rows'.map g).filter (!mine ·)
      = (rows'.filter fun r => !mine (g r)).map g := filter_map
    _ = (rows'.filter (!mine ·)).map g := by rw [filter_congr hmine]
    _ = rows'.filter (!mine ·) := by
        rw [map_congr_left hsame, map_id']
    _ = rows.filter (!mine ·) := h

end

/-- What a request of a user leaves alone: all users, and all rows that were not in the user's part.
The tables stay in order. -/
structure Spares (u : Int) (s s' : Store) : Prop where
  numbered : s'.Numbered
  users : s'.users = s.users
  repositories : SameOthers (·.ownedBy (.int u)) s.repositories s'.repositories
  reviews : SameOthers (s.underOwner (.int u)) s.reviews s'.reviews
  issues : SameOthers (s.issueUnder (.int u)) s.issues s'.issues
  comments : SameOthers (s.commentUnder (.int u)) s.comments s'.comments

namespace Spares

variable {s₁ s₂ : Store} {id : Value}

lemma refl (hs : s.Numbered) : Spares u s s := ⟨hs, rfl, rfl, rfl, rfl, rfl⟩

lemma underOwner_congr {r r' : Review} (h : r.SameTies r') (owner : Value) :
    s.underOwner owner r' = s.underOwner owner r := by
  rw [underOwner, repositoryOf?, h.repository]
  rfl

lemma changeRepository (h : Spares u s s₁)
    (hid : ∀ p ∈ s.repositories, Names id p.id → p.ownedBy (.int u) = true)
    {f : Repository → Outcome Repository} (hf : ∀ p p', f p = .ok p' → p.SameTies p')
    (hs : s₁.changeRepository id f = .ok s₂) : Spares u s s₂ := by
  obtain ⟨v, hv, hs⟩ := bind_eq_ok hs
  obtain ⟨rows, hrows, hs⟩ := bind_eq_ok hs
  cases hs
  refine { h with numbered := { h.numbered with repositories := ?_ }, repositories := ?_ }
  · exact h.numbered.repositories.changeWhere (fun p p' hp => (hf p p' hp).id) hrows
  · refine h.repositories.change (fun p hp hpicked => hid p hp ⟨v, hv, hpicked⟩) (fun p p' hp => ?_)
      hrows
    rw [Repository.ownedBy, (hf p p' hp).owner]
    rfl

lemma dropRepository (h : Spares u s s₁)
    (hid : ∀ p ∈ s.repositories, Names id p.id → p.ownedBy (.int u) = true)
    (hs : s₁.dropRepository id = .ok s₂) : Spares u s s₂ := by
  obtain ⟨v, hv, hs⟩ := bind_eq_ok hs
  cases hs
  refine { h with numbered := { h.numbered with repositories := ?_ }, repositories := ?_ }
  · exact h.numbered.repositories.filter _
  · exact h.repositories.drop fun p hp hpicked => hid p hp ⟨v, hv, hpicked⟩

lemma changeReview (h : Spares u s s₁)
    (hid : ∀ r ∈ s.reviews, Names id r.id → s.underOwner (.int u) r = true)
    {f : Review → Outcome Review} (hf : ∀ r r', f r = .ok r' → r.SameTies r')
    (hs : s₁.changeReview id f = .ok s₂) : Spares u s s₂ := by
  obtain ⟨v, hv, hs⟩ := bind_eq_ok hs
  obtain ⟨rows, hrows, hs⟩ := bind_eq_ok hs
  cases hs
  refine { h with numbered := { h.numbered with reviews := ?_ }, reviews := ?_ }
  · exact h.numbered.reviews.changeWhere (fun r r' hr => (hf r r' hr).id) hrows
  · exact h.reviews.change (fun r hr hpicked => hid r hr ⟨v, hv, hpicked⟩)
      (fun r r' hr => underOwner_congr (hf r r' hr) _) hrows

lemma dropReview (h : Spares u s s₁)
    (hid : ∀ r ∈ s.reviews, Names id r.id → s.underOwner (.int u) r = true)
    (hs : s₁.dropReview id = .ok s₂) : Spares u s s₂ := by
  obtain ⟨v, hv, hs⟩ := bind_eq_ok hs
  cases hs
  refine { h with numbered := { h.numbered with reviews := ?_ }, reviews := ?_ }
  · exact h.numbered.reviews.filter _
  · exact h.reviews.drop fun r hr hpicked => hid r hr ⟨v, hv, hpicked⟩

lemma changeIssue (h : Spares u s s₁)
    (hid : ∀ i ∈ s.issues, Names id i.id → s.issueUnder (.int u) i = true)
    {f : Issue → Outcome Issue} (hf : ∀ i i', f i = .ok i' → i.SameTies i')
    (hs : s₁.changeIssue id f = .ok s₂) : Spares u s s₂ := by
  obtain ⟨v, hv, hs⟩ := bind_eq_ok hs
  obtain ⟨rows, hrows, hs⟩ := bind_eq_ok hs
  cases hs
  refine { h with numbered := { h.numbered with issues := ?_ }, issues := ?_ }
  · exact h.numbered.issues.changeWhere (fun i i' hi => (hf i i' hi).1) hrows
  · refine h.issues.change (fun i hi hpicked => hid i hi ⟨v, hv, hpicked⟩) (fun i i' hi => ?_) hrows
    rw [issueUnder, reviewOf?, (hf i i' hi).2]
    rfl

lemma addComment (h : Spares u s s₁) {make : Int → Outcome Comment} {c : Comment}
    (hmake : ∀ n c, make n = .ok c → c.id = n ∧ s.commentUnder (.int u) c = true)
    (hs : s₁.addComment make = .ok (c, s₂)) : Spares u s s₂ := by
  obtain ⟨q, hq, hs⟩ := bind_eq_ok hs
  cases hs
  obtain ⟨hid, hunder⟩ := hmake _ _ hq
  refine { h with numbered := { h.numbered with comments := ?_ }, comments := ?_ }
  · exact h.numbered.comments.snoc hid
  · exact h.comments.snoc hunder

end Spares

end Store

/-! ## Writing -/

section

variable {id : Value}

namespace Repositories

variable (hid : ∀ p ∈ s.repositories, Names id p.id → p.ownedBy (.int u) = true)

include hid

lemma within_write {f : Repository → Outcome Repository}
    (hf : ∀ p p', f p = .ok p' → p.SameTies p') : Within (Spares u s) (write id f) := by
  refine within_now.bind fun t => (within_change fun s₁ s₂ h₁ h₂ => ?_).bind fun _ => within_commit
  refine h₁.changeRepository hid (fun p p' hp => ?_) h₂
  obtain ⟨q, hq, hp⟩ := bind_eq_ok hp
  cases hp
  exact ⟨(hf p q hq).id, (hf p q hq).owner⟩

lemma within_update {f : Filled} (hf : ∀ c ∈ f.changes, c.1 ≠ "owner_id") :
    Within (Spares u s) (update id f) := by
  have hfind : Within (Spares u s) (find id) := (within_query _).orElse none
  refine Within.orRollback ?_
  split
  · exact (within_write hid fun p p' hp => Repository.setAll_ties hp hf).bind fun _ => hfind
  · exact hfind

lemma within_setWebhook (hook : Value) : Within (Spares u s) (setWebhook id hook) := by
  refine ((within_ofOutcome _).bind fun _ => within_write hid fun p p' hp => ?_).succeeds
  cases hp
  exact ⟨rfl, rfl⟩

lemma within_disconnect : Within (Spares u s) (disconnect id) := by
  refine ((within_change fun s₁ s₂ h₁ h₂ => ?_).bind fun _ => within_commit).succeeds
  exact h₁.dropRepository hid h₂

omit hid in
/-- A repository that was connected belongs to the user and has a number of its own. -/
lemma spares_connect (hs : s.Numbered) (f : Filled) : Ends (At s) (connect f (.int u))
      (fun p d => Holds (Spares u s) d ∧ p.id ∉ s.repositories.map (·.id))
      (fun _ => Holds (Spares u s)) := by
  refine (ends_connect f u).mono ?_ fun _ d hd => holds_at hd (.refl hs)
  rintro p d ⟨hd, hid, howner, _⟩
  have howned : p.ownedBy (.int u) = true := by
    rw [Repository.ownedBy, howner, figureIs_int, beq_self_eq_true]
  have hsame : SameOthers (·.ownedBy (.int u)) s.repositories (s.repositories ++ [p]) :=
    SameOthers.snoc rfl howned
  refine ⟨holds_at hd { Spares.refl hs with numbered := ?_, repositories := hsame },
    hid ▸ nextId_notMem _⟩
  exact { hs with repositories := hs.repositories.snoc hid }

end Repositories

namespace Reviews

lemma within_update (hid : ∀ r ∈ s.reviews, Names id r.id → s.underOwner (.int u) r = true)
    {f : Filled} (hf : ∀ c ∈ f.changes, c.1 ∉ Review.tied) : Within (Spares u s) (update id f) := by
  have hfind : Within (Spares u s) (find id) := (within_query _).orElse none
  have hwrite : Within (Spares u s) (write id (·.setAll f.changes)) := by
    refine within_now.bind fun t => (within_change fun s₁ s₂ h₁ h₂ => ?_).bind fun _ => within_commit
    refine h₁.changeReview hid (fun r r' hr => ?_) h₂
    obtain ⟨q, hq, hr⟩ := bind_eq_ok hr
    cases hr
    have hties := Review.setAll_ties hq hf
    exact ⟨hties.id, hties.repository, hties.author⟩
  refine Within.orRollback ?_
  split
  · exact hwrite.bind fun _ => hfind
  · exact hfind

lemma within_remove (hid : ∀ r ∈ s.reviews, Names id r.id → s.underOwner (.int u) r = true) :
    Within (Spares u s) (remove id) := by
  refine ((within_change fun s₁ s₂ h₁ h₂ => ?_).bind fun _ => within_commit).succeeds
  exact h₁.dropReview hid h₂

lemma spares_create (hs : s.Numbered) (f : Filled) :
    Ends (At s) (create f (.int u)) (fun _ => Holds (Spares u s)) (fun _ => Holds (Spares u s)) := by
  refine (ends_createAs f (.int u)).mono ?_ fun _ d hd => holds_at hd (.refl hs)
  rintro r d ⟨hd, hnew, _, hrepository, p, hp, hid, hsame⟩
  have howned : p.ownedBy (.int u) = true := figureIs_of_same hsame
  have hunder : s.underOwner (.int u) r = true :=
    underOwner_of_mem hs.keyed hp (hid.eq_of_wholeColumn hrepository).symm howned
  exact holds_at hd { Spares.refl hs with
    numbered := { hs with reviews := hs.reviews.snoc hnew }
    reviews := SameOthers.snoc rfl hunder }

end Reviews

namespace Issues

lemma within_update (hid : ∀ i ∈ s.issues, Names id i.id → s.issueUnder (.int u) i = true)
    {f : Filled} (hf : ∀ c ∈ f.changes, c.1 ≠ "review_id") : Within (Spares u s) (update id f) := by
  refine Within.orRollback ?_
  split
  · refine within_now.bind fun t => (within_change fun s₁ s₂ h₁ h₂ => ?_).bind fun _ =>
      within_commit.bind fun _ => (within_query _).orElse none
    exact h₁.changeIssue hid (fun i i' hi => changed_ties hf hi) h₂
  · exact (within_query _).orElse none

end Issues

namespace Comments

lemma within_create {f : Filled} {author review : Value} (htruthy : review.truthy = true)
    (hreview : ∀ c : Comment, integerColumn review = .ok c.reviewId →
      s.commentUnder (.int u) c = true) : Within (Spares u s) (create f author review) := by
  have hnull : review.isNull = false := by
    cases review with
    | null => cases htruthy
    | bool | int | real | text | list | object => rfl
  refine Within.orRollback (within_now.bind fun t => within_add fun s₁ c s₂ h₁ h₂ => ?_)
  refine h₁.addComment (fun n c hc => ?_) h₂
  rw [newComment, htruthy] at hc
  obtain ⟨hid, hcolumn⟩ := Comment.ofFields_review hnull hc
  exact ⟨hid, hreview c hcolumn⟩

end Comments

end

/-! ## Requests -/

namespace Api

section

variable (hs : s.Numbered) (user : User) (id : Value)
variable {x : Work α} {f : Filled} {I : Store → Prop}

/-- A request of a user that leaves everything of others alone. -/
def SparesOthers (s : Store) (user : User) (x : Work α) : Prop :=
  Ends (At s) x (fun _ => Holds (Spares user.id s)) (fun _ => Holds (Spares user.id s))

include hs

lemma holds_start (d : Desk) (hd : At s d) : Holds (Spares user.id s) d := holds_at hd (.refl hs)

lemma SparesOthers.of_within (hx : Within (Spares user.id s) x) : SparesOthers s user x :=
  Ends.pre (holds_start hs user) hx

lemma spares_withRepository {f : Repository → Work α}
    (hf : ∀ p, (∀ q ∈ s.repositories, Names id q.id → q.ownedBy (.int user.id) = true) →
      Within (Spares user.id s) (f p)) : SparesOthers s user (ownRepository user id >>= f) := by
  unfold ownRepository
  rw [SparesOthers, bind_assoc]
  refine ends_bind_found (ends_throw (holds_start hs user)) fun p hfound => ?_
  obtain ⟨hp, hid, howned⟩ := owned_some hfound
  exact Ends.pre (holds_start hs user)
    (hf p (forall_named hs.keyed.repositories hp hid howned))

lemma spares_withReview {f : Review → Work α}
    (hf : ∀ r ∈ s.reviews, Names id r.id → s.underOwner (.int user.id) r = true →
      Within (Spares user.id s) (f r)) : SparesOthers s user (ownReview user id >>= f) := by
  unfold ownReview
  rw [SparesOthers, bind_assoc]
  refine ends_bind_found (ends_throw (holds_start hs user)) fun r hfound => ?_
  obtain ⟨hr, hid, hunder⟩ := ownedReview_some hfound
  exact Ends.pre (holds_start hs user) (hf r hr hid hunder)

/-! ## Requests about repositories -/

omit hs in
lemma within_preferencesOf (u : Int) : Within I (preferencesOf u) :=
  (within_query _).bind fun _ => within_pure _

omit hs in
lemma within_listRepositories (u : Value) (f : Repositories.Filter)
    (skip limit : Value) : Within I (Repositories.list u f skip limit) :=
  (within_query _).orElse []

omit hs in
lemma within_availableRepositories : Within I (availableRepositories user) := by
  unfold availableRepositories
  split
  · exact within_throw _
  · refine Within.tryCatch ?_ fun _ => within_throw _
    refine ((within_preferencesOf _).bind fun _ => within_web _).bind fun found => ?_
    refine (within_listRepositories _ _ _ _).bind fun connected => Within.mapM fun r => ?_
    exact (within_ofOutcome _).bind fun _ => within_pure _

omit hs in
lemma within_withFigures (u : Value) : Within I (Repositories.withFigures id u) := by
  refine Within.orElse ?_ none
  refine Within.bind_found (within_query _) (within_pure none) fun p => ?_
  refine within_get.bind fun _ => ((within_query _).orElse []).bind fun recent => ?_
  refine Within.bind (Within.orElse ?_ []) fun trend => within_pure _
  exact within_now.bind fun _ => (within_ofOutcome _).bind fun _ => within_query _

lemma spares_branches : SparesOthers s user (branches user id) := by
  refine spares_withRepository hs user id fun p _ => Within.tryCatch ?_ fun _ => within_throw _
  exact ((within_preferencesOf _).bind fun _ => within_web _).bind fun _ => within_pure _

lemma spares_analyzeRepository : SparesOthers s user (analyzeRepository user id) := by
  refine spares_withRepository hs user id fun p _ => ?_
  split
  · exact within_throw _
  · exact within_throw _

omit hs in
/-- A hook is noted at the repository that was just connected. -/
lemma within_tryHook {p : Repository} (hp : p.id ∉ s.repositories.map (·.id)) :
    Within (Spares user.id s) (tryHook user p) := by
  have hnew : ∀ q ∈ s.repositories, Names (.int p.id) q.id → q.ownedBy (.int user.id) = true :=
    fun q hq hname => absurd (hname.eq ▸ mem_map_of_mem hq) hp
  refine Within.orElse (within_settings.bind fun _ => ?_) ()
  refine ((within_preferencesOf _).bind fun _ => within_web _).bind fun hook => ?_
  split
  · exact (within_setWebhook hnew hook).discard
  · exact within_pure ()

lemma spares_connectById (externalId : Value) :
    SparesOthers s user (connectById user externalId) := by
  unfold connectById
  split
  · exact ends_throw (holds_start hs user)
  · refine Ends.tryCatch (F := fun _ => Holds (Spares user.id s)) ?_ fun fault => ?_
    · refine (ends_found _).bind fun found => ?_
      split
      · exact ends_throw fun d hd => holds_start hs user d hd.1
      · have hstart := holds_start hs user
        refine Ends.assume fun _ => ((ends_hostDetails _ _ _).imp_error fun _ => hstart).bind
          fun info => ?_
        refine ((ends_ofOutcome _).imp_error fun _ => hstart).bind fun form => Ends.assume fun _ => ?_
        refine (spares_connect hs form).bind fun p => Ends.assume fun hp => ?_
        refine (within_tryHook user hp).bind fun _ => ?_
        exact ((within_enqueue _).discard.orElse ()).bind fun _ => within_get.bind fun _ =>
          within_pure _
    · split
      · exact within_throw _
      · exact within_throw _

lemma spares_connectByUrl (f : Filled) : SparesOthers s user (connectByUrl user f) := by
  refine ((ends_web _).imp_error fun _ => holds_start hs user).bind fun info => ?_
  refine ((ends_ofOutcome _).imp_error fun _ => holds_start hs user).bind fun form =>
    Ends.assume fun _ => ?_
  refine Ends.bind (Ends.discard (Q := Holds (Spares user.id s)) ?_) fun _ => within_throw _
  exact (spares_connect hs form).imp fun _ _ h => h.1

omit hs in
lemma update_keeps_owner {v : Value} (h : Form.repositoryUpdate.read v = .ok f) :
    ∀ c ∈ f.changes, c.1 ≠ "owner_id" :=
  Form.changes_names (· ≠ "owner_id") h (by decide)

lemma spares_syncRepository : SparesOthers s user (syncRepository user id) := by
  refine spares_withRepository hs user id fun p hid => Within.tryCatch ?_ fun _ => within_throw _
  refine ((within_preferencesOf _).bind fun _ => within_web _).bind fun info => ?_
  refine (within_ofOutcome _).bind fun name => (within_ofOutcome _).discard.bind fun _ => ?_
  refine (within_ofOutcome _).discard.bind fun _ => (ends_ofOutcome _).bind fun form => ?_
  refine Ends.assume fun hform => ?_
  exact (within_update hid (update_keeps_owner hform)).bind fun _ => within_pure _

lemma spares_disconnectRepository : SparesOthers s user (disconnectRepository user id) := by
  refine spares_withRepository hs user id fun p hid => ?_
  have hdrop := (within_disconnect hid).discard
  split
  · exact ((within_ofOutcome _).discard.orElse ()).bind fun _ => hdrop
  · exact hdrop

/-! ## Requests about reviews -/

lemma spares_listReviews (repository status skip limit : Value) :
    SparesOthers s user (Reviews.list (.int user.id) repository status skip limit) := by
  refine .of_within hs user (Within.orElse ((within_query _).bind fun rs => ?_) [])
  exact Within.mapM fun r => (within_ofOutcome _).bind fun _ => within_pure _

lemma spares_createReview (f : Filled) : SparesOthers s user (createReview user f) := by
  refine Ends.bind (R := fun _ => Holds (Spares user.id s)) ?_ fun a => ?_
  · refine Ends.tryCatch (F := fun _ => Holds (Spares user.id s)) ?_ fun fault => ?_
    · refine ((ends_repositoryFor user _).imp_error fun _ => holds_start hs user).bind fun p => ?_
      refine (spares_create hs _).bind fun r => ?_
      exact (within_ofOutcome _).bind fun _ => within_pure _
    · split <;> exact within_throw _
  · obtain ⟨summary, analysis⟩ := a
    cases analysis with
    | none => exact within_pure summary
    | some numbers => exact ((within_enqueue _).discard.orElse ()).bind fun _ => within_pure summary

lemma spares_startAnalysis (f : Filled) : SparesOthers s user (startAnalysis user f) := by
  refine Ends.tryCatch (F := fun _ => Holds (Spares user.id s)) ?_ fun _ => within_throw _
  refine ((ends_repositoryFor user _).imp_error fun _ => holds_start hs user).bind fun p => ?_
  refine ((ends_ofOutcome _).imp_error fun _ => holds_start hs user).bind fun form =>
    Ends.assume fun _ => ?_
  refine (spares_create hs form).bind fun r => Within.bind (Within.orElse ?_ none) fun _ =>
    within_pure _
  exact (within_enqueue _).bind fun _ => within_pure _

lemma spares_updateReview (hf : ∀ c ∈ f.changes, c.1 ∉ Review.tied) :
    SparesOthers s user (updateReview user id f) := by
  refine spares_withReview hs user id fun r hr hid hunder => ?_
  have hmine := forall_named hs.keyed.reviews hr hid hunder
  exact (within_update hmine hf).bind fun _ => within_pure _

/-- As `spares_withReview`, for a review that is not needed any more. -/
lemma spares_afterReview
    (hx : ∀ r ∈ s.reviews, Names id r.id → s.underOwner (.int user.id) r = true →
      Within (Spares user.id s) x) : SparesOthers s user (do discard (ownReview user id); x) := by
  have hbind : (do discard (ownReview user id); x) = (ownReview user id >>= fun _ => x) :=
    bind_map_left _ _ _
  rw [hbind]
  exact spares_withReview hs user id hx

lemma spares_deleteReview : SparesOthers s user (deleteReview user id) := by
  refine spares_afterReview hs user id fun r hr hid hunder => Within.discard ?_
  exact within_remove (forall_named hs.keyed.reviews hr hid hunder)

lemma spares_reviewProgress : SparesOthers s user (reviewProgress user id) := by
  refine spares_afterReview hs user id fun _ _ _ _ => ?_
  refine ((within_query _).orElse none).bind_found (within_throw _) fun r => ?_
  exact within_now.bind fun _ => within_ofOutcome _

lemma spares_requestSummary : SparesOthers s user (requestSummary user id) := by
  refine spares_afterReview hs user id fun _ _ _ _ => Within.bind (Within.orElse ?_ none) fun _ =>
    within_pure _
  exact (within_enqueue _).bind fun _ => within_pure _

lemma spares_updateIssue (hf : ∀ c ∈ f.changes, c.1 ≠ "review_id") :
    SparesOthers s user (updateIssue user id f) := by
  have hthrow {β : Type} (e : Fault) : SparesOthers s user (throw e : Work β) :=
    ends_throw (holds_start hs user)
  refine ends_bind_found (hthrow _) fun i hfound => ends_bind_found (hthrow _) fun r hreview => ?_
  obtain ⟨hi, hid⟩ := issueById_names hfound
  obtain ⟨hr, hname, hunder⟩ := ownedReview_some hreview
  have hmine := issueUnder_of_mem hs.keyed hr hname.eq hunder
  have hall := forall_named hs.keyed.issues hi hid hmine
  exact Ends.pre (holds_start hs user) ((Issues.within_update hall hf).bind fun _ => within_pure _)

lemma spares_addReviewComment (f : Filled) : SparesOthers s user (addReviewComment user id f) := by
  refine spares_afterReview hs user id fun r hr hid hunder => ?_
  have hpos : 0 < r.id := hs.reviews.pos (mem_map_of_mem hr)
  refine Comments.within_create (truthy_of_names hid hpos) fun c hc => ?_
  exact commentUnder_of_mem hr (figureIs_of_names hc hid) hunder

end

end Api

/-! ## Routes -/

namespace Http

open Api

section

variable (hs : s.Numbered) (user : User) {g : Given}

lemma spares_shown {x : Work α} {answer : α → Answer} (hx : SparesOthers s user x) :
    SparesOthers s user (x >>= fun a => pure (answer a)) :=
  Ends.bind hx fun _ => within_pure _

include hs

lemma spares_repositoryRoutes {r : Route} (hr : r ∈ repositoryRoutes)
    (hbody : ∀ form, r.content = .object form → ∃ v, form.read v = .ok g.body) :
    SparesOthers s user (r.call (some user) g) := by
  fin_cases hr <;> refine spares_shown user ?_
  · exact .of_within hs user (within_listRepositories _ _ _ _)
  · exact .of_within hs user (within_availableRepositories user)
  · exact spares_connectById hs user _
  · exact .of_within hs user
      ((within_withFigures _ _).bind_found (within_throw _) within_pure)
  · exact spares_connectByUrl hs user _
  · obtain ⟨v, hv⟩ := hbody Form.repositoryUpdate rfl
    exact spares_withRepository hs user _ fun _ hid =>
      (within_update hid (update_keeps_owner hv)).bind fun _ => within_pure _
  · exact spares_disconnectRepository hs user _
  · exact spares_analyzeRepository hs user _
  · exact spares_branches hs user _
  · exact spares_syncRepository hs user _

lemma spares_reviewRoutes {r : Route} (hr : r ∈ reviewRoutes)
    (hbody : ∀ form, r.content = .object form → ∃ v, form.read v = .ok g.body) :
    SparesOthers s user (r.call (some user) g) := by
  fin_cases hr <;> refine spares_shown user ?_
  · exact spares_listReviews hs user _ _ _ _
  · exact .of_within hs user
      (((within_query _).orElse none).bind_found (within_throw _) within_pure)
  · exact spares_createReview hs user _
  · obtain ⟨v, hv⟩ := hbody Form.reviewUpdate rfl
    exact spares_updateReview hs user _ (Form.changes_names (· ∉ Review.tied) hv (by decide))
  · exact spares_deleteReview hs user _
  · exact spares_startAnalysis hs user _
  · exact spares_reviewProgress hs user _
  · exact spares_afterReview hs user _ fun _ _ _ _ => (within_query _).orElse []
  · obtain ⟨v, hv⟩ := hbody Form.issueUpdate rfl
    exact spares_updateIssue hs user _ (Form.changes_names (· ≠ "review_id") hv (by decide))
  · exact spares_afterReview hs user _ fun _ _ _ _ => (within_query _).orElse []
  · exact spares_addReviewComment hs user _ _
  · exact spares_requestSummary hs user _

/-- Whatever a user asks for, with any numbers and any body, at a desk where statements and commits
may fail: all users stay as they are, and so does every row outside the user's part. None is changed,
taken away or added. -/
theorem request_spares_others {r : Route} (hr : r ∈ repositoryRoutes ++ reviewRoutes)
    (hbody : ∀ form, r.content = .object form → ∃ v, form.read v = .ok g.body) {d : Desk}
    (hd : At s d) : Spares user.id s (run (r.call (some user) g) d).2.store ∧
      Spares user.id s (run (r.call (some user) g) d).2.lasting := by
  have h : SparesOthers s user (r.call (some user) g) := by
    rcases mem_append.mp hr with hr | hr
    · exact spares_repositoryRoutes hs user hr hbody
    · exact spares_reviewRoutes hs user hr hbody
  have hend := h d hd
  rcases hrun : run (r.call (some user) g) d with ⟨_ | a, d'⟩
  · rw [hrun] at hend
    exact hend
  · rw [hrun] at hend
    exact hend

end

lemma eq_ok_getD {x : Outcome α} (h : x.toOption.isSome = true) (a : α) :
    x = .ok (x.toOption.getD a) := by
  cases x with
  | error e => cases h
  | ok b => rfl

def commentBody : Value := .object [("content", .text "done"), ("review_id", .int 2)]

/-- A comment that is posted to another review than the one that its body names. -/
def commentGiven : Given where
  values := [("review_id", .int 1)]
  body := (Form.commentCreate.read commentBody).toOption.getD ⟨[], []⟩

/-- The first of two owners comments on a review and names the review of the second one: the comment
is stored, and nothing that hangs off the second one's repository changes. -/
theorem comment_spares_second_owner :
    let d : Desk := { store := twoOwners, lasting := twoOwners, now := ⟨0⟩ }
    let d' := (run (Route.addComment.call (some (sampleUser 1)) commentGiven) d).2
    twoOwners.Numbered ∧ At twoOwners d ∧ d'.lasting.comments.length = 1 ∧
      (Spares 1 twoOwners d'.store ∧ Spares 1 twoOwners d'.lasting) := by
  refine ⟨numbered_twoOwners, ⟨rfl, rfl⟩, by decide +kernel, ?_⟩
  refine request_spares_others numbered_twoOwners (sampleUser 1)
    (mem_append_right _ (by simp [reviewRoutes])) (fun form hform => ?_) ⟨rfl, rfl⟩
  cases hform
  exact ⟨commentBody, eq_ok_getD (by decide +kernel) ⟨[], []⟩⟩

end Http

end ReviewDesk
