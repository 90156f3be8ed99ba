import ReviewDesk.Proofs.Forms
import ReviewDesk.Proofs.Services

/-!
# Reviews that are completed and issues that are resolved

A review is finished by its status alone: then the moment and all progress are noted. A form writes
the status and nothing else, a later status keeps the moment, and progress is noted at any time. The
moment when an issue is called resolved is noted, and nothing takes it away again.
-/

namespace ReviewDesk

open List Outcome Work Store Journal

variable {r r' : Review} {s : Store} {i j : Issue}

/-! ## Columns -/

namespace Review

def staged : List String := ["status", "progress", "completed_at"]

structure SameStage (r r' : Review) : Prop where
  status : r'.status = r.status
  progress : r'.progress = r.progress
  completedAt : r'.completedAt = r.completedAt

lemma SameStage.refl (r : Review) : SameStage r r := ⟨rfl, rfl, rfl⟩

lemma SameStage.trans {a b c : Review} (h : SameStage a b) (h' : SameStage b c) : SameStage a c :=
  ⟨h'.status.trans h.status, h'.progress.trans h.progress, h'.completedAt.trans h.completedAt⟩

lemma set_stage {column : String} {v : Value} (h : r.set column v = .ok r')
    (hc : column ∉ staged) : SameStage r r' := by
  unfold set at h
  split at h
  all_goals
    repeat obtain ⟨_, _, h⟩ := bind_eq_ok h
    cases h
  all_goals first | exact ⟨rfl, rfl, rfl⟩ | exact absurd (by decide) hc

lemma set_status {v : Value} (h : r.set "status" v = .ok r') :
    ∃ status, statusColumn v = .ok status ∧ r' = { r with status } := by
  obtain ⟨status, hstatus, h⟩ := bind_eq_ok h
  cases h
  exact ⟨status, hstatus, rfl⟩

lemma setAll_stage {changes : Fields} (h : r.setAll changes = .ok r')
    (hc : ∀ c ∈ changes, c.1 ∉ staged) : SameStage r r' :=
  foldlM_keeps (P := SameStage r) h (.refl r) fun c hmem _ _ hq hset =>
    hq.trans (set_stage hset (hc c hmem))

lemma ofFields_stage {now : Moment} {id : Int} {fs : Fields} (h : ofFields now id fs = .ok r)
    (hfs : ∀ c ∈ fs, c.1 ∉ staged) :
    r.status = .pending ∧ r.progress = some 0 ∧ r.completedAt = none := by
  obtain ⟨_, _, h⟩ := bind_eq_ok h
  obtain ⟨title, _, h⟩ := bind_eq_ok h
  obtain ⟨_, _, h⟩ := bind_eq_ok h
  obtain ⟨repository, _, h⟩ := bind_eq_ok h
  obtain ⟨_, _, h⟩ := bind_eq_ok h
  obtain ⟨author, _, h⟩ := bind_eq_ok h
  have hstage := setAll_stage h fun c hc =>
    hfs c (mem_filter.mp (mem_filter.mp hc).1).1
  exact ⟨hstage.status, hstage.progress, hstage.completedAt⟩

/-- A completed review has its moment and all progress, and no other one has a moment. -/
def Settled (r : Review) : Prop :=
  (r.status = .completed → r.completedAt.isSome ∧ r.progress = some 1) ∧
    (r.status ≠ .completed → r.completedAt = none)

instance (r : Review) : Decidable r.Settled := inferInstanceAs (Decidable (_ ∧ _))

end Review

namespace Reviews

/-! ## Marks -/

/-- What a call leaves on a review: it is finished, a status is written by itself, or progress is
noted. -/
inductive Mark where
  | finish
  | status (status : ReviewStatus)
  | progress (x : Float)
  deriving DecidableEq

def Mark.status? : Mark → Option ReviewStatus
  | finish => some .completed
  | status st => some st
  | progress _ => none

def Mark.progress? : Mark → Option Float
  | finish => some 1
  | status _ => none
  | progress x => some x

def lastStatus (ms : List Mark) : ReviewStatus := (ms.filterMap Mark.status?).getLastD .pending

def lastProgress (ms : List Mark) : Float := (ms.filterMap Mark.progress?).getLastD 0

section

variable {ms : List Mark}

lemma lastStatus_snoc (ms : List Mark) (m : Mark) :
    lastStatus (ms ++ [m]) = m.status?.getD (lastStatus ms) := by
  unfold lastStatus
  rw [filterMap_append]
  cases h : m.status? <;> simp [h]

lemma lastProgress_snoc (ms : List Mark) (m : Mark) :
    lastProgress (ms ++ [m]) = m.progress?.getD (lastProgress ms) := by
  unfold lastProgress
  rw [filterMap_append]
  cases h : m.progress? <;> simp [h]

/-- The columns of a review are what the marks on it say. -/
structure Lived (ms : List Mark) (r : Review) : Prop where
  status : r.status = lastStatus ms
  progress : r.progress = some (lastProgress ms)
  finished : r.completedAt.isSome ↔ .finish ∈ ms

lemma Lived.of_sameStage (h : Lived ms r) (hstage : r.SameStage r') : Lived ms r' where
  status := hstage.status.trans h.status
  progress := hstage.progress.trans h.progress
  finished := by rw [hstage.completedAt, h.finished]

/-- Whatever a review was before, finishing it brings its columns together. -/
lemma lived_finish (ms : List Mark) (r : Review) (t : Moment) :
    Lived (ms ++ [.finish]) (withState .completed t r) where
  status := (lastStatus_snoc ms .finish).symm
  progress := congrArg some (lastProgress_snoc ms .finish).symm
  finished := iff_of_true rfl (by simp)

lemma Lived.withStatus (h : Lived ms r) (status : ReviewStatus) :
    Lived (ms ++ [.status status]) { r with status } where
  status := (lastStatus_snoc ms (.status status)).symm
  progress := by rw [lastProgress_snoc]; exact h.progress
  finished := by simpa using h.finished

lemma Lived.withProgress (h : Lived ms r) (x : Float) (metadata : Value) :
    Lived (ms ++ [.progress x]) { r with progress := some x, metadata } where
  status := by rw [lastStatus_snoc]; exact h.status
  progress := congrArg some (lastProgress_snoc ms (.progress x)).symm
  finished := by simpa using h.finished

/-- The statuses that a form writes. -/
def statusMarks (changes : Fields) : List Mark :=
  changes.filterMap fun c =>
    if c.1 = "status" then (Review.statusColumn c.2).toOption.map .status else none

lemma Lived.setAll {changes : Fields} (h : Lived ms r) (hset : r.setAll changes = .ok r')
    (hc : ∀ c ∈ changes, c.1 ∉ Review.staged ∨ c.1 = "status") :
    Lived (ms ++ statusMarks changes) r' := by
  induction changes generalizing r ms with
  | nil =>
    cases hset
    rwa [statusMarks, filterMap_nil, append_nil]
  | cons c changes ih =>
    obtain ⟨column, v⟩ := c
    obtain ⟨q, hq, hset⟩ := bind_eq_ok hset
    have hrest := fun c hc' => hc c (.tail _ hc')
    rcases hc _ (.head _) with hother | hstatus
    · have hnone : statusMarks ((column, v) :: changes) = statusMarks changes := by
        refine filterMap_cons_none (if_neg fun heq => hother ?_)
        rw [heq]
        decide
      rw [hnone]
      exact ih (h.of_sameStage (Review.set_stage hq hother)) hset hrest
    · obtain rfl : column = "status" := hstatus
      obtain ⟨status, hcolumn, rfl⟩ := Review.set_status hq
      have hsome : statusMarks (("status", v) :: changes) = .status status :: statusMarks changes :=
        filterMap_cons_some (by rw [if_pos rfl, hcolumn]; rfl)
      rw [hsome, append_cons]
      exact ih (h.withStatus status) hset hrest

/-- How the marks on a review must stand for the review to be settled. -/
def Orderly (ms : List Mark) : Prop :=
  (lastStatus ms = .completed ↔ .finish ∈ ms) ∧ (.finish ∈ ms → lastProgress ms = 1)

instance (ms : List Mark) : Decidable (Orderly ms) := inferInstanceAs (Decidable (_ ∧ _))

lemma Lived.settled_iff (h : Lived ms r) : r.Settled ↔ Orderly ms := by
  have hnone : r.completedAt = none ↔ .finish ∉ ms := by
    rw [← h.finished]
    simp
  have hone : r.progress = some 1 ↔ lastProgress ms = 1 := by
    rw [h.progress, Option.some_inj]
  unfold Review.Settled Orderly
  rw [hnone, hone, h.status, h.finished]
  constructor
  · rintro ⟨hdone, hother⟩
    have hlast : .finish ∈ ms → lastStatus ms = .completed :=
      fun hfinish => by_contra fun hne => hother hne hfinish
    exact ⟨⟨fun h => (hdone h).1, hlast⟩, fun hfinish => (hdone (hlast hfinish)).2⟩
  · rintro ⟨hiff, hall⟩
    exact ⟨fun h => ⟨hiff.mp h, hall (hiff.mp h)⟩, fun hne hfinish => hne (hiff.mpr hfinish)⟩

end

/-! ## Calls -/

inductive Change where
  | form (body : Value)
  | status (status : ReviewStatus)
  | progress (progress file : Value)
  | fileCounts (total analyzed : Value)
  | results (metrics total : Value)
  | summary (summary recommendations : Value)

namespace Change

def work (id : Value) : Change → Work Bool
  | form body => do
    let f ← ofOutcome (Form.reviewUpdate.read body)
    discard (update id f)
    return true
  | status st => setStatus id st
  | progress p file => setProgress id p file
  | fileCounts total analyzed => setFileCounts id total analyzed
  | results metrics total => setResults id metrics total
  | summary text recommendations => setSummary id text recommendations

def marks : Change → List Mark
  | form body => (Form.reviewUpdate.read body).toOption.elim [] fun f => statusMarks f.changes
  | status st => [if st = .completed then .finish else .status st]
  | progress p _ => (clamped p).toOption.toList.map .progress
  | fileCounts .. | results .. | summary .. => []

end Change

inductive Call where
  | create (body author : Value)
  | change (id : Value) (x : Change)
  | remove (id : Value)

/-- Calls on reviews, and the marks that they leave. -/
def journal : Journal Call Review Mark where
  rows := (·.reviews)
  key := (·.id)
  work
    | .create body author => do
      let f ← ofOutcome (Form.reviewCreate.read body)
      discard (create f author)
      return true
    | .change id x => x.work id
    | .remove id => remove id
  marks
    | .change id x, n => if Names id n then x.marks else []
    | .create .., _ | .remove _, _ => []

section

variable {author body : Value} {f : Filled}

lemma lived_newReview {t : Moment} {n : Int}
    (hread : Form.reviewCreate.read body = .ok f) (h : newReview f author t n = .ok r) :
    Lived [] r := by
  have hnames : ∀ key ∈ "author_id" :: Form.reviewCreate.slots.map (·.name),
      key ∉ Review.staged := by decide
  have hstage := Review.ofFields_stage h fun c hc => hnames c.1 (by
    by_cases hauthor : c.1 = "author_id"
    · exact hauthor ▸ mem_cons_self ..
    · exact mem_cons_of_mem _ (Form.values_names hread (Fields.mem_of_mem_set hc hauthor)))
  exact ⟨hstage.1, hstage.2.1, by simp [hstage.2.2]⟩

lemma recorded_create (hread : Form.reviewCreate.read body = .ok f) :
    Ends (At s) (create f author)
      (fun _ => journal.Recorded Lived (.create body author) s true) (Lasts s) := by
  refine (ends_made f author).mono ?_ fun _ _ h => h.lasting
  rintro r d ⟨hd, ⟨t, ht⟩, _⟩
  refine ⟨_, hd, keeps_snoc rfl (newReview_ties ht).1 (lived_newReview hread ht) ?_⟩
  exact fun _ => rfl

lemma recorded_remove (id : Value) :
    Ends (At s) (remove id) (journal.Recorded Lived (.remove id) s) (Lasts s) := by
  refine recorded_answer ((ends_change_commit _).imp ?_)
  rintro _ d ⟨s', hd, h⟩
  obtain ⟨p, _, h⟩ := bind_eq_ok h
  cases h
  exact ⟨_, hd, keeps_of_mem (fun _ hr => (mem_filter.mp hr).1) fun _ _ => rfl⟩

section

variable {id : Value} {x : Change} {f : Review → Outcome Review}

lemma recorded_write
    (hf : ∀ r r', f r = .ok r' → r'.id = r.id ∧ ∀ ms, Lived ms r → Lived (ms ++ x.marks) r') :
    Ends (At s) (write id f) (fun _ => journal.Recorded Lived (.change id x) s true) (Lasts s) := by
  refine ends_now.bind fun t => (ends_change_commit _).imp ?_
  rintro _ d ⟨s', hd, h⟩
  obtain ⟨p, hp, h⟩ := bind_eq_ok h
  obtain ⟨rows, hrows, h⟩ := bind_eq_ok h
  cases h
  refine ⟨_, hd, keeps_changeWhere hp hrows (fun r r' hr => ?_) fun _ => rfl⟩
  obtain ⟨q, hq, hr⟩ := bind_eq_ok hr
  cases hr
  obtain ⟨hid, hlived⟩ := hf r q hq
  -- The time of the change is noted too, in a column that no mark is about.
  exact ⟨hid, fun ms h => (hlived ms h).of_sameStage ⟨rfl, rfl, rfl⟩⟩

lemma recorded_writeAside (hx : x.marks = [])
    (hf : ∀ r r', f r = .ok r' → r'.id = r.id ∧ r.SameStage r') :
    Ends (At s) (write id f) (fun _ => journal.Recorded Lived (.change id x) s true) (Lasts s) := by
  refine recorded_write fun r r' hr => ?_
  obtain ⟨hid, hstage⟩ := hf r r' hr
  rw [hx]
  exact ⟨hid, fun ms h => by rw [append_nil]; exact h.of_sameStage hstage⟩

lemma recorded_update {f : Filled} (hread : Form.reviewUpdate.read body = .ok f) :
    Ends (At s) (update id f) (fun _ => journal.Recorded Lived (.change id (.form body)) s true)
      (Lasts s) := by
  have hmarks : (Change.form body).marks = statusMarks f.changes := by
    rw [Change.marks, hread]
    rfl
  have hfree := Form.changes_names (· ∉ Review.tied) hread (by decide)
  have hstaged := Form.changes_names (fun key => key ∉ Review.staged ∨ key = "status") hread (by decide)
  refine Ends.imp_error (Ends.orRollback ?_) fun _ _ h => h.lasting
  split
  · refine (recorded_write fun r r' hr => ?_).bind fun _ => recorded_found _
    refine ⟨(Review.setAll_ties hr hfree).id, ?_⟩
    rw [hmarks]
    exact fun ms h => h.setAll hr hstaged
  · -- Nothing is told: no row is written, and there is nothing to mark.
    rename_i hempty
    have hnil : f.changes = [] := by simpa using hempty
    refine recorded_idle _ fun n => ?_
    show (if Names id n then (Change.form body).marks else []) = []
    rw [hmarks, hnil]
    exact ite_self _

lemma recorded_status (id : Value) (status : ReviewStatus) :
    Ends (At s) (setStatus id status) (journal.Recorded Lived (.change id (.status status)) s)
      (Lasts s) := by
  refine recorded_answer (ends_now.bind fun t => recorded_write fun r r' hr => ?_)
  cases hr
  cases status with
  | completed => exact ⟨rfl, fun ms _ => lived_finish ms r t⟩
  | _ => exact ⟨rfl, fun ms h => h.withStatus _⟩

lemma recorded_progress (id progress file : Value) : Ends (At s) (setProgress id progress file)
      (journal.Recorded Lived (.change id (.progress progress file)) s) (Lasts s) := by
  refine recorded_answer ?_
  refine ends_ofOutcome_bind (fun _ _ h => h.lasting) fun p hp => ends_now.bind fun t => ?_
  have hmarks : (Change.progress progress file).marks = [.progress p] := by
    rw [Change.marks, hp]
    rfl
  -- Whatever is noted about a file, the progress is written with it.
  have hwrite (metadata : Option Value) :
      Ends (At s)
        (write id fun r => .ok { r with progress := some p, metadata := metadata.getD r.metadata })
        (fun _ => journal.Recorded Lived (.change id (.progress progress file)) s true)
        (Lasts s) := by
    refine recorded_write fun r r' hr => ?_
    cases hr
    rw [hmarks]
    exact ⟨rfl, fun ms h => h.withProgress p _⟩
  split
  · refine (ends_found _).bind fun found => Ends.pre (fun _ hd => hd.1) ?_
    cases found with
    | none => exact hwrite none
    | some r => exact (Ends.map (Q := fun _ => At s) (ends_value _)).bind hwrite
  · exact hwrite none

lemma recorded_results (id metrics total : Value) : Ends (At s) (setResults id metrics total)
      (journal.Recorded Lived (.change id (.results metrics total)) s) (Lasts s) := by
  refine recorded_answer ?_
  cases metrics with
  | object fs =>
    have hnames : ∀ key ∈ resultNames, key ∉ Review.staged := by decide
    refine Ends.bind (R := fun _ => At s) (ends_pure fun d hd => hd) fun fs => ?_
    refine Ends.bind (ends_forIn fun c _ => ?_) fun _ => recorded_writeAside rfl fun r r' h => ?_
    · exact (ends_value _).discard.bind fun _ => ends_pure fun d hd => ⟨hd, rfl⟩
    · refine ⟨(Review.setAll_ties h fun c hc => resultColumns_free hc).id, ?_⟩
      exact Review.setAll_stage h fun c hc => hnames _ (resultColumns_names hc)
  | _ => exact ends_throw fun d hd => hd.lasting

lemma recorded_change (id : Value) (x : Change) :
    Ends (At s) (x.work id) (journal.Recorded Lived (.change id x) s) (Lasts s) := by
  cases x with
  | form body => exact recorded_told fun f hread => recorded_update hread
  | status st => exact recorded_status id st
  | progress p file => exact recorded_progress id p file
  | results metrics total => exact recorded_results id metrics total
  | fileCounts total analyzed =>
    refine recorded_answer ((ends_value _).bind fun _ => (ends_value _).bind fun _ =>
      recorded_writeAside rfl fun r r' h => ?_)
    cases h
    exact ⟨rfl, rfl, rfl, rfl⟩
  | summary text recommendations =>
    refine recorded_answer ((ends_value _).bind fun _ =>
      recorded_writeAside rfl fun r r' h => ?_)
    cases h
    exact ⟨rfl, rfl, rfl, rfl⟩

end

lemma keeps_call (c : Call) (d : Desk) (s : Store) :
    journal.Keeps Lived c s ((journal.work c).result d s) (journal.done c d s) := by
  refine keeps_result ?_ d
  cases c with
  | create body author => exact recorded_told fun f hread => recorded_create hread
  | change id x => exact recorded_change id x
  | remove id => exact recorded_remove id

end

/-! ## Settled reviews -/

/-- After any run of calls on reviews, at whatever desks, from a store without reviews: the columns of
a review are what the calls left on it since it was made. It is settled exactly if it was ever
finished just when its last status is completed, and then the progress noted last is all of it. -/
theorem settled_iff_orderly {s : Store} (hs : s.reviews = []) (steps : List (Desk × Call)) :
    ∀ r ∈ (s.after journal.work steps).reviews, Lived (journal.trail r.id s [] steps) r ∧
        (r.Settled ↔ Orderly (journal.trail r.id s [] steps)) := by
  intro r hr
  have hlived := Journal.trail_holds_of_nil keeps_call hs steps r hr
  exact ⟨hlived, hlived.settled_iff⟩

def shelf : Store :=
  { repositories := [{ id := 1, name := "tool", fullName := "ann/tool", url := "u", cloneUrl := "c"
                       provider := "github", externalId := "7", ownerId := .int 1
                       createdAt := ⟨0⟩, updatedAt := none }] }

/-- Three reviews: a form says that the first is completed, the second is finished, and the third
fails after it was finished. -/
def threeLives : List (Desk × Call) :=
  let d : Desk := { now := ⟨0⟩ }
  let body : Value := .object [("title", .text "notes"), ("repository_id", .int 1)]
  [(d, .create body (.int 1)), (d, .create body (.int 1)), (d, .create body (.int 1)),
    (d, .change (.int 1) (.form (.object [("status", .text "completed")]))),
    (d, .change (.int 2) (.status .completed)), (d, .change (.int 3) (.status .completed)),
    (d, .change (.int 3) (.status .failed))]

theorem only_finished_is_settled :
    let s := shelf.after journal.work threeLives
    s.reviews.map (fun r => (r.id, r.status, r.completedAt.isSome)) =
        [(1, .completed, false), (2, .completed, true), (3, .failed, true)] ∧
      ∀ r ∈ s.reviews, (r.Settled ↔ r.id = 2) ∧
        (Orderly (journal.trail r.id shelf [] threeLives) ↔ r.id = 2) := by
  intro s
  refine ⟨by decide +kernel, fun r hr => ?_⟩
  have hsettled : ∀ r ∈ s.reviews, r.Settled ↔ r.id = 2 := by decide +kernel
  rw [← (settled_iff_orderly rfl threeLives r hr).2, and_self]
  exact hsettled r hr

end Reviews

/-! ## Issues that are resolved -/

open List Outcome Work Store Form

/-- What a form writes to the flag of an issue. -/
def Issues.resolutions (changes : Fields) : List (Option Bool) :=
  changes.filterMap fun c => if c.1 = "is_resolved" then (flagColumn c.2).toOption else none

namespace Issue

lemma set_resolution {column : String} {v : Value} (h : i.set column v = .ok j)
    (hc : column ≠ "resolved_at") :
    j.resolvedAt = i.resolvedAt ∧ (column ≠ "is_resolved" → j.isResolved = i.isResolved) ∧
      (column = "is_resolved" → flagColumn v = .ok j.isResolved) := by
  unfold set at h
  split at h
  all_goals
    repeat obtain ⟨_, ho, h⟩ := bind_eq_ok h
    cases h
  all_goals first
    | exact ⟨rfl, fun _ => rfl, fun heq => absurd heq (by decide)⟩
    | exact ⟨rfl, fun hne => absurd rfl hne, fun _ => ho⟩
    | exact absurd rfl hc

lemma setAll_resolution {changes : Fields} (h : i.setAll changes = .ok j)
    (hc : ∀ c ∈ changes, c.1 ≠ "resolved_at") : j.resolvedAt = i.resolvedAt ∧
      j.isResolved = (Issues.resolutions changes).getLastD i.isResolved := by
  induction changes generalizing i with
  | nil => cases h; exact ⟨rfl, rfl⟩
  | cons c changes ih =>
    obtain ⟨column, v⟩ := c
    obtain ⟨k, hk, h⟩ := bind_eq_ok h
    obtain ⟨hmoment, hother, hflag⟩ := set_resolution hk (hc _ (.head _))
    obtain ⟨hmoment', hflag'⟩ := ih h fun c' hc' => hc c' (.tail _ hc')
    refine ⟨hmoment'.trans hmoment, ?_⟩
    by_cases hcolumn : column = "is_resolved"
    · have hsome : Issues.resolutions ((column, v) :: changes) =
          k.isResolved :: Issues.resolutions changes :=
        filterMap_cons_some (by rw [if_pos hcolumn, hflag hcolumn]; rfl)
      rw [hsome, getLastD_cons, hflag']
    · have hnone : Issues.resolutions ((column, v) :: changes) = Issues.resolutions changes :=
        filterMap_cons_none (if_neg hcolumn)
      rw [hnone, hflag', hother hcolumn]

lemma ofFields_resolution {now : Moment} {id : Int} {fs : Fields} (h : ofFields now id fs = .ok i)
    (hfs : ∀ c ∈ fs, c.1 ≠ "is_resolved" ∧ c.1 ≠ "resolved_at") :
    i.isResolved = some false ∧ i.resolvedAt = none := by
  iterate 7 obtain ⟨_, _, h⟩ := bind_eq_ok h
  have hcolumns : ∀ c ∈ (givenColumns [] fs).filter fun f => !("id" :: needed).contains f.1,
      c.1 ≠ "is_resolved" ∧ c.1 ≠ "resolved_at" :=
    fun c hc => hfs c (mem_filter.mp (mem_filter.mp hc).1).1
  obtain ⟨hmoment, hflag⟩ := setAll_resolution h fun c hc => (hcolumns c hc).2
  have hnone : Issues.resolutions _ = [] :=
    filterMap_eq_nil_iff.mpr fun c hc => if_neg (hcolumns c hc).1
  rw [hnone] at hflag
  exact ⟨hflag, hmoment⟩

/-- An issue has a moment exactly if it is resolved. -/
def Coherent (i : Issue) : Prop := i.resolvedAt.isSome ↔ i.isResolved = some true

instance (i : Issue) : Decidable i.Coherent := inferInstanceAs (Decidable (_ ↔ _))

end Issue

namespace Issues

lemma flagColumn_ofFlag? (o : Option Bool) : flagColumn (ofFlag? o) = .ok o := by
  rcases o with _ | _ | _ <;> rfl

/-- A form of truths says at most once whether an issue is resolved. -/
lemma resolutions_cases {changes : Fields} (hnodup : (changes.map (·.1)).Nodup)
    (hflags : ∀ c ∈ changes, ∃ o, c.2 = ofFlag? o) :
    (Fields.get? changes "is_resolved" = none ∧ resolutions changes = []) ∨
      ∃ o, Fields.get? changes "is_resolved" = some (ofFlag? o) ∧ resolutions changes = [o] := by
  induction changes with
  | nil => exact .inl ⟨rfl, rfl⟩
  | cons c changes ih =>
    obtain ⟨column, v⟩ := c
    obtain ⟨hfresh, hrest⟩ := nodup_cons.mp hnodup
    by_cases hcolumn : column = "is_resolved"
    · subst hcolumn
      obtain ⟨o, rfl⟩ : ∃ o, v = ofFlag? o := hflags _ (.head _)
      have hnone : resolutions changes = [] :=
        filterMap_eq_nil_iff.mpr fun c hc =>
          if_neg fun hkey => hfresh (mem_map.mpr ⟨c, hc, hkey⟩)
      refine .inr ⟨o, rfl, ?_⟩
      rw [← hnone]
      exact filterMap_cons_some (by rw [if_pos rfl, flagColumn_ofFlag?]; rfl)
    · have hget : Fields.get? ((column, v) :: changes) "is_resolved" =
          Fields.get? changes "is_resolved" := by
        simp [Fields.get?, hcolumn]
      have hskip : resolutions ((column, v) :: changes) = resolutions changes :=
        filterMap_cons_none (if_neg hcolumn)
      rw [hget, hskip]
      exact ih hrest fun c hc => hflags c (.tail _ hc)

lemma changes_flags {body : Value} {f : Filled} (h : issueUpdate.read body = .ok f) :
    ∀ c ∈ f.changes, ∃ o, c.2 = ofFlag? o := by
  intro c hc
  obtain ⟨data, hfills⟩ := read_fills h
  obtain ⟨slot, hslot, _, hread⟩ := fills_mem hfills (mem_filter.mp hc).1
  rcases mem_cons.mp hslot with rfl | hslot
  · exact read_may_flag_ok hread
  · obtain rfl := mem_singleton.mp hslot
    exact read_may_flag_ok hread

/-! ## Marks -/

/-- The columns of an issue are what was written to its flag, one after the other. -/
structure Lived (ms : List (Option Bool)) (i : Issue) : Prop where
  flag : i.isResolved = ms.getLastD (some false)
  moment : i.resolvedAt.isSome ↔ some true ∈ ms

section

variable {ms : List (Option Bool)}

lemma Lived.coherent_iff (h : Lived ms i) :
    i.Coherent ↔ (some true ∈ ms → ms.getLast? = some (some true)) := by
  have hflag : i.isResolved = some true ↔ ms.getLast? = some (some true) := by
    rw [h.flag, getLastD_eq_getLast?]
    cases ms.getLast? <;> simp
  rw [Issue.Coherent, h.moment, hflag]
  exact ⟨Iff.mp, fun hlast => ⟨hlast, mem_of_getLast?⟩⟩

lemma lived_changed {body : Value} {f : Filled} {t : Moment}
    (hread : issueUpdate.read body = .ok f) (h : changed f.changes t i = .ok j)
    (hlived : Lived ms i) : Lived (ms ++ resolutions f.changes) j := by
  obtain ⟨k, hk, h⟩ := bind_eq_ok h
  obtain ⟨hmoment, hflag⟩ := Issue.setAll_resolution hk
    (changes_names (· ≠ "resolved_at") hread (by decide))
  have hnodup := changes_nodup hread (by decide)
  rcases resolutions_cases hnodup (changes_flags hread) with ⟨hget, hnone⟩ | ⟨o, hget, hsome⟩
  · rw [hget] at h
    cases h
    rw [hnone, append_nil]
    rw [hnone] at hflag
    exact ⟨hflag.trans hlived.flag, by rw [← hlived.moment, ← hmoment]⟩
  · rw [hget] at h
    rw [hsome] at hflag ⊢
    have hlast : k.isResolved = (ms ++ [o]).getLastD (some false) := by simpa using hflag
    -- The moment is written for `some true` alone, and the other two leave the one that is there.
    rcases o with _ | _ | _
    · cases h
      exact ⟨hlast, by simpa [hmoment] using hlived.moment⟩
    · cases h
      exact ⟨hlast, by simpa [hmoment] using hlived.moment⟩
    · cases h
      exact ⟨hlast, by simp⟩

end

/-! ## Calls -/

inductive Call where
  | create (review issue : Value)
  | update (id body : Value)

/-- Calls on issues, and what they write to the flag. -/
def journal : Journal Call Issue (Option Bool) where
  rows := (·.issues)
  key := (·.id)
  work
    | .create review issue => do
      discard (create review issue)
      return true
    | .update id body => do
      let f ← ofOutcome (issueUpdate.read body)
      discard (update id f)
      return true
  marks
    | .create .., _ => []
    | .update id body, n =>
      if Names id n then
        (issueUpdate.read body).toOption.elim [] fun f => resolutions f.changes
      else []

section

lemma lived_newIssue {v : Value} {f : Filled} {t : Moment} {n : Int}
    (hread : issueCreate.read v = .ok f) (h : newIssue f t n = .ok i) : Lived [] i := by
  have hnames : ∀ key ∈ issueCreate.slots.map (·.name),
      key ≠ "is_resolved" ∧ key ≠ "resolved_at" := by decide
  obtain ⟨hflag, hmoment⟩ := Issue.ofFields_resolution h fun c hc =>
    hnames _ (values_names hread hc)
  exact ⟨hflag, by simp [hmoment]⟩

lemma recorded_create (review issue : Value) : Ends (At s) (create review issue)
      (fun _ => journal.Recorded Lived (.create review issue) s true) (Lasts s) := by
  refine (ends_made review issue).mono ?_ fun _ _ h => h.lasting
  rintro i d ⟨hd, v, f, t, hread, hi⟩
  refine ⟨_, hd, Journal.keeps_snoc rfl (Issue.ofFields_ties hi).1 (lived_newIssue hread hi) ?_⟩
  exact fun _ => rfl

lemma recorded_update {id body : Value} {f : Filled}
    (hread : issueUpdate.read body = .ok f) :
    Ends (At s) (update id f) (fun _ => journal.Recorded Lived (.update id body) s true)
      (Lasts s) := by
  have hmarks (n : Int) : journal.marks (.update id body) n =
      if Names id n then resolutions f.changes else [] := by
    show (if Names id n then (issueUpdate.read body).toOption.elim [] _ else []) = _
    rw [hread]
    rfl
  have hfree := changes_names (· ≠ "review_id") hread (by decide)
  refine Ends.imp_error (Ends.orRollback ?_) fun _ _ h => h.lasting
  split
  · refine ends_now.bind fun t => (ends_change _).bind fun _ => ?_
    refine (ends_commit fun s' => s.changeIssue id (changed f.changes t) = .ok s').bind fun _ => ?_
    refine Ends.pre ?_ (Journal.recorded_found _)
    rintro d ⟨s', hd, h⟩
    obtain ⟨p, hp, h⟩ := bind_eq_ok h
    obtain ⟨rows, hrows, h⟩ := bind_eq_ok h
    cases h
    refine ⟨_, hd, Journal.keeps_changeWhere hp hrows (fun i j hj => ?_) hmarks⟩
    refine ⟨(changed_ties hfree hj).1, ?_⟩
    exact fun ms => lived_changed hread hj
  · -- Nothing is told: no row is written, and there is nothing to mark.
    rename_i hempty
    have hnil : f.changes = [] := by simpa using hempty
    refine Journal.recorded_idle _ fun n => ?_
    rw [hmarks, hnil]
    exact ite_self _

lemma keeps_call (c : Call) (d : Desk) (s : Store) :
    journal.Keeps Lived c s ((journal.work c).result d s) (journal.done c d s) := by
  refine Journal.keeps_result ?_ d
  cases c with
  | create review issue =>
    exact (recorded_create review issue).discard.bind fun _ => ends_pure fun _ h => h
  | update id body => exact Journal.recorded_told fun f hread => recorded_update hread

end

/-! ## Coherent issues -/

/-- After any run of calls on issues, at whatever desks, from a store without issues: the columns of an
issue are what the calls wrote to its flag since it was made. Its moment says whether it is resolved
exactly if, once it was ever called resolved, that was also said of it last. -/
theorem coherent_iff_last_resolved {s : Store} (hs : s.issues = []) (steps : List (Desk × Call)) :
    ∀ i ∈ (s.after journal.work steps).issues, Lived (journal.trail i.id s [] steps) i ∧
        (i.Coherent ↔ (some true ∈ journal.trail i.id s [] steps →
          (journal.trail i.id s [] steps).getLast? = some (some true))) := by
  intro i hi
  have hlived := Journal.trail_holds_of_nil keeps_call hs steps i hi
  exact ⟨hlived, hlived.coherent_iff⟩

def reopening : List (Desk × Call) :=
  let d : Desk := { now := ⟨0⟩ }
  let issue : Value := .object
    [("title", .text "t"), ("description", .text "d"), ("category", .text "style"),
     ("severity", .text "low"), ("file_path", .text "a.py"), ("line_start", .int 3)]
  let flagged (b : Bool) : Value := .object [("is_resolved", .bool b)]
  [(d, .create (.int 1) issue), (d, .create (.int 1) issue), (d, .update (.int 1) (flagged true)),
    (d, .update (.int 2) (flagged true)), (d, .update (.int 2) (flagged false))]

theorem reopened_keeps_moment :
    let s := Store.after journal.work {} reopening
    s.issues.map (fun i => (i.id, i.isResolved, i.resolvedAt.isSome)) =
        [(1, some true, true), (2, some false, true)] ∧
      ∀ i ∈ s.issues, (i.Coherent ↔ i.id = 1) ∧
        ((some true ∈ journal.trail i.id {} [] reopening →
          (journal.trail i.id {} [] reopening).getLast? = some (some true)) ↔ i.id = 1) := by
  intro s
  refine ⟨by decide +kernel, fun i hi => ?_⟩
  have hcoherent : ∀ i ∈ s.issues, i.Coherent ↔ i.id = 1 := by decide +kernel
  rw [← (coherent_iff_last_resolved rfl reopening i hi).2, and_self]
  exact hcoherent i hi

end Issues

end ReviewDesk
