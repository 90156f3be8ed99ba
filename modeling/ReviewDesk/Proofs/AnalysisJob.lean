import ReviewDesk.Jobs.Analysis
import ReviewDesk.Proofs.Forms
import ReviewDesk.Proofs.Rows

/-!
# How an analysis ends

An analysis goes through its files one after the other, and every issue is committed by itself. The
counts of the review stay equal to the rows, whichever files cannot be read and whichever issues
cannot be stored, and the review never stays in progress.
-/

namespace ReviewDesk

open Work Store Form

namespace Reviews

open Outcome Analysis List

/-! ## Writing to a review -/

def noted (t : Moment) (r : Review) : Review := { r with updatedAt := some t }

def withCounts (total analyzed : Nat) (r : Review) : Review :=
  { r with totalFiles := .ofNat total, analyzedFiles := .ofNat analyzed }

/-- The store with the counts of files on a review; a number that fits no column is not written. -/
def counted (id : Int) (total analyzed : Nat) (t : Moment) (s : Store) : Store :=
  if fits total then s.mapReview id fun r => noted t (withCounts total analyzed r) else s

section

variable {id : Int} (hid : fits id) (t : Moment) (s : Store)
variable {g : Review → Review} {analyzed total : Nat}

include hid

lemma gives_write {f : Review → Outcome Review} (h : ∀ r, f r = .ok (g r)) :
    Gives (write (.int id) f) t s (.ok ()) (s.mapReview id fun r => noted t (g r)) := by
  refine (gives_now t s).bind (gives_change_commit ?_ t)
  exact changeReview_eq hid fun r => by simp only [h, bind_ok]; rfl

lemma gives_setStatus (status : ReviewStatus) : Gives (setStatus (.int id) status) t s (.ok true)
      (s.mapReview id fun r => noted t (withState status t r)) :=
  ((gives_now t s).bind (gives_write hid t s fun _ => rfl)).succeeds

lemma gives_setFileCounts (htotal : fits total) (hanalyzed : fits analyzed) :
    Gives (setFileCounts (.int id) (.ofNat total) (.ofNat analyzed)) t s (.ok true)
      (s.mapReview id fun r => noted t (withCounts total analyzed r)) := by
  have hread := gives_ok (integerColumn_ofNat htotal) t s
  have hread' := gives_ok (integerColumn_ofNat hanalyzed) t s
  exact (hread.bind (hread'.bind (gives_write hid t s fun _ => rfl))).succeeds

omit hid in
variable (id) in
lemma gives_trySetStatus (status : ReviewStatus) :
    ∃ b s', s'.issues = s.issues ∧ Gives (setStatus (.int id) status) t s (.ok b) s' := by
  by_cases hid : fits id
  · have hset := gives_setStatus hid t s status
    exact ⟨true, mapReview id (fun r => noted t (withState status t r)) s, rfl, hset⟩
  · have hchange : ∀ f : Review → Outcome Review, s.changeReview (.int id) f =
        .error (.tooLarge "integer too large for a column") := by
      intro f
      simp [changeReview, parameter, hid, bind, Except.bind]
    refine ⟨false, s, rfl, Gives.succeeds_error (e := .tooLarge "integer too large for a column")
      ((gives_now t s).bind ?_)⟩
    exact (gives_now t s).bind (gives_change_error (hchange _) t).bind_error

omit hid in
lemma counted_counted (total m n : Nat) :
    counted id total n t (counted id total m t s) = counted id total n t s := by
  unfold counted
  by_cases htotal : fits total
  · rw [if_pos htotal, if_pos htotal, if_pos htotal]
    exact mapReview_mapReview fun _ => rfl
  · rw [if_neg htotal, if_neg htotal, if_neg htotal]

lemma gives_countFiles (hle : analyzed ≤ total) :
    Gives (setFileCounts (.int id) (.ofNat total) (.ofNat analyzed)) t s (.ok (fits total))
      (counted id total analyzed t s) := by
  cases htotal : fits total with
  | true =>
    have hcounts := gives_setFileCounts hid t s htotal (fits_ofNat_le htotal hle)
    rwa [counted, if_pos htotal]
  | false =>
    obtain ⟨e, he⟩ := integerColumn_unfit htotal
    rw [counted, if_neg (by rw [htotal]; exact Bool.false_ne_true)]
    exact ((gives_fault he t s).bind_error).succeeds_error

lemma gives_setResults {metrics : Fields} {total : Value}
    (hparameter : ∀ c ∈ resultColumns metrics total, ∃ p, parameter c.2 = .ok p)
    (hset : ∀ r : Review, r.setAll (resultColumns metrics total) = .ok (g r)) :
    Gives (setResults (.int id) (.object metrics) total) t s (.ok true)
      (s.mapReview id fun r => noted t (g r)) := by
  have hread : ∀ c ∈ resultColumns metrics total,
      Gives (do discard (ofOutcome (parameter c.2)); pure (ForInStep.yield PUnit.unit)) t s
        (.ok (.yield ⟨⟩)) s := by
    intro c hc
    obtain ⟨p, hp⟩ := hparameter c hc
    exact (gives_ok hp t s).discard.bind (gives_pure _ t s)
  refine Gives.succeeds ((gives_pure metrics t s).bind ?_)
  exact (gives_forIn hread).bind (gives_write hid t s hset)

end

/-! ## Figures over stored issues -/

/-- A score is a real number, or the whole number zero. -/
def IsScore (v : Value) : Prop := v = .int 0 ∨ ∃ x, v = .real x

lemma isScore_scoreValue (x : Float) : IsScore (scoreValue x) := by
  unfold scoreValue
  split
  · exact .inr ⟨_, rfl⟩
  · exact .inl rfl

lemma IsScore.parameter {v : Value} (h : IsScore v) : ∃ p, parameter v = .ok p := by
  rcases h with rfl | ⟨x, rfl⟩
  · exact ⟨_, parameter_int (by decide)⟩
  · exact ⟨_, rfl⟩

def columnsOf (total quality security maintainability : Value) : Fields :=
  [("total_issues", total), ("critical_issues", .int 0), ("high_issues", .int 0),
   ("medium_issues", .int 0), ("low_issues", .int 0), ("code_quality_score", quality),
   ("security_score", security), ("maintainability_score", maintainability)]

structure Scored (metrics : Fields) (q sc m : Value) : Prop where
  quality : Fields.get? metrics "code_quality_score" = some q
  security : Fields.get? metrics "security_score" = some sc
  maintainability : Fields.get? metrics "maintainability_score" = some m
  isQuality : IsScore q
  isSecurity : IsScore sc
  isMaintainability : IsScore m

lemma scored_neutral (total : Nat) : Scored (neutralFields total) (.real 5) (.real 5) (.real 5) :=
  ⟨rfl, rfl, rfl, .inr ⟨5, rfl⟩, .inr ⟨5, rfl⟩, .inr ⟨5, rfl⟩⟩

/-- Whatever was stored, the four counters of severities are zero: rows are not read as findings. -/
lemma storedMetrics_columns (issues : List Issue) (files : Nat) :
    ∃ q sc m, Scored (Jobs.storedMetrics issues files) q sc m ∧
      ∀ total, resultColumns (Jobs.storedMetrics issues files) total = columnsOf total q sc m := by
  unfold Jobs.storedMetrics
  split
  · unfold qualityMetrics
    rw [show Analysis.Counts.of [] = .ok ⟨0, 0, 0, 0, 0, 0, 0, 0⟩ from rfl]
    simp only [bind_ok]
    cases filesNumber (.ofNat files) with
    | error e => exact ⟨_, _, _, scored_neutral _, fun _ => rfl⟩
    | ok n =>
      have hscore := isScore_scoreValue
      exact ⟨_, _, _, ⟨rfl, rfl, rfl, hscore _, hscore _, hscore _⟩, fun _ => rfl⟩
  · exact ⟨_, _, _, scored_neutral _, fun _ => rfl⟩

lemma IsScore.realColumn {v : Value} (h : IsScore v) : ∃ w, realColumn v = .ok w := by
  obtain ⟨p, hp⟩ := h.parameter
  exact ⟨_, by rw [Store.realColumn, hp]; rfl⟩

/-- A review with the number of its issues, no issue of any severity, and three scores. -/
def withFigures (total : Nat) (q sc m : Value) (r : Review) : Review :=
  { r with totalIssues := .ofNat total, criticalIssues := .int 0, highIssues := .int 0
           mediumIssues := .int 0, lowIssues := .int 0, qualityScore := q, securityScore := sc
           maintainabilityScore := m }

lemma setAll_columnsOf {total : Nat} (htotal : fits total) {q sc m q' sc' m' : Value}
    (hq : Store.realColumn q = .ok q') (hsc : Store.realColumn sc = .ok sc')
    (hm : Store.realColumn m = .ok m') (r : Review) :
    r.setAll (columnsOf (.ofNat total) q sc m) = .ok (withFigures total q' sc' m' r) := by
  have hzero : integerColumn (.int 0) = .ok (.int 0) := integerColumn_ofNat (n := 0) (by decide)
  refine Review.setAll_cons (bind_of_ok (integerColumn_ofNat htotal) _) ?_
  iterate 4 refine Review.setAll_cons (bind_of_ok hzero _) ?_
  refine Review.setAll_cons (bind_of_ok hq _) ?_
  refine Review.setAll_cons (bind_of_ok hsc _) ?_
  exact Review.setAll_cons (bind_of_ok hm _) rfl

lemma setAll_storedMetrics (issues : List Issue) (files : Nat) (htotal : fits issues.length) :
    ∃ q sc m q' sc' m', Scored (Jobs.storedMetrics issues files) q sc m ∧
      Store.realColumn q = .ok q' ∧ Store.realColumn sc = .ok sc' ∧ Store.realColumn m = .ok m' ∧
      (∀ c ∈ resultColumns (Jobs.storedMetrics issues files) (.ofNat issues.length),
        ∃ p, parameter c.2 = .ok p) ∧ ∀ r : Review,
        r.setAll (resultColumns (Jobs.storedMetrics issues files) (.ofNat issues.length)) =
          .ok (withFigures issues.length q' sc' m' r) := by
  obtain ⟨q, sc, m, hscored, hcolumns⟩ := storedMetrics_columns issues files
  obtain ⟨q', hq⟩ := hscored.isQuality.realColumn
  obtain ⟨sc', hsc⟩ := hscored.isSecurity.realColumn
  obtain ⟨m', hm⟩ := hscored.isMaintainability.realColumn
  refine ⟨q, sc, m, q', sc', m', hscored, hq, hsc, hm, ?_, ?_⟩
  · rw [hcolumns]
    have hzero : ∃ p, parameter (.int 0) = .ok p := ⟨_, parameter_int (by decide)⟩
    simp only [columnsOf, forall_mem_cons]
    exact ⟨⟨_, parameter_int htotal⟩, hzero, hzero, hzero, hzero, hscored.isQuality.parameter,
      hscored.isSecurity.parameter, hscored.isMaintainability.parameter, by simp⟩
  · rw [hcolumns]
    exact setAll_columnsOf htotal hq hsc hm

def withResults (metrics : Fields) (total : Nat) (r : Review) : Review :=
  (r.setAll (resultColumns metrics (.ofNat total))).getD r

/-- The store with the result of an analysis on a review; a number of issues that fits no column is
not written. -/
def resulted (id : Int) (metrics : Fields) (total : Nat) (t : Moment) (s : Store) : Store :=
  if fits total then s.mapReview id fun r => noted t (withResults metrics total r) else s

lemma gives_storedResults {id : Int} (hid : fits id) (t : Moment) (s : Store)
    (issues : List Issue) (files : Nat) :
    Gives (setResults (.int id) (.object (Jobs.storedMetrics issues files)) (.ofNat issues.length))
      t s (.ok (fits issues.length))
      (resulted id (Jobs.storedMetrics issues files) issues.length t s) := by
  cases htotal : fits issues.length with
  | true =>
    obtain ⟨q, sc, m, q', sc', m', _, _, _, _, hparameter, hset⟩ :=
      setAll_storedMetrics issues files htotal
    rw [resulted, if_pos htotal]
    refine gives_setResults hid t s hparameter fun r => ?_
    rw [withResults, hset]
    rfl
  | false =>
    have hnone : parameter (.ofNat issues.length) =
        .error (.tooLarge "integer too large for a column") := by
      simp [parameter, Value.ofNat, htotal]
    rw [resulted, if_neg (by rw [htotal]; exact Bool.false_ne_true)]
    have hfirst : Gives (do discard (ofOutcome (parameter (.ofNat issues.length)))
                            pure (ForInStep.yield PUnit.unit)) t s
        (.error (.tooLarge "integer too large for a column")) s :=
      ((gives_fault hnone t s).bind_error).bind_error
    refine Gives.succeeds_error (e := .tooLarge "integer too large for a column")
      ((gives_pure _ t s).bind ?_)
    exact (gives_forIn_error hfirst).bind_error

end Reviews

namespace Issues

open Outcome

variable {issue review : Value} {fields : Fields} {id : Int} {now : Moment} {i : Issue}

/-! ## New issues -/

def rowOf (review issue : Value) (now : Moment) (id : Int) : Outcome Issue := do
  let fields ← told issue review
  let f ← issueCreate.read (.object fields)
  newIssue f now id

def storable (review issue : Value) : Bool := (rowOf review issue ⟨0⟩ 0).isOk

lemma rowOf_isOk (review issue : Value) (now : Moment) (id : Int) :
    (rowOf review issue now id).isOk = storable review issue :=
  isOk_bind_congr _ fun _ => isOk_bind_congr _ fun _ => Issue.ofFields_isOk ..

lemma told_review (h : told issue review = .ok fields) :
    Fields.get? fields "review_id" = some review := by
  iterate 6 obtain ⟨_, _, h⟩ := bind_eq_ok h
  cases h
  rfl

lemma rowOf_review {review : Int}
    (h : rowOf (.int review) issue now id = .ok i) : i.id = id ∧ i.reviewId = review := by
  obtain ⟨fields, hfields, h⟩ := bind_eq_ok h
  obtain ⟨f, hf, h⟩ := bind_eq_ok h
  obtain ⟨v, hv, hread⟩ := fills_get (read_object hf)
    (show issueCreate.slots.find? (·.name == "review_id") = some (need "review_id" anInt) from rfl)
  rw [read_need_int (told_review hfields)] at hread
  cases hread
  obtain ⟨hid, hreview, _⟩ := Issue.ofFields_ties h
  rw [hv] at hreview
  exact ⟨hid, wholeColumn_int hreview⟩

lemma told_file (h : told issue review = .ok fields) :
    ∃ path, issue.item "file_path" = .ok path ∧ Fields.get? fields "file_path" = some path := by
  iterate 4 obtain ⟨_, _, h⟩ := bind_eq_ok h
  obtain ⟨path, hpath, h⟩ := bind_eq_ok h
  obtain ⟨_, _, h⟩ := bind_eq_ok h
  cases h
  exact ⟨path, hpath, rfl⟩

lemma rowOf_file {fs : Fields} {path : String} (hpath : Fields.get? fs "file_path" = some (.text path))
    (h : rowOf review (.object fs) now id = .ok i) : i.filePath = path := by
  obtain ⟨fields, hfields, h⟩ := bind_eq_ok h
  obtain ⟨f, hf, h⟩ := bind_eq_ok h
  obtain ⟨p, hp, hget⟩ := told_file hfields
  obtain rfl : p = .text path := by
    simp only [Value.item, hpath, Except.ok.injEq] at hp
    exact hp.symm
  obtain ⟨v, hv, hread⟩ := fills_get (read_object hf)
    (show issueCreate.slots.find? (·.name == "file_path") = some (need "file_path" aText) from rfl)
  rw [read_need_text hget] at hread
  cases hread
  have hfile := (Issue.ofFields_ties h).2.2
  rw [hv] at hfile
  exact (Option.some.inj (Except.ok.inj hfile)).symm

lemma rowOf_stamped (review issue : Value) (now : Moment) (id : Int) :
    rowOf review issue now id = (rowOf review issue ⟨0⟩ 0).map (·.stamped id now) := by
  refine bind_eq_map _ fun fields => ?_
  cases hf : issueCreate.read (.object fields) with
  | error e => rfl
  | ok f =>
    have hnames : ∀ key ∈ issueCreate.slots.map (·.name), key ∉ Issue.clocked := by decide
    exact Issue.ofFields_stamped (fun c hc => hnames c.1 (values_names hf hc)) id now

section

variable {review issue : Value} (t : Moment) (s : Store)

lemma gives_create (h : rowOf review issue t (nextId (s.issues.map (·.id))) = .ok i) :
    Gives (create review issue) t s (.ok i) { s with issues := s.issues ++ [i] } := by
  obtain ⟨fields, hfields, h⟩ := bind_eq_ok h
  obtain ⟨f, hf, h⟩ := bind_eq_ok h
  have hadd : s.addIssue (newIssue f t) = .ok (i, { s with issues := s.issues ++ [i] }) := by
    simp only [addIssue, h, bind_ok]
    rfl
  refine Gives.orRollback_ok ((gives_ok hfields t s).bind ((gives_ok hf t s).bind ?_))
  exact (gives_now t s).bind (gives_add hadd t)

lemma gives_create_error {e : Fault}
    (h : rowOf review issue t (nextId (s.issues.map (·.id))) = .error e) :
    Gives (create review issue) t s (.error e) s := by
  refine Gives.orRollback_error ?_
  unfold rowOf at h
  cases hfields : told issue review with
  | error e' =>
    rw [hfields] at h
    cases h
    exact (gives_ofOutcome _ t s).bind_error
  | ok fields =>
    rw [hfields, bind_ok] at h
    refine Gives.bind (gives_ofOutcome _ t s) ?_
    cases hf : issueCreate.read (.object fields) with
    | error e' =>
      rw [hf] at h
      cases h
      exact (gives_ofOutcome _ t s).bind_error
    | ok f =>
      rw [hf, bind_ok] at h
      refine Gives.bind (gives_ofOutcome _ t s) ?_
      refine (gives_now t s).bind (gives_add_error ?_ t)
      simp only [addIssue, h]
      rfl

end

end Issues

namespace Jobs

open List Reviews

variable {t : Moment} {rows : List Issue}
  (id : Int) (c : Checkout) (o : AnalysisOrder) (project : Analysis.Project)
  (p : Value × Nat)

/-! ## Issues of one file -/

def withIssues (rows : List Issue) (s : Store) : Store := { s with issues := s.issues ++ rows }

lemma withIssues_nil (s : Store) : withIssues [] s = s := by simp [withIssues]

lemma withIssues_withIssues (before rows : List Issue) (s : Store) :
    withIssues rows (withIssues before s) = withIssues (before ++ rows) s := by
  simp [withIssues]

def RowsOf (review : Value) (now : Moment) (found : List Analysis.Issue) (rows : List Issue) : Prop :=
  List.Forall₂ (fun f i => ∃ id, Issues.rowOf review (.object f.fields) now id = .ok i) found rows

def storable (review : Value) (f : Analysis.Issue) : Bool := Issues.storable review (.object f.fields)

lemma gives_storeIssues (review : Value) (t : Moment) (s : Store) (found : List Analysis.Issue) :
    ∃ rows, RowsOf review t (found.takeWhile (storable review)) rows ∧
      Gives (storeIssues review found) t s (.ok (rows, found.all (storable review)))
        (withIssues rows s) := by
  induction found generalizing s with
  | nil =>
    refine ⟨[], .nil, ?_⟩
    rw [withIssues_nil]
    exact gives_pure _ t s
  | cons f found ih =>
    have hok := Issues.rowOf_isOk review (.object f.fields) t (nextId (s.issues.map (·.id)))
    cases hrow : Issues.rowOf review (.object f.fields) t (nextId (s.issues.map (·.id))) with
    | error e =>
      rw [hrow] at hok
      have hf : storable review f = false := hok.symm
      refine ⟨[], by rw [takeWhile_cons_of_neg (by simp [hf])]; exact .nil, ?_⟩
      rw [withIssues_nil, all_cons, hf]
      exact (Issues.gives_create_error t s hrow).attempt_error.bind (gives_pure _ t s)
    | ok i =>
      rw [hrow] at hok
      have hf : storable review f = true := hok.symm
      obtain ⟨rows, hrows, hrest⟩ := ih (withIssues [i] s)
      refine ⟨i :: rows, ?_, ?_⟩
      · rw [takeWhile_cons_of_pos hf]
        exact .cons ⟨_, hrow⟩ hrows
      · rw [all_cons, hf, Bool.true_and]
        rw [withIssues_withIssues, singleton_append] at hrest
        refine (Issues.gives_create t s hrow).attempt_ok.bind ?_
        exact hrest.bind (gives_pure _ t _)

lemma RowsOf.length {review : Value} {found : List Analysis.Issue} (h : RowsOf review t found rows) :
    rows.length = found.length :=
  (List.Forall₂.length_eq h).symm

lemma RowsOf.review {review : Int} {found : List Analysis.Issue} (h : RowsOf (.int review) t found rows) :
    ∀ i ∈ rows, i.reviewId = review := by
  induction h with
  | nil => intro i hi; cases hi
  | cons hf _ ih =>
    obtain ⟨_, hrow⟩ := hf
    intro i hi
    rcases mem_cons.mp hi with rfl | hi
    · exact (Issues.rowOf_review hrow).2
    · exact ih i hi

lemma issuesIn_withIssues {id : Int} (h : ∀ i ∈ rows, i.reviewId = id)
    (s : Store) : (withIssues rows s).issuesIn id = s.issuesIn id ++ rows := by
  have hall : rows.filter (·.reviewId == id) = rows :=
    filter_eq_self.mpr fun i hi => by simp [h i hi]
  simp [withIssues, issuesIn, filter_append, hall]

/-! ## One file -/

/-- What is found in a file that stands at a position. -/
def found : Outcome (List Analysis.Issue) :=
  issuesOf c o project p.2 p.1

/-- Whether a file can be read and all that is found in it can be stored. -/
def complete : Bool :=
  match found c o project p with
  | .ok fs => fs.all (storable o.review)
  | .error _ => false

def stored : Nat :=
  match found c o project p with
  | .ok fs => (fs.takeWhile (storable o.review)).length
  | .error _ => 0

/-- The findings of a file that are stored: those before the first one that cannot be. -/
def kept : List Analysis.Issue :=
  match found c o project p with
  | .ok fs => fs.takeWhile (storable o.review)
  | .error _ => []

lemma length_kept : (kept c o project p).length = stored c o project p := by
  unfold kept stored
  cases found c o project p <;> rfl

lemma sumOf_stored (ps : List (Value × Nat)) :
    Tally.sumOf (stored c o project) ps = (ps.flatMap (kept c o project)).length := by
  induction ps with
  | nil => rfl
  | cons p ps ih =>
    rw [Tally.sumOf_cons, flatMap_cons, length_append, length_kept, ih]

lemma RowsOf.append {review : Value} {found found' : List Analysis.Issue}
    {rows' : List Issue} (h : RowsOf review t found rows) (h' : RowsOf review t found' rows') :
    RowsOf review t (found ++ found') (rows ++ rows') :=
  rel_append h h'

section

variable (c : Checkout) {o : AnalysisOrder} (project : Analysis.Project) {id : Int} (total : Nat)
  (ho : o.review = .int id) (hid : fits id) (t : Moment) (s : Store)

lemma counted_withIssues (n : Nat) (rows : List Issue) :
    counted id total n t (withIssues rows s) =
      withIssues rows (counted id total n t s) := by
  unfold counted
  split <;> rfl

include ho hid

/-- One file: what is stored is added to the rows and the tally, and the review counts one file more
if all is. The store `s` is the one before the first file. -/
lemma gives_analyzeFile (tally : Tally) (before : List Issue) (hless : tally.analyzed < total)
    (p : Value × Nat) : ∃ rows, RowsOf o.review t (kept c o project p) rows ∧
      Gives (analyzeFile c o project total tally p.2 p.1) t
        (withIssues before (counted id total tally.analyzed t s))
        (.ok ⟨tally.analyzed + (if complete c o project p then 1 else 0), tally.issues ++ rows⟩)
        (withIssues (before ++ rows) (counted id total
          (tally.analyzed + if complete c o project p then 1 else 0) t s)) := by
  have htell := gives_tell "PROGRESS" [("current", .ofNat (20 + p.2 * 60 / total)),
    ("total", .int 100), ("status", .text ("Analyzing " ++ p.1.plain ++ "..."))] t
    (withIssues before (counted id total tally.analyzed t s))
  cases hfound : issuesOf c o project p.2 p.1 with
  | error e =>
    have hcomplete : complete c o project p = false := by simp [complete, found, hfound]
    have hkept : kept c o project p = [] := by simp [kept, found, hfound]
    simp only [hcomplete, hkept, Bool.false_eq_true, ↓reduceIte, Nat.add_zero]
    refine ⟨[], .nil, ?_⟩
    rw [append_nil, append_nil]
    refine htell.bind ?_
    simp only [hfound]
    exact gives_pure tally t _
  | ok fs =>
    obtain ⟨rows, hrows, hgives⟩ := gives_storeIssues o.review t
      (withIssues before (counted id total tally.analyzed t s)) fs
    rw [withIssues_withIssues] at hgives
    have hkept : kept c o project p = fs.takeWhile (storable o.review) := by
      simp [kept, found, hfound]
    have hcomplete : complete c o project p = fs.all (storable o.review) := by
      simp [complete, found, hfound]
    rw [hkept, hcomplete]
    refine ⟨rows, hrows, htell.bind ?_⟩
    simp only [hfound]
    cases hall : fs.all (storable o.review) with
    | false =>
      rw [hall] at hgives
      exact hgives.bind (gives_pure _ t _)
    | true =>
      rw [hall] at hgives
      have hcounts := gives_countFiles hid t
        (withIssues (before ++ rows) (counted id total tally.analyzed t s)) hless
      rw [counted_withIssues, counted_counted] at hcounts
      rw [ho] at hgives ⊢
      exact hgives.bind (hcounts.discard.bind (gives_pure _ t _))

/-- All files, by induction on what is left of the list; the positions go on from `start`. -/
lemma gives_analyzeFiles (tally : Tally) (before : List Issue) (files : List Value) (start : Nat)
    (hless : tally.analyzed + files.length ≤ total) :
    ∃ rows, RowsOf o.review t ((files.zipIdx start).flatMap (kept c o project)) rows ∧
      Gives (analyzeFiles c o project total tally start files) t
        (withIssues before (counted id total tally.analyzed t s))
        (.ok ⟨tally.analyzed + (files.zipIdx start).countP (complete c o project),
          tally.issues ++ rows⟩) (withIssues (before ++ rows) (counted id total
          (tally.analyzed + (files.zipIdx start).countP (complete c o project)) t s)) := by
  induction files generalizing tally before start with
  | nil =>
    refine ⟨[], .nil, ?_⟩
    simp only [zipIdx_nil, countP_nil, Nat.add_zero, append_nil]
    exact gives_pure tally t _
  | cons path files ih =>
    simp only [length_cons] at hless
    obtain ⟨rows, hrows, hfile⟩ :=
      gives_analyzeFile c project total ho hid t s tally before (by omega) (path, start)
    obtain ⟨more, hmore, hrest⟩ := ih
      ⟨tally.analyzed + if complete c o project (path, start) then 1 else 0, tally.issues ++ rows⟩
      (before ++ rows) (start + 1) (by simp only; split <;> omega)
    have hcount : (List.zipIdx (path :: files) start).countP (complete c o project) =
        (if complete c o project (path, start) then 1 else 0) +
          (files.zipIdx (start + 1)).countP (complete c o project) := by
      rw [zipIdx_cons, countP_cons, Nat.add_comm]
    refine ⟨rows ++ more, ?_, ?_⟩
    · rw [zipIdx_cons, flatMap_cons]
      exact hrows.append hmore
    · rw [hcount, ← Nat.add_assoc, ← append_assoc, ← append_assoc]
      exact hfile.bind hrest

end

/-! ## The whole analysis -/

/-- The files of an order: those that are named, or all that changed. -/
def wanted : Option (List Value) → List Value
  | none | some [] => c.changed
  | some paths => paths

lemma filesOf_wanted (paths : Option (List Value)) :
    filesOf c (.ofOption .list paths) = .ok (wanted c paths) := by
  match paths with
  | none => rfl
  | some [] => rfl
  | some (p :: ps) => rfl

structure Finished (t : Moment) (total analyzed issues : Nat) (r : Review) : Prop where
  status : r.status = .completed
  progress : r.progress = some 1
  completedAt : r.completedAt = some t
  totalFiles : r.totalFiles = .ofNat total
  analyzedFiles : r.analyzedFiles = .ofNat analyzed
  totalIssues : r.totalIssues = .ofNat issues

/-- A review with a number of issues of each severity and the scores of a table of figures. -/
structure Figured (count : Severity → Nat) (metrics : Fields) (r : Review) : Prop where
  critical : r.criticalIssues = .ofNat (count .critical)
  high : r.highIssues = .ofNat (count .high)
  medium : r.mediumIssues = .ofNat (count .medium)
  low : r.lowIssues = .ofNat (count .low)
  quality : ∃ v, Fields.get? metrics "code_quality_score" = some v ∧
    realColumn v = .ok r.qualityScore
  security : ∃ v, Fields.get? metrics "security_score" = some v ∧
    realColumn v = .ok r.securityScore
  maintainability : ∃ v, Fields.get? metrics "maintainability_score" = some v ∧
    realColumn v = .ok r.maintainabilityScore

def report (review : Int) (total analyzed issues : Nat) (metrics : Fields) : Fields :=
  let score (key : String) : Value := (Fields.get? metrics key).getD .null
  [("review_id", .int review), ("total_files", .ofNat total), ("analyzed_files", .ofNat analyzed),
   ("total_issues", .ofNat issues), ("quality_score", score "code_quality_score"),
   ("security_score", score "security_score"), ("status", .text "completed")]

def opened (t : Moment) (s : Store) : Store :=
  s.mapReview id fun r => noted t (withState .inProgress t r)

def closed (t : Moment) (total analyzed issues : Nat) (metrics : Fields) (s : Store) : Store :=
  (resulted id metrics issues t
    (counted id total analyzed t (opened id t s))).mapReview id
      fun r => noted t (withState .completed t r)

lemma resulted_withIssues (metrics : Fields) (n : Nat) (t : Moment)
    (rows : List Issue) (s : Store) : resulted id metrics n t (withIssues rows s) =
      withIssues rows (resulted id metrics n t s) := by
  unfold resulted
  split <;> rfl

lemma issues_closed (t : Moment) (total analyzed issues : Nat) (metrics : Fields)
    (s : Store) : (closed id t total analyzed issues metrics s).issues = s.issues := by
  unfold closed resulted counted
  split <;> split <;> rfl

section

variable {c : Checkout} {o : AnalysisOrder} {id repository : Int} {r : Review} {p : Repository}
  {s : Store} (ho : o.review = .int id) (hp : o.repository = .int repository)
  (hreview : s.reviewById (.int id) = .ok (some r))
  (hrepository : s.repositoryById (.int repository) = .ok (some p)) (t : Moment)

include ho hp hreview hrepository

omit hp hrepository in
lemma gives_find : Gives (find o.review) t s (.ok (some r)) s :=
  ho ▸ (gives_query_ok hreview t).orElse_ok none

omit ho hreview in
lemma gives_repository : Gives (Reviews.repository o.repository) t s (.ok (some p)) s :=
  hp ▸ (gives_query_ok hrepository t).orElse_ok none

lemma gives_analysis_unprepared {e : Fault} (he : c.prepared = .error e) :
    Gives (analysis c o) t s (.error e) (s.mapReview id
      fun r => noted t (withState .inProgress t r)) := by
  have hid := (reviewById_eq.mp hreview).1
  have hstatus := gives_setStatus hid t s .inProgress
  refine (gives_find ho hreview t).bind ((gives_repository hp hrepository t).bind ?_)
  simp only [ho]
  refine hstatus.discard.bind ((gives_tell _ _ t _).bind ?_)
  exact (gives_fault he t _).bind_error

/-- An analysis whose files are there stores what is kept of each file, and closes the review. -/
lemma gives_analysis {files : List Value} (hprepared : c.prepared = .ok ())
    (hfiles : filesOf c o.files = .ok files) :
    ∃ rows, RowsOf o.review t (files.zipIdx.flatMap (kept c o (projectOf p))) rows ∧
      Gives (analysis c o) t s
        (.ok (report id files.length (files.zipIdx.countP (complete c o (projectOf p))) rows.length
          (storedMetrics rows files.length))) (withIssues rows (closed id t files.length
          (files.zipIdx.countP (complete c o (projectOf p))) rows.length
          (storedMetrics rows files.length) s)) := by
  have hid := (reviewById_eq.mp hreview).1
  have hstatus := gives_setStatus hid t s .inProgress
  have hcounts := gives_countFiles hid t (opened id t s) (Nat.zero_le files.length)
  obtain ⟨rows, hrows, hloop⟩ := gives_analyzeFiles c (projectOf p) files.length ho hid t
    (opened id t s) {} [] files 0 (by simp)
  simp only [withIssues_nil, nil_append, Nat.zero_add] at hloop
  refine ⟨rows, hrows, ?_⟩
  have hresults := gives_storedResults hid t (withIssues rows (counted id
    files.length (files.zipIdx.countP (complete c o (projectOf p))) t (opened id t s))) rows
    files.length
  rw [resulted_withIssues] at hresults
  have hclose := gives_setStatus hid t (withIssues rows (resulted id
    (storedMetrics rows files.length) rows.length t (counted id files.length
      (files.zipIdx.countP (complete c o (projectOf p))) t (opened id t s)))) .completed
  refine (gives_find ho hreview t).bind ((gives_repository hp hrepository t).bind ?_)
  simp only [ho]
  refine hstatus.discard.bind ((gives_tell _ _ t _).bind ?_)
  refine (gives_ok hprepared t _).bind ((gives_tell _ _ t _).bind ?_)
  refine (gives_ok hfiles t _).bind ?_
  refine hcounts.discard.bind (hloop.bind ((gives_tell _ _ t _).bind ?_))
  refine hresults.discard.bind ((gives_tell _ _ t _).bind (hclose.discard.bind ?_))
  exact (gives_tell _ _ t _).bind (gives_pure _ t _)

lemma gives_analysis_prepared {paths : Option (List Value)} (hprepared : c.prepared = .ok ())
    (hfiles : o.files = .ofOption .list paths) (hnone : s.issuesIn id = [])
    (htotal : fits (wanted c paths).length)
    (hissues : fits (Tally.sumOf (stored c o (projectOf p)) (wanted c paths).zipIdx)) :
    ∃ rows s' r', rows.length = Tally.sumOf (stored c o (projectOf p)) (wanted c paths).zipIdx ∧
      s'.issuesIn id = rows ∧ s'.reviewById (.int id) = .ok (some r') ∧
      Finished t (wanted c paths).length
        ((wanted c paths).zipIdx.countP (complete c o (projectOf p))) rows.length r' ∧
      Figured (fun _ => 0) (storedMetrics rows (wanted c paths).length) r' ∧
      Gives (analysis c o) t s (.ok (report id (wanted c paths).length
        ((wanted c paths).zipIdx.countP (complete c o (projectOf p))) rows.length
        (storedMetrics rows (wanted c paths).length))) s' := by
  obtain ⟨rows, hrows, hgives⟩ := gives_analysis ho hp hreview hrepository t hprepared
    (hfiles ▸ filesOf_wanted c paths)
  have hlen : rows.length = Tally.sumOf (stored c o (projectOf p)) (wanted c paths).zipIdx := by
    rw [hrows.length, sumOf_stored]
  rw [← hlen] at hissues
  obtain ⟨q, sc, m, q', sc', m', hscored, hq, hsc, hm, _, hset⟩ :=
    setAll_storedMetrics rows (wanted c paths).length hissues
  have hresults : ∀ r, withResults (storedMetrics rows (wanted c paths).length) rows.length r
      = withFigures rows.length q' sc' m' r := by
    intro r
    rw [withResults, hset]
    rfl
  rw [ho] at hrows
  -- the review after each of the four writes
  have hr₁ := reviewById_mapReview
    (g := fun r => noted t (withState .inProgress t r)) (fun _ => rfl) hreview
  have hr₂ := reviewById_mapReview
    (g := fun r => noted t (withCounts (wanted c paths).length
      ((wanted c paths).zipIdx.countP (complete c o (projectOf p))) r)) (fun _ => rfl) hr₁
  have hr₃ := reviewById_mapReview
    (g := fun r => noted t (withFigures rows.length q' sc' m' r)) (fun _ => rfl) hr₂
  have hr₄ := reviewById_mapReview
    (g := fun r => noted t (withState .completed t r)) (fun _ => rfl) hr₃
  refine ⟨rows, _, ?last, hlen, ?issues, ?review, ?finished, ?figured, hgives⟩
  case review =>
    unfold closed resulted counted opened
    rw [if_pos htotal, if_pos hissues]
    simp only [hresults]
    exact hr₄
  case issues =>
    rw [issuesIn_withIssues hrows.review, issuesIn, issues_closed]
    exact congrArg (· ++ rows) hnone
  case finished => exact ⟨rfl, rfl, rfl, rfl, rfl, rfl⟩
  case figured =>
    exact ⟨rfl, rfl, rfl, rfl, ⟨q, hscored.quality, hq⟩, ⟨sc, hscored.security, hsc⟩,
      ⟨m, hscored.maintainability, hm⟩⟩

end

/-- **An analysis never leaves its review open.** At a calm desk, with a review that has no issues
yet and an existing repository: if the files cannot be fetched, the fault is passed on, the review
has failed and no issue was added. Otherwise the review is completed, it counts the files and those
of which all findings could be stored, and its number of issues, the number that is told and the
number of rows are the same. The numbers of files and of issues must fit a column. -/
theorem analysis_closes_review (c : Checkout) (o : AnalysisOrder) (d : Desk) (id repository : Int)
    (r : Review) (p : Repository) (paths : Option (List Value)) (hd : Calm d d.now d.store)
    (ho : o.review = .int id) (hp : o.repository = .int repository)
    (hfiles : o.files = .ofOption .list paths)
    (hreview : d.store.reviewById (.int id) = .ok (some r))
    (hrepository : d.store.repositoryById (.int repository) = .ok (some p))
    (hnone : d.store.issuesIn id = []) (htotal : fits (wanted c paths).length)
    (hissues : fits (Tally.sumOf (stored c o (projectOf p)) (wanted c paths).zipIdx)) :
    ∃ d' r', d'.lasting = d'.store ∧ d'.store.reviewById (.int id) = .ok (some r') ∧
      r'.status ≠ .pending ∧ r'.status ≠ .inProgress ∧
      match c.prepared with
      | .error e => (analysisOrFailed c o).run d = (.error e, d') ∧ r'.status = .failed ∧
          d'.store.issues = d.store.issues
      | .ok _ => ∃ result, (analysisOrFailed c o).run d = (.ok result, d') ∧
          r'.status = .completed ∧ r'.progress = some 1 ∧ r'.completedAt = some d.now ∧
          r'.totalFiles = .ofNat (wanted c paths).length ∧
          r'.analyzedFiles = .ofNat ((wanted c paths).zipIdx.countP (complete c o (projectOf p))) ∧
          (wanted c paths).zipIdx.countP (complete c o (projectOf p)) ≤ (wanted c paths).length ∧
          r'.totalIssues = .ofNat (d'.store.issuesIn id).length ∧
          Fields.get? result "total_issues" = some (.ofNat (d'.store.issuesIn id).length) := by
  have hid := (reviewById_eq.mp hreview).1
  cases hprepared : c.prepared with
  | error e =>
    have hfailed := Reviews.gives_setStatus hid d.now
      (d.store.mapReview id fun r => Reviews.noted d.now (Reviews.withState .inProgress d.now r))
      .failed
    have hrun := (gives_analysis_unprepared ho hp hreview hrepository d.now hprepared).tryCatch_error
      (h := fun fault => do
        discard (Reviews.setStatus o.review .failed)
        throw fault) (ho ▸ hfailed.discard.bind (gives_throw e d.now _))
    obtain ⟨d', hd', hcalm⟩ := hrun d hd
    have hr := reviewById_mapReview
      (g := fun r => Reviews.noted d.now (Reviews.withState .failed d.now r)) (fun _ => rfl)
      (reviewById_mapReview
        (g := fun r => Reviews.noted d.now (Reviews.withState .inProgress d.now r)) (fun _ => rfl)
        hreview)
    refine ⟨d', _, hcalm.lasting.trans hcalm.store.symm, hcalm.store ▸ hr, ?_, ?_, hd', rfl, ?_⟩
    · exact fun h => by cases h
    · exact fun h => by cases h
    · rw [hcalm.store]
      rfl
  | ok u =>
    obtain ⟨rows, s', r', _, hrows, hr, hfinished, _, hgives⟩ :=
      gives_analysis_prepared ho hp hreview hrepository d.now hprepared hfiles hnone htotal hissues
    obtain ⟨d', hd', hcalm⟩ := hgives.tryCatch_ok (h := fun fault => do
      discard (Reviews.setStatus o.review .failed)
      throw fault) d hd
    rw [← hcalm.store] at hrows hr
    have hle : (wanted c paths).zipIdx.countP (complete c o (projectOf p)) ≤
        (wanted c paths).length := by
      simpa using countP_le_length (l := (wanted c paths).zipIdx)
    refine ⟨d', r', hcalm.lasting.trans hcalm.store.symm, hr, by simp [hfinished.status],
      by simp [hfinished.status], _, hd', hfinished.status, hfinished.progress,
      hfinished.completedAt, hfinished.totalFiles, hfinished.analyzedFiles, hle, ?_, ?_⟩
    · rw [hrows]
      exact hfinished.totalIssues
    · rw [hrows]
      rfl

def threeFiles : Checkout :=
  { read := fun path =>
      match path with
      | .text "gone.py" => .error (.failed "read failed")
      | .text "broken.py" => .ok (.text "def f(:\n")
      | _ => .ok (.text "password = \"hunter2hunter2\"\n\x00") }

def threePaths : List Value := [.text "gone.py", .text "broken.py", .text "zero.py"]

def invalidSyntax : Source.Complaint := ⟨"invalid syntax (<unknown>, line 1)", some 1, some 7⟩

/-- An analysis in which the issue that the third file is no program has no line, and so cannot be
stored. Another issue comes before it. -/
def orderOfThree : AnalysisOrder :=
  { review := .int 7, repository := .int 3, files := .list threePaths
    tools := fun _ => { complaint := fun _ => invalidSyntax } }

def deskOfOne : Desk :=
  let repository : Repository :=
    { id := 3, name := "tool", fullName := "ann/tool", url := "", cloneUrl := "", provider := "github"
      externalId := "1", createdAt := ⟨0⟩, updatedAt := none, ownerId := .int 1 }
  let review : Review :=
    { id := 7, title := "first", createdAt := ⟨0⟩, updatedAt := none, repositoryId := 3
      authorId := .int 1 }
  let store : Store := { repositories := [repository], reviews := [review] }
  { store, lasting := store, now := ⟨0⟩ }

def toolProject : Analysis.Project := ⟨.text "tool", .null, .null⟩

/-- How many findings of a file are stored, and whether these are all. -/
def fateOf (p : Value × Nat) : Nat × Bool :=
  (stored threeFiles orderOfThree toolProject p, complete threeFiles orderOfThree toolProject p)

/-- Two of the three files are not complete, and one of these has left a row. -/
theorem analysis_closes_review_of_three :
    threePaths.zipIdx.map fateOf = [(0, false), (1, true), (1, false)] ∧
      ∃ d' r' result, (analysisOrFailed threeFiles orderOfThree).run deskOfOne = (.ok result, d') ∧
        d'.store.reviewById (.int 7) = .ok (some r') ∧ r'.status = .completed ∧
        r'.totalFiles = .int 3 ∧ r'.analyzedFiles = .int 1 := by
  have hfates : threePaths.zipIdx.map fateOf = [(0, false), (1, true), (1, false)] := by
    decide +kernel
  have hcount : threePaths.zipIdx.countP (complete threeFiles orderOfThree toolProject) = 1 := by
    show threePaths.zipIdx.countP ((·.2) ∘ fateOf) = 1
    rw [← countP_map, hfates]
    rfl
  have hsum : Tally.sumOf (stored threeFiles orderOfThree toolProject) threePaths.zipIdx = 2 := by
    show threePaths.zipIdx.foldr (fun p n => (fateOf p).1 + n) 0 = 2
    rw [← foldr_map (f := fateOf) (g := fun q n => q.1 + n), hfates]
    rfl
  obtain ⟨d', r', _, hr, _, _, result, hrun, hstatus, _, _, htotal, hanalyzed, _⟩ :=
    analysis_closes_review threeFiles orderOfThree deskOfOne 7 3 _ _ (some threePaths)
      ⟨fun _ => rfl, rfl, rfl, rfl, rfl⟩ rfl rfl rfl rfl rfl rfl rfl (by
        show fits (Tally.sumOf (stored threeFiles orderOfThree toolProject) threePaths.zipIdx)
        exact hsum ▸ rfl)
  exact ⟨hfates, d', r', result, hrun, hr, hstatus, htotal,
    hanalyzed.trans (congrArg Value.ofNat hcount)⟩

/-!
## The figures of an analyzed review

The rows of a review fix what its counters and scores should be. An analysis reads rows where
findings are wanted, so that nothing is counted as soon as there is one row: `FiguresMatch` holds of
the review exactly if nothing was stored.
-/

open Work Store Form

variable (rows : List Issue)

def graded (s : Severity) : Nat := rows.countP (·.severity == s)

lemma graded_sum :
    graded rows .critical + graded rows .high + graded rows .medium + graded rows .low =
      rows.length := by
  induction rows with
  | nil => rfl
  | cons i rows ih =>
    simp only [graded, countP_cons, length_cons] at ih ⊢
    cases i.severity <;> simp <;> omega

/-- A stored issue, read as a finding. -/
def findingOf (i : Issue) : Analysis.Issue := { fields := i.report }

/-- The counters of a review are the numbers of its rows, and its scores are those of its issues and
the number of files. -/
def FiguresMatch (files : Nat) (r : Review) : Prop :=
  Figured (graded rows) (Analysis.qualityMetrics (rows.map findingOf) (.ofNat files)) r

lemma storedMetrics_of_ne_nil {rows : List Issue} (h : rows ≠ []) (files : Nat) :
    storedMetrics rows files = Analysis.neutralFields rows.length := by
  cases rows with
  | nil => exact absurd rfl h
  | cons i rows => rfl

lemma figuresMatch_iff {rows : List Issue} {files : Nat} {r : Review}
    (h : Figured (fun _ => 0) (storedMetrics rows files) r) :
    FiguresMatch rows files r ↔ rows = [] := by
  constructor
  · intro hmatch
    have zero : ∀ {n : Nat} {v : Figure}, v = .ofNat 0 → v = .ofNat n → n = 0 := by
      rintro n v rfl hn
      cases n with
      | zero => rfl
      | succ n => cases hn
    have hcritical := zero h.critical hmatch.critical
    have hhigh := zero h.high hmatch.high
    have hmedium := zero h.medium hmatch.medium
    have hlow := zero h.low hmatch.low
    have hsum := graded_sum rows
    exact eq_nil_of_length_eq_zero (by omega)
  · rintro rfl
    exact h

/-- **The figures of an analysis are right only if nothing was stored.** At a calm desk, with a
review that has no issues yet: the analysis returns, and the counters and scores match the rows
exactly if no file has an issue that is stored. Otherwise all four counters stay at zero and all
scores are in the middle. -/
theorem figures_match_iff_nothing_stored (c : Checkout) (o : AnalysisOrder) (d : Desk)
    (id repository : Int) (r : Review) (p : Repository) (paths : Option (List Value))
    (hd : Calm d d.now d.store) (ho : o.review = .int id) (hp : o.repository = .int repository)
    (hfiles : o.files = .ofOption .list paths) (hprepared : c.prepared = .ok ())
    (hreview : d.store.reviewById (.int id) = .ok (some r))
    (hrepository : d.store.repositoryById (.int repository) = .ok (some p))
    (hnone : d.store.issuesIn id = []) (htotal : fits (wanted c paths).length)
    (hissues : fits (Tally.sumOf (stored c o (projectOf p)) (wanted c paths).zipIdx)) :
    ∃ d' r' result, (analysisOrFailed c o).run d = (.ok result, d') ∧
      d'.store.reviewById (.int id) = .ok (some r') ∧
      r'.totalIssues = .ofNat (d'.store.issuesIn id).length ∧
      (FiguresMatch (d'.store.issuesIn id) (wanted c paths).length r' ↔
        ∀ f ∈ (wanted c paths).zipIdx, stored c o (projectOf p) f = 0) ∧
      ((∃ f ∈ (wanted c paths).zipIdx, stored c o (projectOf p) f ≠ 0) →
        Figured (fun _ => 0) (Analysis.neutralFields (d'.store.issuesIn id).length) r') := by
  obtain ⟨rows, s', r', hlen, hrows, hr, hfinished, hfigured, hgives⟩ :=
    gives_analysis_prepared ho hp hreview hrepository d.now hprepared hfiles hnone htotal hissues
  obtain ⟨d', hd', hcalm⟩ := hgives.tryCatch_ok (h := fun fault => do
    discard (Reviews.setStatus o.review .failed)
    throw fault) d hd
  rw [← hcalm.store] at hrows hr
  have hempty : rows = [] ↔ ∀ f ∈ (wanted c paths).zipIdx, stored c o (projectOf p) f = 0 := by
    rw [← length_eq_zero_iff, hlen, Tally.sumOf_eq_zero]
  refine ⟨d', r', _, hd', hr, ?_, ?_, ?_⟩
  · rw [hrows]
    exact hfinished.totalIssues
  · rw [hrows, figuresMatch_iff hfigured]
    exact hempty
  · rintro ⟨f, hf, hstored⟩
    have hne : rows ≠ [] := fun h => hstored (hempty.mp h f hf)
    rw [hrows, ← storedMetrics_of_ne_nil hne (wanted c paths).length]
    exact hfigured

def numberFile : Checkout := { read := fun _ => .ok (.text "x = [12]\n") }

def orderOfNumber : AnalysisOrder :=
  { review := .int 7, repository := .int 3, files := .list [.text "d.py"] }

/-- The one issue of a file with a bare number is stored and not counted. -/
theorem figures_differ_for_number :
    ∃ d' r' result, (analysisOrFailed numberFile orderOfNumber).run deskOfOne = (.ok result, d') ∧
      d'.store.reviewById (.int 7) = .ok (some r') ∧
      ¬ FiguresMatch (d'.store.issuesIn 7) 1 r' ∧ r'.lowIssues = .int 0 := by
  have hstored : stored numberFile orderOfNumber toolProject (.text "d.py", 0) ≠ 0 := by
    decide +kernel
  obtain ⟨d', r', result, hrun, hr, _, hmatch, hzero⟩ :=
    figures_match_iff_nothing_stored numberFile orderOfNumber deskOfOne 7 3 _ _
      (some [.text "d.py"]) ⟨fun _ => rfl, rfl, rfl, rfl, rfl⟩ rfl rfl rfl rfl rfl rfl rfl rfl
      (by decide +kernel)
  refine ⟨d', r', result, hrun, hr, fun h => ?_, (hzero ⟨_, mem_singleton_self _, hstored⟩).low⟩
  exact hstored (hmatch.mp h _ (mem_singleton_self _))

end Jobs

end ReviewDesk
