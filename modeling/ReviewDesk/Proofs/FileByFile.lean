import ReviewDesk.Jobs.Summary
import ReviewDesk.Proofs.AnalysisJob
import ReviewDesk.Proofs.Findings

/-!
# An analysis file by file

Without a chat client and a classifier, what is stored of a file depends on nothing but the file and
the rules. All files share the counts, the numbers of the rows and the clock, and these are all that
tells the order of the files.
-/

namespace ReviewDesk

open List

variable {rows : List Issue} {r : Review} {s : Store}

/-- What a row says, whatever its number is and whenever it was made. -/
def Issue.content (i : Issue) : Issue := i.stamped 0 ⟨0⟩

namespace Jobs

open Work Store

variable {review : Value} {t : Moment}

/-! ## Rows without numbers -/

/-- What the row of a finding says, if there can be one. -/
def contentOf (review : Value) (f : Analysis.Issue) : Option Issue :=
  (Issues.rowOf review (.object f.fields) ⟨0⟩ 0).toOption

lemma contentOf_eq {f : Analysis.Issue} {id : Int} {i : Issue}
    (h : Issues.rowOf review (.object f.fields) t id = .ok i) :
    contentOf review f = some i.content := by
  rw [Issues.rowOf_stamped] at h
  have hself := Issues.rowOf_stamped review (.object f.fields) ⟨0⟩ 0
  unfold contentOf
  cases hj : Issues.rowOf review (.object f.fields) ⟨0⟩ 0 with
  | error e =>
    rw [hj] at h
    cases h
  | ok j =>
    rw [hj] at h hself
    cases h
    exact congrArg some (Except.ok.inj hself)

lemma RowsOf.contents {found : List Analysis.Issue} (h : RowsOf review t found rows) :
    rows.map Issue.content = found.filterMap (contentOf review) := by
  induction h with
  | nil => rfl
  | cons hf _ ih =>
    obtain ⟨_, hrow⟩ := hf
    rw [map_cons, filterMap_cons, contentOf_eq hrow, ih]

lemma map_content_filter (path : String) (rows : List Issue) :
    (rows.filter (·.filePath != path)).map Issue.content =
      (rows.map Issue.content).filter (·.filePath != path) := by
  rw [filter_map]
  rfl

lemma storedMetrics_congr {rows' : List Issue} (h : rows'.length = rows.length) (n : Nat) :
    storedMetrics rows' n = storedMetrics rows n := by
  have hempty : rows'.isEmpty = rows.isEmpty := by
    rw [Bool.eq_iff_iff, isEmpty_iff_length_eq_zero, isEmpty_iff_length_eq_zero, h]
  simp [storedMetrics, h, hempty]

/-- An analysis that ends before the first file: the review or the repository is not there, or the
files cannot be fetched. -/
lemma gives_analysis_unready (id repository : Int) (t : Moment) (s : Store)
    (prepared : Outcome Unit) (h : ∀ r p, s.reviewById (.int id) = .ok (some r) →
      s.repositoryById (.int repository) = .ok (some p) → prepared ≠ .ok ()) :
    ∃ e s', s'.issues = s.issues ∧ ∀ (c : Checkout) (o : AnalysisOrder), o.review = .int id →
      o.repository = .int repository → c.prepared = prepared →
      Gives (analysis c o) t s (.error e) s' := by
  have hfind := gives_orElse_query (reviewById (.int id)) none t s
  have hrepository := gives_orElse_query (repositoryById (.int repository)) none t s
  cases hr : (s.reviewById (.int id)).getD none with
  | none =>
    rw [hr] at hfind
    refine ⟨.invalid "Review or repository not found", s, rfl, fun c o ho hp _ => ?_⟩
    rw [analysis, ho, hp]
    exact hfind.bind (hrepository.bind (gives_throw _ t s))
  | some r =>
    rw [hr] at hfind
    cases hp : (s.repositoryById (.int repository)).getD none with
    | none =>
      rw [hp] at hrepository
      refine ⟨.invalid "Review or repository not found", s, rfl, fun c o ho hp _ => ?_⟩
      rw [analysis, ho, hp]
      exact hfind.bind (hrepository.bind (gives_throw _ t s))
    | some p =>
      have hreview : s.reviewById (.int id) = .ok (some r) := Outcome.getD_eq_some hr
      have hrepository : s.repositoryById (.int repository) = .ok (some p) :=
        Outcome.getD_eq_some hp
      cases hprepared : prepared with
      | ok u => exact absurd hprepared (h r p hreview hrepository)
      | error e =>
        exact ⟨e, opened id t s, rfl, fun c o ho hp hc =>
          gives_analysis_unprepared ho hp hreview hrepository t hc⟩

/-- What becomes of a file depends on what is found in it and on the review. -/
lemma fate_congr {c c' : Checkout} {o o' : AnalysisOrder} {project : Analysis.Project}
    {p p' : Value × Nat} (h : found c o project p = found c' o' project p')
    (hreview : o.review = o'.review) : kept c o project p = kept c' o' project p' ∧
      complete c o project p = complete c' o' project p' := by
  unfold kept complete
  rw [h, hreview]
  exact ⟨rfl, rfl⟩

/-! ## Orders without helpers -/

/-- An order for an analysis without a chat client and a classifier. The tree of a file, if there is
a parser, depends on its path and the text that is read, and what is said about a text that is no
program depends on the text. -/
structure PlainOrder where
  review : Int
  repository : Int
  rules : Value := .null
  complaint : Chars → Source.Complaint := fun _ => {}
  parser : Value → Value → Option Analysis.SyntaxNode := fun _ _ => none

namespace PlainOrder

variable {p : Value × Nat} {c' : Checkout} {path : Value}
variable (o : PlainOrder) (c : Checkout) (paths : Option (List Value)) (project : Analysis.Project)

def order : AnalysisOrder :=
  { review := .int o.review, repository := .int o.repository, files := .ofOption .list paths
    rules := o.rules
    tools := fun index =>
      { complaint := o.complaint
        tree := do
          let path ← (wanted c paths)[index]?
          o.parser path (← (c.read path).toOption) } }

/-- What an analysis tells, and the store that lasts. -/
def run (d : Desk) : Outcome Fields × Store :=
  let (result, d') := (analysisOrFailed c (o.order c paths)).run d
  (result, d'.lasting)

/-- The findings that are stored of a file that is analyzed alone. -/
def keptOf (path : Value) : List Analysis.Issue :=
  kept c (o.order c (some [path])) project (path, 0)

/-- Whether all findings of a file that is analyzed alone are stored. -/
def completeOf (path : Value) : Bool :=
  complete c (o.order c (some [path])) project (path, 0)

def rowsOf (path : Value) : List Issue :=
  (o.keptOf c project path).filterMap (contentOf (.int o.review))

lemma run_eq {d : Desk} (hd : Calm d d.now d.store) {result : Outcome Fields}
    (h : Gives (analysisOrFailed c (o.order c paths)) d.now d.store result s) :
    o.run c paths d = (result, s) := by
  obtain ⟨d', hd', hcalm⟩ := h d hd
  unfold run
  rw [hd', ← hcalm.lasting]

lemma found_order (hp : p ∈ (wanted c paths).zipIdx) :
    found c (o.order c paths) project p = found c (o.order c (some [p.1])) project (p.1, 0) := by
  have hat : (wanted c paths)[p.2]? = some p.1 := mem_zipIdx_iff_getElem?.mp hp
  have htools : (o.order c paths).tools p.2 = (o.order c (some [p.1])).tools 0 := by
    simp only [order, hat]
    rfl
  unfold found issuesOf
  rw [htools]
  rfl

/-- What does not depend on the positions of values can be had without them. -/
lemma map_zipIdx {β : Type} {xs : List Value} {f : Value × Nat → β} {g : Value → β}
    (h : ∀ p ∈ xs.zipIdx, f p = g p.1) : xs.zipIdx.map f = xs.map g := by
  calc xs.zipIdx.map f = xs.zipIdx.map (g ∘ (·.1)) := map_congr_left h
    _ = (xs.zipIdx.map (·.1)).map g := map_map.symm
    _ = xs.map g := by rw [zipIdx_map_fst]

lemma flatMap_kept : (wanted c paths).zipIdx.flatMap (kept c (o.order c paths) project) =
    (wanted c paths).flatMap (o.keptOf c project) := by
  rw [flatMap_def, flatMap_def]
  exact congrArg flatten (map_zipIdx fun p hp =>
    (fate_congr (o.found_order c paths project hp) rfl).1)

lemma countP_complete : (wanted c paths).zipIdx.countP (complete c (o.order c paths) project) =
    (wanted c paths).countP (o.completeOf c project) := by
  have hmap : (wanted c paths).zipIdx.map (complete c (o.order c paths) project) =
      (wanted c paths).map (o.completeOf c project) :=
    map_zipIdx fun p hp => (fate_congr (o.found_order c paths project hp) rfl).2
  have hcount := congrArg (countP id) hmap
  rwa [countP_map, countP_map] at hcount

lemma found_congr {c : Checkout} (h : c'.read path = c.read path) :
    found c' (o.order c' (some [path])) project (path, 0) =
      found c (o.order c (some [path])) project (path, 0) := by
  have htools : (o.order c' (some [path])).tools 0 = (o.order c (some [path])).tools 0 := by
    simp [order, wanted, h]
  unfold found issuesOf
  rw [h, htools]
  rfl

lemma rowsOf_congr {c : Checkout} (h : c'.read path = c.read path) :
    o.rowsOf c' project path = o.rowsOf c project path := by
  unfold rowsOf keptOf
  rw [(fate_congr (o.found_congr project h) rfl).1]

lemma filePath_rowsOf (path : String) :
    ∀ i ∈ o.rowsOf c project (.text path), i.filePath = path := by
  intro i hi
  obtain ⟨f, hf, hrow⟩ := mem_filterMap.mp hi
  have hfound : f.FoundIn path := by
    unfold keptOf kept found issuesOf at hf
    cases hread : c.read (.text path) with
    | error e =>
      rw [hread] at hf
      cases hf
    | ok content =>
      rw [hread] at hf
      exact Analysis.foundIn_analyze _ _ project path content o.rules f
        (takeWhile_subset _ hf)
  unfold contentOf at hrow
  cases hj : Issues.rowOf (.int o.review) (.object f.fields) ⟨0⟩ 0 with
  | error e =>
    rw [hj] at hrow
    cases hrow
  | ok j =>
    rw [hj] at hrow
    cases hrow
    exact Issues.rowOf_file hfound.2 hj

lemma filter_rowsOf (path : String) :
    (o.rowsOf c project (.text path)).filter (·.filePath != path) = [] := by
  refine filter_eq_nil_iff.mpr fun i hi => ?_
  simp [o.filePath_rowsOf c project path i hi]

/-! ## Whole runs -/

section

variable {d : Desk} (hd : Calm d d.now d.store) {p : Repository}

include hd

/-- A run that ends before the first file does so whatever the files are. -/
lemma run_unready (h : ∀ r p, d.store.reviewById (.int o.review) = .ok (some r) →
    d.store.repositoryById (.int o.repository) = .ok (some p) → c.prepared ≠ .ok ()) :
    ∃ e s, s.issues = d.store.issues ∧ ∀ c' paths', c'.prepared = c.prepared →
      o.run c' paths' d = (.error e, s) := by
  obtain ⟨e, s, hissues, hgives⟩ :=
    gives_analysis_unready o.review o.repository d.now d.store c.prepared h
  obtain ⟨b, s', hissues', hstatus⟩ := Reviews.gives_trySetStatus o.review d.now s .failed
  refine ⟨e, s', hissues'.trans hissues, fun c' paths' hprepared => o.run_eq c' paths' hd ?_⟩
  exact (hgives c' (o.order c' paths') rfl rfl hprepared).tryCatch_error
    (hstatus.discard.bind (gives_throw e d.now s'))

/-- A run that comes to the files adds what each of them gives alone. -/
lemma run_ready (hreview : d.store.reviewById (.int o.review) = .ok (some r))
    (hrepository : d.store.repositoryById (.int o.repository) = .ok (some p))
    (hprepared : c.prepared = .ok ()) :
    ∃ rows, rows.map Issue.content = (wanted c paths).flatMap (o.rowsOf c (projectOf p)) ∧
      o.run c paths d = (.ok (report o.review (wanted c paths).length
          ((wanted c paths).countP (o.completeOf c (projectOf p))) rows.length
          (storedMetrics rows (wanted c paths).length)),
        withIssues rows (closed o.review d.now (wanted c paths).length
          ((wanted c paths).countP (o.completeOf c (projectOf p))) rows.length
          (storedMetrics rows (wanted c paths).length) d.store)) := by
  obtain ⟨rows, hrows, hgives⟩ := gives_analysis (c := c) (o := o.order c paths) rfl rfl hreview
    hrepository d.now hprepared (filesOf_wanted c paths)
  rw [o.flatMap_kept] at hrows
  rw [o.countP_complete] at hgives
  refine ⟨rows, ?_, o.run_eq c paths hd hgives.tryCatch_ok⟩
  rw [hrows.contents, filterMap_flatMap]
  rfl

/-- With the same preparation, two runs come to the files or end alike. -/
lemma run_eq_or_ready {c : Checkout} (paths paths' : Option (List Value))
    (hprepared : c'.prepared = c.prepared) :
    o.run c' paths' d = o.run c paths d ∨ ∃ r p, d.store.reviewById (.int o.review) = .ok (some r) ∧
      d.store.repositoryById (.int o.repository) = .ok (some p) ∧ c.prepared = .ok () := by
  refine or_iff_not_imp_right.mpr fun hready => ?_
  obtain ⟨e, s, _, hrun⟩ := o.run_unready c hd fun r p hreview hrepository hok =>
    hready ⟨r, p, hreview, hrepository, hok⟩
  rw [hrun c' paths' hprepared, hrun c paths rfl]

/-- The same files in another order: the same is told, every other table is the same, and the rows
say the same. -/
lemma run_perm {c : Checkout} {paths paths' : Option (List Value)}
    (hprepared : c'.prepared = c.prepared) (hread : c'.read = c.read)
    (hperm : (wanted c' paths').Perm (wanted c paths)) :
    (o.run c' paths' d).1 = (o.run c paths d).1 ∧
      { (o.run c' paths' d).2 with issues := [] } = { (o.run c paths d).2 with issues := [] } ∧
      ((o.run c' paths' d).2.issues.map Issue.content).Perm
        ((o.run c paths d).2.issues.map Issue.content) := by
  rcases o.run_eq_or_ready hd paths paths' hprepared with heq | ⟨r, p, hreview, hrepository, hok⟩
  · rw [heq]
    exact ⟨rfl, rfl, .refl _⟩
  · obtain ⟨rows, hrows, hrun⟩ := o.run_ready c paths hd hreview hrepository hok
    obtain ⟨rows', hrows', hrun'⟩ :=
      o.run_ready c' paths' hd hreview hrepository (hprepared.trans hok)
    have hrowsOf : o.rowsOf c' (projectOf p) = o.rowsOf c (projectOf p) :=
      funext fun path => o.rowsOf_congr (projectOf p) (congrFun hread path)
    have hcompleteOf : o.completeOf c' (projectOf p) = o.completeOf c (projectOf p) :=
      funext fun path => (fate_congr (o.found_congr (projectOf p) (congrFun hread path)) rfl).2
    have hsame : (rows'.map Issue.content).Perm (rows.map Issue.content) := by
      rw [hrows, hrows', hrowsOf]
      exact hperm.flatMap_right _
    have hlen : rows'.length = rows.length := by simpa using hsame.length_eq
    have hcount : (wanted c' paths').countP (o.completeOf c' (projectOf p)) =
        (wanted c paths).countP (o.completeOf c (projectOf p)) := by
      rw [hcompleteOf]
      exact hperm.countP_eq _
    rw [hrun, hrun', hcount, hlen, hperm.length_eq, storedMetrics_congr hlen]
    refine ⟨rfl, rfl, ?_⟩
    simp only [withIssues, map_append]
    exact hsame.append_left _

/-- Another content of one file: the rows of all other files say the same. -/
lemma run_edit {c : Checkout} {path : String} (hprepared : c'.prepared = c.prepared)
    (hchanged : c'.changed = c.changed) (hread : ∀ q, q ≠ .text path → c'.read q = c.read q) :
    ((o.run c' paths d).2.issues.filter (·.filePath != path)).map Issue.content =
      ((o.run c paths d).2.issues.filter (·.filePath != path)).map Issue.content := by
  rcases o.run_eq_or_ready hd paths paths hprepared with heq | ⟨r, p, hreview, hrepository, hok⟩
  · rw [heq]
  · obtain ⟨rows, hrows, hrun⟩ := o.run_ready c paths hd hreview hrepository hok
    obtain ⟨rows', hrows', hrun'⟩ :=
      o.run_ready c' paths hd hreview hrepository (hprepared.trans hok)
    have hwanted : wanted c' paths = wanted c paths := by
      unfold wanted
      rw [hchanged]
    have hothers : ∀ q, (o.rowsOf c' (projectOf p) q).filter (·.filePath != path) =
        (o.rowsOf c (projectOf p) q).filter (·.filePath != path) := by
      intro q
      by_cases hq : q = .text path
      · subst hq
        rw [o.filter_rowsOf c', o.filter_rowsOf c]
      · rw [o.rowsOf_congr _ (hread q hq)]
    rw [hrun, hrun']
    simp only [withIssues, issues_closed, filter_append, map_append]
    congr 1
    rw [map_content_filter, map_content_filter, hrows, hrows', hwanted, filter_flatMap,
      filter_flatMap]
    exact flatMap_congr fun q _ => hothers q

end

end PlainOrder

/-- **What is stored of a file depends on that file alone.** At a calm desk, without a chat client
and a classifier: an analysis that comes to its files adds what each of them gives alone, and tells
their number, the number of those that are complete and the number of rows. So the same files in
another order come to the same result, the same counts of the review and, but for their numbers and
their times, the same rows, and another content of one file leaves the rows of all other files as
they are. -/
theorem analysis_file_by_file (o : PlainOrder) (c : Checkout) (paths : Option (List Value))
    (d : Desk) (hd : Calm d d.now d.store) :
    (∀ r p, d.store.reviewById (.int o.review) = .ok (some r) →
      d.store.repositoryById (.int o.repository) = .ok (some p) → c.prepared = .ok () →
      (o.run c paths d).2.issues.map Issue.content = d.store.issues.map Issue.content ++
        (wanted c paths).flatMap (o.rowsOf c (projectOf p)) ∧
      ∃ result, (o.run c paths d).1 = .ok result ∧
        Fields.get? result "total_files" = some (.ofNat (wanted c paths).length) ∧
        Fields.get? result "analyzed_files" =
          some (.ofNat ((wanted c paths).countP (o.completeOf c (projectOf p)))) ∧
        Fields.get? result "total_issues" =
          some (.ofNat ((wanted c paths).flatMap (o.rowsOf c (projectOf p))).length)) ∧
    (∀ c' paths', c'.prepared = c.prepared → c'.read = c.read →
      (wanted c' paths').Perm (wanted c paths) → (o.run c' paths' d).1 = (o.run c paths d).1 ∧
        { (o.run c' paths' d).2 with issues := [] } = { (o.run c paths d).2 with issues := [] } ∧
        ((o.run c' paths' d).2.issues.map Issue.content).Perm
          ((o.run c paths d).2.issues.map Issue.content)) ∧
    ∀ c' path, c'.prepared = c.prepared → c'.changed = c.changed →
      (∀ q, q ≠ .text path → c'.read q = c.read q) →
      ((o.run c' paths d).2.issues.filter (·.filePath != path)).map Issue.content =
        ((o.run c paths d).2.issues.filter (·.filePath != path)).map Issue.content := by
  refine ⟨?_, fun _ _ hprepared hread hperm => o.run_perm hd hprepared hread hperm,
    fun _ _ hprepared hchanged hread => o.run_edit paths hd hprepared hchanged hread⟩
  intro r p hreview hrepository hprepared
  obtain ⟨rows, hrows, hrun⟩ := o.run_ready c paths hd hreview hrepository hprepared
  have hlen : rows.length = ((wanted c paths).flatMap (o.rowsOf c (projectOf p))).length := by
    rw [← hrows, length_map]
  rw [hrun, ← hlen, ← hrows]
  refine ⟨?_, _, rfl, rfl, rfl, rfl⟩
  simp only [withIssues, issues_closed, map_append]

def plainOrder : PlainOrder :=
  { review := 7, repository := 3, complaint := fun _ => invalidSyntax }

def mendedFiles : Checkout :=
  { read := fun path =>
      match path with
      | .text "zero.py" => .ok (.text "x")
      | path => threeFiles.read path }

def zeroFirst : Option (List Value) := some [.text "zero.py", .text "broken.py"]

def zeroLast : Option (List Value) := some [.text "broken.py", .text "zero.py"]

/-- A file that is left in the middle of its findings may come before another one or after it, and
may be mended. -/
theorem analysis_file_by_file_of_two :
    (plainOrder.run threeFiles zeroFirst deskOfOne).2.issues.length = 2 ∧
      (∃ result, (plainOrder.run threeFiles zeroFirst deskOfOne).1 = .ok result ∧
        Fields.get? result "analyzed_files" = some (.int 1)) ∧
      (plainOrder.run threeFiles zeroLast deskOfOne).1 =
        (plainOrder.run threeFiles zeroFirst deskOfOne).1 ∧
      ((plainOrder.run threeFiles zeroLast deskOfOne).2.issues.map Issue.content).Perm
        ((plainOrder.run threeFiles zeroFirst deskOfOne).2.issues.map Issue.content) ∧
      ((plainOrder.run mendedFiles zeroFirst deskOfOne).2.issues.filter
          (·.filePath != "zero.py")).map Issue.content =
        ((plainOrder.run threeFiles zeroFirst deskOfOne).2.issues.filter
          (·.filePath != "zero.py")).map Issue.content := by
  have hd : Calm deskOfOne deskOfOne.now deskOfOne.store := ⟨fun _ => rfl, rfl, rfl, rfl, rfl⟩
  have hmended : ∀ q, q ≠ .text "zero.py" → mendedFiles.read q = threeFiles.read q := by
    intro q hq
    simp only [mendedFiles]
  obtain ⟨p, hp, hproject⟩ : ∃ p, deskOfOne.store.repositoryById (.int 3) = .ok (some p) ∧
      projectOf p = toolProject := ⟨_, rfl, rfl⟩
  have hrows : ((wanted threeFiles zeroFirst).flatMap
      (plainOrder.rowsOf threeFiles toolProject)).length = 2 := by decide +kernel
  have hcount : (wanted threeFiles zeroFirst).countP
      (plainOrder.completeOf threeFiles toolProject) = 1 := by decide +kernel
  obtain ⟨hadds, horder, hedit⟩ :=
    analysis_file_by_file plainOrder threeFiles zeroFirst deskOfOne hd
  obtain ⟨hissues, result, hresult, _, hanalyzed, _⟩ := hadds _ p rfl hp rfl
  have hlen := congrArg List.length hissues
  obtain ⟨hsame, _, hperm⟩ := horder threeFiles zeroLast rfl rfl (.swap ..)
  rw [length_map, hproject, length_append, hrows] at hlen
  rw [hproject, hcount] at hanalyzed
  exact ⟨hlen, ⟨result, hresult, hanalyzed⟩, hsame, hperm,
    hedit mendedFiles "zero.py" rfl rfl hmended⟩

end Jobs

namespace Jobs

open Outcome Work Store Reviews Analysis

/-!
## When a review is summed up

A summary is right for whatever findings it is made from. The job that sums up a review hands over
the rows of its issues, and a row is not read as a finding is: the job ends well exactly if there is
no row.
-/

variable {category line : String} {p : Repository}

def inCategory (rows : List Issue) (category : String) : Nat := rows.countP (·.category == category)

def Says (text phrase : String) : Prop := ∃ before after, text = before ++ phrase ++ after

/-- A finding of a summary: how many issues there are of some kind. -/
def keyFinding (n : Nat) (kind : String) : String := s!"• {n} {kind}"

/-- A summary with the numbers of a review's issues. -/
structure Sums (rows : List Issue) (text : String) : Prop where
  all : Says text s!"found {rows.length} issues"
  critical : Says text (keyFinding (graded rows .critical) "critical issues")
  high : Says text (keyFinding (graded rows .high) "high-priority issues")
  security : Says text (keyFinding (inCategory rows "security") "security-related concerns")
  performance : Says text
    (keyFinding (inCategory rows "performance") "performance optimization opportunities")

/-- Recommendations for the categories that a review's issues have. -/
structure Advises (rows : List Issue) (advice : List Analysis.Recommendation) : Prop where
  security : (∃ a ∈ advice, a.category = "security") ↔ ∃ i ∈ rows, i.category = "security"
  performance : (∃ a ∈ advice, a.category = "performance") ↔ ∃ i ∈ rows, i.category = "performance"
  quality : (∃ a ∈ advice, a.category = "quality") ↔ ∃ i ∈ rows, i.category = "code_quality"

def SummedUp (rows : List Issue) (r : Review) : Prop :=
  ∃ text advice, r.summary = some text ∧ Sums rows text ∧
    r.recommendations = .list (advice.map (·.report)) ∧ Advises rows advice

/-! ## Texts made of lines -/

lemma Says.trans {text phrase : String} (h : Says text line) (h' : Says line phrase) :
    Says text phrase := by
  obtain ⟨before, after, rfl⟩ := h
  obtain ⟨before', after', rfl⟩ := h'
  exact ⟨before ++ before', after' ++ after, by simp only [String.append_assoc]⟩

lemma says_line {lines : List String} (h : line ∈ lines) : Says ("\n".intercalate lines) line := by
  induction lines with
  | nil => cases h
  | cons first rest ih =>
    by_cases hrest : rest = []
    · subst hrest
      obtain rfl := mem_singleton.mp h
      exact ⟨"", "", by simp⟩
    · rw [String.intercalate_cons_of_ne_nil hrest]
      rcases mem_cons.mp h with rfl | h
      · exact ⟨"", "\n" ++ "\n".intercalate rest, by simp [String.append_assoc]⟩
      · obtain ⟨before, after, heq⟩ := ih h
        exact ⟨first ++ "\n" ++ before, after, by rw [heq]; simp only [String.append_assoc]⟩

lemma says_keyFinding (n : Nat) {words kind : String} (rest : String)
    (h : words = " " ++ kind ++ rest) :
    Says (toString "• " ++ toString n ++ toString words) (keyFinding n kind) := by
  refine ⟨"", rest, ?_⟩
  rw [h, String.empty_append]
  show "• " ++ n.repr ++ (" " ++ kind ++ rest) = "• " ++ n.repr ++ " " ++ kind ++ rest
  simp only [String.append_assoc]

lemma says_found (files risk : String) (n : Nat) :
    Says s!"Analyzed {files} files and found {n} issues. Risk level: {risk}."
      s!"found {n} issues" := by
  refine ⟨"Analyzed " ++ files ++ " files and ", ". Risk level: " ++ risk ++ ".", ?_⟩
  show "Analyzed " ++ files ++ (" files and " ++ "found ") ++ n.repr ++
      (" issues" ++ ". Risk level: ") ++ risk ++ "." =
    "Analyzed " ++ files ++ " files and " ++ ("found " ++ n.repr ++ " issues") ++
      (". Risk level: " ++ risk ++ ".")
  simp only [String.append_assoc]

/-! ## Rows read as findings -/

lemma countIssues_findings {test : Analysis.Issue → Outcome Bool} {p : Issue → Bool}
    (h : ∀ i, test (findingOf i) = .ok (p i)) (rows : List Issue) :
    countIssues test (rows.map findingOf) = .ok (rows.countP p) := by
  have hhits : (rows.map findingOf).mapM test = .ok (rows.map p) := by
    induction rows with
    | nil => rfl
    | cons i rows ih =>
      rw [map_cons, mapM_cons, h i, bind_ok, ih]
      rfl
  rw [countIssues, hhits, bind_ok, countP_map]
  rfl

lemma countSeverity_findings (s : Severity) (rows : List Issue) :
    countSeverity s (rows.map findingOf) = .ok (graded rows s) := by
  refine countIssues_findings (fun i => ?_) rows
  show Except.ok (Value.same (.text i.severity.name) (.text s.name)) = _
  cases i.severity <;> cases s <;> rfl

lemma countCategory_findings (category : String) (rows : List Issue) :
    countCategory category (rows.map findingOf) = .ok (inCategory rows category) :=
  countIssues_findings (fun _ => rfl) rows

lemma summaryText_findings (repository files : Value) (rows : List Issue) :
    ∃ text, summaryText repository files (rows.map findingOf) = .ok text ∧
      Sums rows text := by
  simp only [summaryText, countSeverity_findings, countCategory_findings, bind_ok,
    length_map]
  refine ⟨_, rfl, ?all, ?critical, ?high, ?security, ?performance⟩
  case all => exact (says_line (mem_of_getElem? (i := 4) rfl)).trans (says_found _ _ _)
  case critical =>
    exact (says_line (mem_of_getElem? (i := 7) rfl)).trans
      (says_keyFinding _ " requiring immediate attention" rfl)
  case high =>
    exact (says_line (mem_of_getElem? (i := 8) rfl)).trans
      (says_keyFinding _ " affecting code quality" rfl)
  case security =>
    exact (says_line (mem_of_getElem? (i := 9) rfl)).trans (says_keyFinding _ "" rfl)
  case performance =>
    exact (says_line (mem_of_getElem? (i := 10) rfl)).trans (says_keyFinding _ "" rfl)

lemma exists_advice {c : Prop} [Decidable c] {r : Analysis.Recommendation} :
    (∃ a ∈ (if c then [r] else []), a.category = category) ↔ c ∧ r.category = category := by
  split <;> simp [*]

lemma recommendations_findings (rows : List Issue) :
    ∃ advice, recommendations (rows.map findingOf) = .ok advice ∧ Advises rows advice := by
  simp only [recommendations, countCategory_findings, bind_ok]
  refine ⟨_, rfl, ?_, ?_, ?_⟩
  all_goals
    simp only [mem_append, or_and_right, exists_or, exists_advice]
    simp [inCategory, countP_pos_iff]

/-! ## The job -/

section

variable {id : Int} (hreview : s.reviewById (.int id) = .ok (some r)) (t : Moment)

include hreview

lemma gives_findDetailed :
    Gives (findDetailed (.int id) .null) t s (.ok (some (detailed s r))) s := by
  refine (gives_query_ok ?_ t).orElse_ok none
  show (s.reviewById (.int id) >>= fun r => pure (r.map (detailed s))) = _
  rw [hreview]
  rfl

lemma gives_summarize_error {e : Fault} (he : reviewSummary s (detailed s r) = .error e) :
    Gives (summarize (.int id)) t s (.error e) s := by
  refine Gives.tryCatch_error (e := e) ?_ ((gives_tell _ _ t s).bind (gives_throw e t s))
  refine (gives_tell _ _ t s).bind ((gives_findDetailed hreview t).bind ?_)
  refine (gives_tell _ _ t s).bind (gives_get fun desk hdesk => ?_)
  rw [hdesk.store]
  exact (gives_fault he t s).bind_error

def withSummary (text : String) (advice : List Analysis.Recommendation) (r : Review) : Review :=
  { r with summary := some text, recommendations := .list (advice.map (·.report)) }

lemma gives_summarize_ok {text : String} {advice : List Analysis.Recommendation}
    (htext : reviewSummary s (detailed s r) = .ok text)
    (hadvice : (do recommendations (← findingsOf (detailed s r).issues)) =
      .ok advice) : Gives (summarize (.int id)) t s
      (.ok [("review_id", .int id), ("summary", .text text),
        ("recommendations", .list (advice.map (·.report))), ("status", .text "completed")])
      (s.mapReview id fun r => noted t (withSummary text advice r)) := by
  have hid := (reviewById_eq.mp hreview).1
  have hset : Gives (setSummary (.int id) (.text text) (.list (advice.map (·.report)))) t s
      (.ok true) (s.mapReview id fun r => noted t (withSummary text advice r)) :=
    ((gives_ok rfl t s).bind (gives_write hid t s fun _ => rfl)).succeeds
  refine Gives.tryCatch_ok ?_
  refine (gives_tell _ _ t s).bind ((gives_findDetailed hreview t).bind ?_)
  refine (gives_tell _ _ t s).bind (gives_get fun desk hdesk => ?_)
  rw [hdesk.store]
  refine (gives_ok htext t s).bind ((gives_tell _ _ t s).bind ?_)
  refine (gives_ok hadvice t s).bind (hset.discard.bind ?_)
  exact (gives_tell _ _ t _).bind (gives_pure _ t _)

end

lemma reviewSummary_ok (hrows : s.issuesIn r.id = []) (hrepository : s.repositoryOf? r = some p) :
    reviewSummary s (detailed s r) =
      summaryText (.text p.name) r.totalFiles [] := by
  simp only [reviewSummary, detailed, repositoryName, hrepository, hrows]
  rw [show findingsOf [] = .ok [] from rfl, bind_ok, bind_ok]

lemma reviewSummary_error (h : s.issuesIn r.id ≠ [] ∨ s.repositoryOf? r = none) :
    ∃ e, reviewSummary s (detailed s r) = .error e := by
  by_cases hrows : s.issuesIn r.id = []
  · have hnone := h.resolve_left fun hne => hne hrows
    refine ⟨.noAttribute "'NoneType' object has no attribute 'name'", ?_⟩
    simp only [reviewSummary, detailed, repositoryName, hnone, hrows]
    rfl
  · refine ⟨.mistyped "'Issue' object is not subscriptable", ?_⟩
    simp only [reviewSummary, detailed, findingsOf, List.isEmpty_iff, if_neg hrows]
    rfl

/-- **A review is summed up only if nothing was found.** At a calm desk, for a review that is there:
the job ends and leaves a summary with the numbers of the review's issues and the recommendations
for their categories exactly if the review has no stored issue and its repository is there.
Otherwise it fails and writes nothing, although the text and the recommendations, made from the same
issues as findings, would be right. -/
theorem summed_up_iff_nothing_stored (d : Desk) (id : Int) (r : Review)
    (hd : Calm d d.now d.store) (hreview : d.store.reviewById (.int id) = .ok (some r)) :
    ((∃ result d' r', (summarize (.int id)).run d = (.ok result, d') ∧
        d'.lasting.reviewById (.int id) = .ok (some r') ∧ SummedUp (d.store.issuesIn id) r') ↔
      d.store.issuesIn id = [] ∧ (d.store.repositoryOf? r).isSome) ∧
    (d.store.issuesIn id ≠ [] ∨ d.store.repositoryOf? r = none →
      ∃ e d', (summarize (.int id)).run d = (.error e, d') ∧ d'.lasting = d.store) ∧
    ∀ name, ∃ text advice,
      Analysis.summaryText name r.totalFiles ((d.store.issuesIn id).map findingOf) = .ok text ∧
      Analysis.recommendations ((d.store.issuesIn id).map findingOf) = .ok advice ∧
      Sums (d.store.issuesIn id) text ∧ Advises (d.store.issuesIn id) advice := by
  obtain rfl := id_of_reviewById hreview
  have hfails : d.store.issuesIn r.id ≠ [] ∨ d.store.repositoryOf? r = none →
      ∃ e d', (summarize (.int r.id)).run d = (.error e, d') ∧ d'.lasting = d.store := by
    intro h
    obtain ⟨e, he⟩ := reviewSummary_error h
    obtain ⟨d', hrun, hcalm⟩ := gives_summarize_error hreview d.now he d hd
    exact ⟨e, d', hrun, hcalm.lasting⟩
  refine ⟨⟨?_, ?_⟩, hfails, fun name => ?_⟩
  · rintro ⟨result, d', r', hrun, _, _⟩
    by_cases h : d.store.issuesIn r.id ≠ [] ∨ d.store.repositoryOf? r = none
    · obtain ⟨e, d'', hrun', _⟩ := hfails h
      rw [hrun] at hrun'
      cases hrun'
    · simpa [not_or, Option.isSome_iff_ne_none] using h
  · rintro ⟨hrows, hsome⟩
    obtain ⟨p, hp⟩ := Option.isSome_iff_exists.mp hsome
    obtain ⟨text, htext, hsums⟩ := summaryText_findings (.text p.name) r.totalFiles []
    obtain ⟨advice, hadvice, hadvises⟩ := recommendations_findings []
    have hsummary := (reviewSummary_ok hrows hp).trans htext
    have hadvice' :
        (do Analysis.recommendations (← findingsOf (Reviews.detailed d.store r).issues)) =
          .ok advice := by
      simp only [Reviews.detailed, hrows]
      exact hadvice
    obtain ⟨d', hrun, hcalm⟩ := gives_summarize_ok hreview d.now hsummary hadvice' d hd
    refine ⟨_, d', Reviews.noted d.now (withSummary text advice r), hrun, ?_, text, advice, rfl,
      hrows ▸ hsums, rfl, hrows ▸ hadvises⟩
    rw [hcalm.lasting]
    exact reviewById_mapReview (fun _ => rfl) hreview
  · obtain ⟨text, htext, hsums⟩ := summaryText_findings name r.totalFiles (d.store.issuesIn r.id)
    obtain ⟨advice, hadvice, hadvises⟩ := recommendations_findings (d.store.issuesIn r.id)
    exact ⟨text, advice, htext, hadvice, hsums, hadvises⟩

def deskWithIssue : Desk :=
  let issue : Issue :=
    { id := 1, title := "t", description := "d", category := "security", severity := .critical
      filePath := "f.py", lineStart := 1, createdAt := ⟨0⟩, updatedAt := none, reviewId := 7 }
  let store : Store := { deskOfOne.store with issues := [issue] }
  { store, lasting := store, now := ⟨0⟩ }

/-- Without an issue the review is summed up, and with one it is not. -/
theorem summed_up_until_first_issue :
    (∃ result d' r', (summarize (.int 7)).run deskOfOne = (.ok result, d') ∧
      d'.lasting.reviewById (.int 7) = .ok (some r') ∧ SummedUp (deskOfOne.store.issuesIn 7) r') ∧
    ∃ e d', (summarize (.int 7)).run deskWithIssue = (.error e, d') ∧
      d'.lasting = deskWithIssue.store := by
  have hnone := summed_up_iff_nothing_stored deskOfOne 7 _ ⟨fun _ => rfl, rfl, rfl, rfl, rfl⟩ rfl
  have hone := summed_up_iff_nothing_stored deskWithIssue 7 _ ⟨fun _ => rfl, rfl, rfl, rfl, rfl⟩ rfl
  exact ⟨hnone.1.mpr ⟨rfl, rfl⟩, hone.2.1 (.inl fun h => by cases h)⟩

end Jobs

end ReviewDesk
