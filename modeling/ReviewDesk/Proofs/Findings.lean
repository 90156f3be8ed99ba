import ReviewDesk.Proofs.Ranking

/-!
# What a reply leaves of the other findings

A reply of the chat client comes between the findings of the other stages, and its fields can be any
values. As long as these can be keys, an issue of another stage is reported, or one with the same
title, file, line and category is. A list or an object cannot be a key, and a single one takes all
findings away.
-/

namespace ReviewDesk.Analysis

open List Outcome

variable {issues : List Issue} {i : Issue}
variable {tools : Tools} {text : Chars}

/-! ## Keys -/

/-- The issues have the same title, file, line and category. -/
def Issue.SameFinding (i j : Issue) : Prop :=
  ∀ field ∈ keyFields, ∃ v w, i.find? field = some v ∧ j.find? field = some w ∧ v.same w = true

/-- No field that tells issues apart is a list or an object. -/
def Issue.Keyed (i : Issue) : Prop :=
  ∀ field ∈ keyFields, ∀ v, i.find? field = some v → v.list? = none ∧ v.fields? = none

def Core.keyParts (c : Core) : List Value := [c.title, c.path, c.lineStart, c.category]

section

variable (c : Core) (more : Fields)

lemma Core.find?_issue : keyFields.map (c.issue more).find? = c.keyParts.map some := by
  rfl

lemma Core.find?_eq_some {field : String} (h : field ∈ keyFields) :
    ∃ v ∈ c.keyParts, (c.issue more).find? field = some v := by
  have hfind : (c.issue more).find? field ∈ c.keyParts.map some :=
    c.find?_issue more ▸ mem_map_of_mem h
  obtain ⟨v, hv, heq⟩ := mem_map.mp hfind
  exact ⟨v, hv, heq.symm⟩

lemma Core.key_issue : (c.issue more).key = c.keyParts.mapM asKeyPart := by
  rfl

end

namespace Core

variable {c d : Core} {more others : Fields}

lemma keyed_issue_iff :
    (c.issue more).Keyed ↔ ∀ v ∈ c.keyParts, v.list? = none ∧ v.fields? = none := by
  have hfind := c.find?_issue more
  simp only [keyFields, keyParts, map_cons, map_nil, List.cons.injEq, and_true] at hfind
  simp [Issue.Keyed, keyFields, keyParts, hfind]

lemma key_eq_ok {k : List Value} :
    (c.issue more).key = .ok k ↔ k = c.keyParts ∧ (c.issue more).Keyed := by
  rw [key_issue, mapM_asKeyPart, keyed_issue_iff]

end Core

/-! ## Priorities -/

def Priority.Comparable (p : Priority) : Prop := p.confidence.number?.isSome = true

lemma less_of_numbers {a b : Value} (ha : a.number?.isSome = true) (hb : b.number?.isSome = true) :
    ∃ t, Value.less a b = .ok t := by
  cases a <;> simp only [Value.number?, Option.isSome_none, Bool.false_eq_true] at ha
  all_goals
    cases b <;> simp only [Value.number?, Option.isSome_none, Bool.false_eq_true] at hb
    all_goals exact ⟨_, rfl⟩

lemma Priority.Comparable.lower {p q : Priority} (hp : p.Comparable) (hq : q.Comparable) :
    ∃ t, p.lower q = .ok t := by
  unfold Priority.lower
  split
  · exact ⟨_, rfl⟩
  · split
    · exact ⟨_, rfl⟩
    · exact less_of_numbers hp hq

lemma insertByPriority_perm {x : Priority × Issue} {ys : List (Priority × Issue)}
    (hx : x.1.Comparable) (hys : ∀ y ∈ ys, y.1.Comparable) :
    ∃ zs, insertByPriority x ys = .ok zs ∧ zs.Perm (x :: ys) := by
  induction ys with
  | nil => exact ⟨[x], rfl, .refl _⟩
  | cons y ys ih =>
    obtain ⟨t, ht⟩ := (hys y (.head _)).lower hx
    rw [insertByPriority, ht, bind_ok]
    cases t with
    | true => exact ⟨_, rfl, .refl _⟩
    | false =>
      obtain ⟨zs, hzs, hperm⟩ := ih fun z hz => hys z (.tail _ hz)
      rw [hzs]
      exact ⟨y :: zs, rfl, (hperm.cons y).trans (.swap x y ys)⟩

lemma foldlM_insert_perm {xs acc : List (Priority × Issue)} (hxs : ∀ x ∈ xs, x.1.Comparable)
    (hacc : ∀ x ∈ acc, x.1.Comparable) :
    ∃ zs, xs.foldlM (fun acc x => insertByPriority x acc) acc = Except.ok zs ∧
      zs.Perm (xs ++ acc) := by
  induction xs generalizing acc with
  | nil => exact ⟨acc, rfl, .refl _⟩
  | cons x xs ih =>
    have hx := hxs x (.head _)
    obtain ⟨ys, hys, hperm⟩ := insertByPriority_perm hx hacc
    have hcomparable : ∀ y ∈ ys, y.1.Comparable := fun y hy => by
      rcases mem_cons.mp (hperm.mem_iff.mp hy) with rfl | hy
      · exact hx
      · exact hacc y hy
    obtain ⟨zs, hzs, hzsperm⟩ := ih (fun y hy => hxs y (.tail _ hy)) hcomparable
    rw [foldlM_cons, hys, bind_ok]
    exact ⟨zs, hzs, hzsperm.trans ((hperm.append_left xs).trans perm_middle)⟩

lemma prioritize_perm (h : ∀ i ∈ issues, ∃ p, i.priority = .ok p ∧ p.Comparable) :
    ∃ sorted, prioritize issues = .ok sorted ∧ sorted.Perm issues := by
  have hpriority : ∀ i ∈ issues, (do return (← i.priority, i)) =
      Except.ok (i.priority.getD ⟨0, .null⟩, i) := fun i hi => by
    obtain ⟨p, hp, _⟩ := h i hi
    rw [hp]
    rfl
  have hcomparable : ∀ x ∈ issues.map fun i => (i.priority.getD ⟨0, .null⟩, i),
      x.1.Comparable := fun x hx => by
    obtain ⟨i, hi, rfl⟩ := mem_map.mp hx
    obtain ⟨p, hp, hcomparable⟩ := h i hi
    rw [hp]
    exact hcomparable
  obtain ⟨zs, hzs, hperm⟩ := foldlM_insert_perm hcomparable (forall_mem_nil _)
  refine ⟨zs.map (·.2), ?_, ?_⟩
  · rw [prioritize, mapM_of_ok hpriority, bind_ok, hzs]
    rfl
  · have hissues := hperm.map (·.2)
    rw [append_nil, map_map] at hissues
    exact hissues.trans (.of_eq (map_id _))

/-! ## Both together -/

/-- The issues without duplicates and by priority; none if that fails. -/
def ranked (issues : List Issue) : List Issue :=
  Outcome.getD (do prioritize (← dedupe issues)) []

/-- An issue that any stage can give. -/
def Issue.Reported (i : Issue) : Prop :=
  ∃ (c : Core) (more : Fields), i = c.issue more ∧ c.confidence.number?.isSome = true

lemma Issue.Reported.priority (h : i.Reported) : ∃ p, i.priority = .ok p ∧ p.Comparable := by
  obtain ⟨c, more, rfl, hc⟩ := h
  exact ⟨_, rfl, hc⟩

lemma Issue.Reported.key (h : i.Reported) : (∃ k, i.key = .ok k) ↔ i.Keyed := by
  obtain ⟨c, more, rfl, _⟩ := h
  exact ⟨fun ⟨_, hk⟩ => (Core.key_eq_ok.mp hk).2, fun hk => ⟨_, Core.key_eq_ok.mpr ⟨rfl, hk⟩⟩⟩

lemma Issue.Reported.hasKey (h : i.Reported) (hkeyed : i.Keyed) : i.HasKey := by
  obtain ⟨c, more, rfl, _⟩ := h
  intro field hfield
  obtain ⟨v, _, hv⟩ := c.find?_eq_some more hfield
  obtain ⟨hlist, hfields⟩ := hkeyed field hfield v hv
  exact ⟨v, hv, hlist, hfields⟩

section

variable (h : ∀ i ∈ issues, i.Reported)

include h

lemma keyed_of_ranked (hsome : ranked issues ≠ []) : ∀ i ∈ issues, i.Keyed := by
  intro i hi
  refine (h i hi).key.mp ?_
  cases hkeys : issues.mapM fun i => (do return (← i.key, i) : Outcome _) with
  | error e =>
    rw [ranked, dedupe, hkeys] at hsome
    exact absurd rfl hsome
  | ok keyed =>
    obtain ⟨p, hp⟩ := ok_of_mapM hkeys i hi
    obtain ⟨k, hk, _⟩ := bind_eq_ok hp
    exact ⟨k, hk⟩

lemma ranked_eq (hkeyed : ∀ i ∈ issues, i.Keyed) :
    prioritize (firsts issues) = .ok (ranked issues) ∧ (ranked issues).Perm (firsts issues) := by
  have hkeys : ∀ i ∈ issues, i.HasKey := fun i hi => (h i hi).hasKey (hkeyed i hi)
  obtain ⟨sorted, hsorted, hperm⟩ := prioritize_perm fun i hi =>
    (h i ((firsts_sublist issues).subset hi)).priority
  have heq : ranked issues = sorted := by
    rw [ranked, dedupe_eq hkeys, bind_ok, hsorted]
    rfl
  exact heq ▸ ⟨hsorted, hperm⟩

lemma mem_ranked (hkeyed : ∀ i ∈ issues, i.Keyed) {j : Issue} :
    j ∈ ranked issues ↔ j ∈ firsts issues :=
  (ranked_eq h hkeyed).2.mem_iff

lemma mem_of_mem_ranked {j : Issue} (hj : j ∈ ranked issues) : j ∈ issues := by
  rw [mem_ranked h (keyed_of_ranked h (ne_nil_of_mem hj))] at hj
  exact (firsts_sublist issues).subset hj

end

/-! ## Findings of the stages -/

/-- An issue that a stage gives whose fields are not read from a reply: its title, file, line and
category are texts or whole numbers, or it has no line. -/
def Issue.Found (i : Issue) : Prop :=
  ∃ (c : Core) (more : Fields), i = c.issue more ∧ c.confidence.number?.isSome = true ∧
    ∀ v ∈ c.keyParts, (∃ s, v = .text s) ∨ (∃ n, v = .int n) ∨ v = .null

def Issue.FoundIn (path : String) (i : Issue) : Prop :=
  i.Found ∧ i.find? "file_path" = some (.text path)

lemma Issue.Found.reported (h : i.Found) : i.Reported := by
  obtain ⟨c, more, hi, hc, _⟩ := h
  exact ⟨c, more, hi, hc⟩

lemma Issue.Found.keyed (h : i.Found) : i.Keyed := by
  obtain ⟨c, more, rfl, _, hparts⟩ := h
  refine Core.keyed_issue_iff.mpr fun v hv => ?_
  rcases hparts v hv with ⟨s, rfl⟩ | ⟨n, rfl⟩ | rfl <;> exact ⟨rfl, rfl⟩

lemma Issue.Found.sameFinding {j : Issue} (hi : i.Found) (hj : j.HasKey)
    (h : i.sameKey j = true) : i.SameFinding j := by
  obtain ⟨c, more, rfl, _, hparts⟩ := hi
  intro field hfield
  obtain ⟨v, hmem, hv⟩ := c.find?_eq_some more hfield
  obtain ⟨w, hw, _⟩ := hj field hfield
  have hnan : v.isNaN = false := by
    rcases hparts v hmem with ⟨s, rfl⟩ | ⟨n, rfl⟩ | rfl <;> rfl
  have halike := all_eq_true.mp h field hfield
  rw [Issue.part, Issue.part, hv, hw] at halike
  exact ⟨v, w, hv, hw, by simpa [Value.alike, hnan] using halike⟩

lemma Issue.Found.exists_ranked (h : ∀ i ∈ issues, i.Reported)
    (hkeyed : ∀ i ∈ issues, i.Keyed) (hi : i ∈ issues) (hfound : i.Found) :
    ∃ j ∈ ranked issues, i.SameFinding j := by
  have hkeys : ∀ i ∈ issues, i.HasKey := fun i hi => (h i hi).hasKey (hkeyed i hi)
  have hsome : (issues.find? (·.sameKey i)).isSome = true :=
    find?_isSome.mpr ⟨i, hi, (hkeys i hi).sameKey_self⟩
  obtain ⟨j, hj⟩ := Option.isSome_iff_exists.mp hsome
  obtain ⟨hfirst, hsame⟩ := (find?_eq_some_iff hkeys).mp hj
  have hkey := hkeys j (mem_of_find?_eq_some hj)
  exact ⟨j, (mem_ranked h hkeyed).mpr hfirst, hfound.sameFinding hkey (hkey.sameKey_symm hsame)⟩

lemma Core.foundIn {c : Core} (more : Fields) {path : String} (htitle : ∃ s, c.title = .text s)
    (hpath : c.path = .text path) (hline : (∃ n, c.lineStart = .int n) ∨ c.lineStart = .null)
    (hcategory : ∃ s, c.category = .text s) (hconfidence : c.confidence.number?.isSome = true) :
    (c.issue more).FoundIn path := by
  refine ⟨⟨c, more, rfl, hconfidence, fun v hv => ?_⟩, congrArg some hpath⟩
  fin_cases hv
  · exact .inl htitle
  · exact .inl ⟨path, hpath⟩
  · exact .inr hline
  · exact .inl hcategory

section

variable {path : Value}

mutual

lemma eq_deepIssue {depth : Nat} {n : SyntaxNode} (hi : i ∈ nestingIssues path depth n) :
    ∃ d start stop, i = deepIssue path d start stop := by
  obtain ⟨type, start, stop, children⟩ := n
  rw [nestingIssues, mem_append] at hi
  rcases hi with hi | hi
  · simp only [mem_ite_nil_right, mem_singleton] at hi
    exact ⟨_, _, _, hi.2⟩
  · exact eq_deepIssue_of hi

lemma eq_deepIssue_of {depth : Nat} {ns : List SyntaxNode}
    (hi : i ∈ nestingIssuesOf path depth ns) : ∃ d start stop, i = deepIssue path d start stop := by
  cases ns with
  | nil => cases hi
  | cons n ns =>
    rw [nestingIssuesOf, mem_append] at hi
    rcases hi with hi | hi
    · exact eq_deepIssue hi
    · exact eq_deepIssue_of hi

end

/-- What the rules for programs give: a finding in a program, a nested node, or the issue of a text
that is no program. -/
lemma programStage_cases {language : String} (hi : i ∈ programStage tools path text language) :
    (∃ tree, ∃ f ∈ Lint.findings tree, i = lintIssue path f) ∨
      (∃ d start stop, i = deepIssue path d start stop) ∨ ∃ c, i = syntaxIssue path c := by
  unfold programStage at hi
  split at hi
  · split at hi
    · rename_i tree _
      rcases mem_append.mp hi with hi | hi
      · obtain ⟨f, hf, rfl⟩ := mem_map.mp hi
        exact .inl ⟨tree, f, hf, rfl⟩
      · cases htree : tools.tree with
        | none => simp [htree] at hi
        | some n =>
          rw [htree] at hi
          exact .inr (.inl (eq_deepIssue hi))
    · exact .inr (.inr ⟨_, mem_singleton.mp hi⟩)
  · cases hi

lemma qualityIssue?_cases {n : Nat} {a : Verdict} (h : qualityIssue? path n a = some i) :
    ∃ (label : String) (score : Value), Value.less (.real 0.7) score = .ok true ∧
      i = Core.issue
        { title := .text "Code Quality Issue"
          description := .text s!"Code quality concern detected: {label}"
          category := .text "code_quality"
          severity := .medium
          ruleId := "ml_quality_check"
          path
          lineStart := .ofNat (n * 20 + 1)
          confidence := score }
        [("line_end", .ofNat ((n + 1) * 20))] := by
  simp only [qualityIssue?] at h
  -- only one path through the verdict gives an issue
  repeat' split at h
  all_goals try cases h
  rename_i hless _
  exact ⟨_, _, hless, rfl⟩

lemma exists_qualityIssue? (hi : i ∈ qualityStage tools path text) :
    ∃ n a, qualityIssue? path n a = some i := by
  unfold qualityStage at hi
  cases hclassifier : tools.classifier with
  | none => simp [hclassifier] at hi
  | some answers =>
    rw [hclassifier] at hi
    obtain ⟨⟨a, n⟩, _, h⟩ := mem_filterMap.mp hi
    exact ⟨n, a, h⟩

lemma exists_element {vs : List Value} (hi : i ∈ replyIssuesOf path vs) :
    ∃ v, replyIssue? path v = some i := by
  induction vs with
  | nil => cases hi
  | cons v vs ih =>
    unfold replyIssuesOf at hi
    split at hi
    · rename_i first hfirst
      rcases mem_cons.mp hi with rfl | hi
      · exact ⟨v, hfirst⟩
      · exact ih hi
    · cases hi

lemma Reply.exists_element {reply : Reply} (hi : i ∈ reply.issues path) :
    ∃ v, replyIssue? path v = some i := by
  cases reply with
  | fails => cases hi
  | text s =>
    simp only [Reply.issues, replyIssues] at hi
    split at hi
    · split at hi
      · exact Analysis.exists_element hi
      · cases hi
    · cases hi

end

section

variable (path : String)

lemma foundIn_program (tools : Tools) (text : Chars) (language : String) :
    ∀ i ∈ programStage tools (.text path) text language, i.FoundIn path := by
  intro i hi
  rcases programStage_cases hi with ⟨_, f, _, rfl⟩ | ⟨_, _, _, rfl⟩ | ⟨⟨_, _ | _, _⟩, rfl⟩
  · exact Core.foundIn _ ⟨_, rfl⟩ rfl (.inl ⟨_, rfl⟩) ⟨_, rfl⟩ rfl
  · exact Core.foundIn _ ⟨_, rfl⟩ rfl (.inl ⟨_, rfl⟩) ⟨_, rfl⟩ rfl
  · exact Core.foundIn _ ⟨_, rfl⟩ rfl (.inr rfl) ⟨_, rfl⟩ rfl
  · exact Core.foundIn _ ⟨_, rfl⟩ rfl (.inl ⟨_, rfl⟩) ⟨_, rfl⟩ rfl

lemma foundIn_security (p : Path) (text : Chars) (language : String) :
    ∀ i ∈ securityStage p (.text path) text language, i.FoundIn path := by
  intro i hi
  obtain ⟨f, _, rfl⟩ := mem_map.mp hi
  exact Core.foundIn _ ⟨_, rfl⟩ rfl (.inl ⟨_, rfl⟩) ⟨_, rfl⟩ rfl

lemma number?_of_less {x : Float} {v : Value} (h : Value.less (.real x) v = .ok true) :
    v.number?.isSome = true := by
  cases v <;> simp [Value.less, Value.number?] at h ⊢

lemma foundIn_quality (tools : Tools) (text : Chars) :
    ∀ i ∈ qualityStage tools (.text path) text, i.FoundIn path := by
  intro i hi
  obtain ⟨n, a, hissue⟩ := exists_qualityIssue? hi
  obtain ⟨label, score, hless, rfl⟩ := qualityIssue?_cases hissue
  exact Core.foundIn _ ⟨_, rfl⟩ rfl (.inl ⟨_, rfl⟩) ⟨_, rfl⟩ (number?_of_less hless)

lemma foundIn_rule (text : Chars) (rule : String) :
    ∀ i ∈ issuesOfRule (.text path) text rule, i.FoundIn path := by
  intro i hi
  obtain ⟨⟨shown, p⟩, _, hi⟩ := mem_flatMap.mp hi
  obtain ⟨m, _, rfl⟩ := mem_map.mp hi
  exact Core.foundIn _ ⟨_, rfl⟩ rfl (.inl ⟨_, rfl⟩) ⟨_, rfl⟩ rfl

lemma foundIn_rules {text : String} {rules : Value} {issues : List Issue}
    (h : ruleStage (.text path) (.text text) rules = .ok issues) : ∀ i ∈ issues, i.FoundIn path := by
  intro i hi
  unfold ruleStage at h
  split at h
  · obtain ⟨names, _, h⟩ := bind_eq_ok h
    obtain ⟨found, hfound, h⟩ := bind_eq_ok h
    cases h
    obtain ⟨is, his, hi⟩ := mem_flatten.mp hi
    obtain ⟨rule, _, hrule⟩ := mem_of_mapM hfound is his
    cases rule with
    | list vs => cases hrule
    | object fs => cases hrule
    | text r =>
      cases hrule
      exact foundIn_rule path _ r i hi
    | _ =>
      cases hrule
      cases hi
  · cases h
    cases hi

end

lemma reported_reply (path element : Value) : ∀ i ∈ replyIssue? path element, i.Reported := by
  intro i hi
  unfold replyIssue? at hi
  split at hi
  · simp only at hi
    split at hi
    all_goals cases hi
    all_goals exact ⟨_, _, rfl, rfl⟩
  · cases hi

lemma Reply.reported (path : Value) (reply : Reply) : ∀ i ∈ reply.issues path, i.Reported := by
  intro i hi
  obtain ⟨v, hv⟩ := exists_element hi
  exact reported_reply path v i hv

/-! ## Analyses -/

def ownIssues (tools : Tools) (path text : String) : List Issue :=
  programStage tools (.text path) text.toList (languageOf (.ofText path)) ++
    securityStage (.ofText path) (.text path) text.toList (languageOf (.ofText path)) ++
    qualityStage tools (.text path) text.toList

lemma foundIn_ownIssues (tools : Tools) (path text : String) :
    ∀ i ∈ ownIssues tools path text, i.FoundIn path := by
  intro i hi
  simp only [ownIssues, mem_append] at hi
  rcases hi with (hi | hi) | hi
  · exact foundIn_program path tools _ _ i hi
  · exact foundIn_security path _ _ _ i hi
  · exact foundIn_quality path tools _ i hi

lemma found_ownIssues (tools : Tools) (path text : String) :
    ∀ i ∈ ownIssues tools path text, i.Found :=
  fun i hi => (foundIn_ownIssues tools path text i hi).1

section

variable (tools : Tools) (project : Project)

lemma stages_fst (path text : String) (rules : Value) :
    (stages tools project path text rules).1 = (ruleStage (.text path) (.text text) rules).map
        (ownIssues tools path text ++ (tools.chat.map (·.issues (.text path))).getD [] ++ ·) := by
  unfold stages chatStage
  cases tools.chat <;> rfl

lemma analyzeText_fst (path text : String) (rules : Value) :
    (analyzeText tools project path text rules).1 =
      if isCodeFile (.ofText path) text.toList then
        Outcome.getD (do prioritize (← dedupe (← (stages tools project path text rules).1))) []
      else [] := by
  unfold analyzeText
  split <;> rfl

lemma analyze_of_rules {path text : String} {rules : Value}
    {found : List Issue} (hcode : isCodeFile (.ofText path) text.toList = true)
    (hrules : ruleStage (.text path) (.text text) rules = .ok found) :
    (analyze tools project (.text path) (.text text) rules).1 = ranked (ownIssues tools path text ++
        (tools.chat.map (·.issues (.text path))).getD [] ++ found) := by
  rw [analyze, analyzeText_fst, if_pos hcode, stages_fst, hrules, Except.map, bind_ok, ranked]

/-- An analysis reports nothing, whatever is replied, or ranks the findings of the other stages
together with those of the reply. -/
lemma analyze_cases_in (path content rules : Value) :
    (∀ chat, (analyze { tools with chat } project path content rules).1 = []) ∨
      ∃ (p : String) (before after : List Issue), path = .text p ∧
        (∀ i ∈ before ++ after, i.FoundIn p) ∧
        ∀ chat, (analyze { tools with chat } project path content rules).1 =
          ranked (before ++ (chat.map (·.issues path)).getD [] ++ after) := by
  cases path with
  | text p =>
    cases content with
    | text s =>
      by_cases hcode : isCodeFile (.ofText p) s.toList
      · cases hrules : ruleStage (.text p) (.text s) rules with
        | error e =>
          refine .inl fun chat => ?_
          rw [analyze, analyzeText_fst, if_pos hcode, stages_fst, hrules]
          rfl
        | ok after =>
          refine .inr ⟨p, ownIssues tools p s, after, rfl, fun i hi => ?_, fun chat => ?_⟩
          · rcases mem_append.mp hi with hi | hi
            · exact foundIn_ownIssues tools p s i hi
            · exact foundIn_rules p hrules i hi
          · exact analyze_of_rules _ project hcode hrules
      · refine .inl fun chat => ?_
        rw [analyze, analyzeText_fst, if_neg hcode]
    | _ => exact .inl fun _ => rfl
  | _ => exact .inl fun _ => by cases content <;> rfl

lemma analyze_cases (path content rules : Value) :
    (∀ chat, (analyze { tools with chat } project path content rules).1 = []) ∨
      ∃ before after : List Issue, (∀ i ∈ before ++ after, i.Found) ∧
        ∀ chat, (analyze { tools with chat } project path content rules).1 =
          ranked (before ++ (chat.map (·.issues path)).getD [] ++ after) := by
  rcases analyze_cases_in tools project path content rules with hnone | ⟨_, before, after, _, hin, hall⟩
  · exact .inl hnone
  · exact .inr ⟨before, after, fun i hi => (hin i hi).1, hall⟩

end

/-- Without a chat client, what is reported of a file was found in it. -/
lemma foundIn_analyze (complaint : Chars → Source.Complaint) (tree : Option SyntaxNode)
    (project : Project) (path : String) (content rules : Value) :
    ∀ i ∈ (analyze { complaint, tree } project (.text path) content rules).1, i.FoundIn path := by
  intro i hi
  rcases analyze_cases_in { complaint, tree } project (.text path) content rules with
    hnone | ⟨p, before, after, hpath, hin, hall⟩
  · rw [hnone none] at hi
    cases hi
  · cases hpath
    have hown : ∀ i ∈ before ++ [] ++ after, i.FoundIn path := by rwa [append_nil]
    rw [hall none] at hi
    exact hown i (mem_of_mem_ranked (fun j hj => (hown j hj).1.reported) hi)

/-- Every finding of an analysis without a chat client is still reported with its reply, itself or
one like it, exactly if there is no finding or if no title, line or category in the reply is a list
or an object. -/
theorem findings_stay_iff (tools : Tools) (project : Project) (path content rules : Value)
    (reply : Reply) : (∀ i ∈ (analyze { tools with chat := none } project path content rules).1,
        ∃ j ∈ (analyze { tools with chat := some reply } project path content rules).1,
          i.SameFinding j) ↔
      (analyze { tools with chat := none } project path content rules).1 = [] ∨
        ∀ i ∈ reply.issues path, i.Keyed := by
  rcases analyze_cases tools project path content rules with hnone | ⟨before, after, hfound, hall⟩
  · rw [hnone none]
    exact ⟨fun _ => .inl rfl, fun _ i hi => by cases hi⟩
  · have hown : ∀ i ∈ before ++ [] ++ after, i.Found := by rwa [append_nil]
    have hmem {i : Issue} : i ∈ before ++ reply.issues path ++ after ↔
        i ∈ before ++ [] ++ after ∨ i ∈ reply.issues path := by
      simp only [mem_append, not_mem_nil, or_false]
      exact or_right_comm
    have hreported : ∀ i ∈ before ++ reply.issues path ++ after, i.Reported := fun i hi =>
      (hmem.mp hi).elim (fun hi => (hown i hi).reported) (reply.reported path i)
    rw [hall none, hall (some reply)]
    show (∀ i ∈ ranked (before ++ [] ++ after),
      ∃ j ∈ ranked (before ++ reply.issues path ++ after), i.SameFinding j) ↔
        ranked (before ++ [] ++ after) = [] ∨ ∀ i ∈ reply.issues path, i.Keyed
    constructor
    · intro hstay
      by_cases hsome : ranked (before ++ [] ++ after) = []
      · exact .inl hsome
      · -- one finding that is left shows that all keys could be made
        obtain ⟨i, hi⟩ := exists_mem_of_ne_nil _ hsome
        obtain ⟨j, hj, _⟩ := hstay i hi
        have hkeyed := keyed_of_ranked hreported (ne_nil_of_mem hj)
        exact .inr fun i hi => hkeyed i (hmem.mpr (.inr hi))
    · rintro (hnone | hkeyed) i hi
      · rw [hnone] at hi
        cases hi
      · have hi := mem_of_mem_ranked (fun i hi => (hown i hi).reported) hi
        refine (hown i hi).exists_ranked hreported (fun j hj => ?_) (hmem.mpr (.inl hi))
        exact (hmem.mp hj).elim (fun hj => (hown j hj).keyed) (hkeyed j)

/-- A text that is no program is reported, but not if the title in a reply is a list. -/
theorem list_title_loses_findings :
    (analyze { chat := none } ⟨.null, .null, .null⟩ (.text "a.py") (.text "(") .null).1 ≠ [] ∧
      ¬∀ i ∈ (analyze { chat := none } ⟨.null, .null, .null⟩ (.text "a.py") (.text "(") .null).1,
        ∃ j ∈ (analyze { chat := some (.text "[\x7b\"title\": []\x7d]") } ⟨.null, .null, .null⟩
          (.text "a.py") (.text "(") .null).1, i.SameFinding j := by
  have hcode : isCodeFile (.ofText "a.py") "(".toList = true := by decide +kernel
  have hlanguage : languageOf (.ofText "a.py") = "python" := by decide +kernel
  have hsource : Source.parse? "(".toList = none := Option.isNone_iff_eq_none.mp (by decide +kernel)
  have hown : syntaxIssue (.text "a.py") (Source.complaint (fun _ => {}) "(".toList) ∈
      ownIssues {} "a.py" "(" := by
    refine mem_append_left _ (mem_append_left _ ?_)
    rw [programStage, hlanguage, if_pos rfl, hsource]
    exact mem_singleton_self _
  have hall := found_ownIssues {} "a.py" "("
  have hnotKeyed : ¬∀ i ∈ (Reply.text "[\x7b\"title\": []\x7d]").issues (.text "a.py"), i.Keyed := by
    have hlist : ((Reply.text "[\x7b\"title\": []\x7d]").issues (.text "a.py")).any
        (fun i => (i.find? "title").any (·.list?.isSome)) = true := by decide +kernel
    obtain ⟨i, hi, htitle⟩ := any_eq_true.mp hlist
    intro hkeyed
    cases hv : i.find? "title" with
    | none => simp [hv] at htitle
    | some v => simp [hv, (hkeyed i hi "title" (by decide) v hv).1] at htitle
  obtain ⟨j, hj, _⟩ := (hall _ hown).exists_ranked (fun i hi => (hall i hi).reported)
    (fun i hi => (hall i hi).keyed) hown
  have hsome : (analyze { chat := none } ⟨.null, .null, .null⟩ (.text "a.py") (.text "(")
      .null).1 ≠ [] := by
    rw [analyze_of_rules { chat := none } _ hcode rfl]
    show ranked (ownIssues {} "a.py" "(" ++ [] ++ []) ≠ []
    rw [append_nil, append_nil]
    exact ne_nil_of_mem hj
  refine ⟨hsome, fun hstay => ?_⟩
  rcases (findings_stay_iff {} _ _ _ _ _).mp hstay with hnone | hkeyed
  · exact hsome hnone
  · exact hnotKeyed hkeyed

end ReviewDesk.Analysis
