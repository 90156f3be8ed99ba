import ReviewDesk.Proofs.Findings

/-!
# Findings that are taken for duplicates

Two findings of one title on one line are taken for one, although they may be about different
things. A finding is told of, by itself or by an issue with its rule, description and line, exactly
if the first issue with its key says the same. Security issues always are.
-/

namespace ReviewDesk

open List

/-!
## What the stages write into their issues

Every rule for programs has one title. A title of a security rule stands for one rule and one
description, at least within a language. The rules of other stages differ in name or in what they
say.
-/

namespace Lint

def titles : List (String × String) :=
  [("high_complexity", "High Cyclomatic Complexity"), ("long_function", "Long Function"),
    ("too_many_params", "Too Many Parameters"), ("large_class", "Large Class"),
    ("long_parameter_list", "Long Parameter List"), ("unreachable_code", "Unreachable Code"),
    ("magic_number", "Magic Number"), ("missing_docstring", "Missing Docstring"),
    ("function_naming", "Naming Convention Violation"),
    ("mutable_default", "Mutable Default Argument"),
    ("missing_class_docstring", "Missing Class Docstring"),
    ("class_naming", "Class Naming Convention"), ("unused_variable", "Unused Variable"),
    ("none_comparison", "Incorrect None Comparison"), ("bare_except", "Bare Except Clause"),
    ("old_string_format", "Old-style String Formatting"),
    ("inefficient_loop", "Loop Could Be List Comprehension"),
    ("string_concat_loop", "String Concatenation in Loop"),
    ("global_usage", "Global Variable Usage"), ("eval_usage", "Dangerous eval() Usage"),
    ("exec_usage", "Dangerous exec() Usage"), ("hardcoded_credential", "Hardcoded Credential")]

/-- How a finding of one of the rules begins that other stages have too. -/
def Worded (ruleId description : String) : Prop :=
  (ruleId = "high_complexity" → ∃ rest, description = "Function '" ++ rest) ∧
    (ruleId = "eval_usage" →
      description = "eval() can execute arbitrary code and is a security risk")

open Source

variable (n : Node)

end Lint

/-! ## Security rules -/

namespace Security

variable {language : String}

/-- What an issue says, wherever it stands. -/
structure Form where
  title : String
  ruleId : String
  description : String
  deriving DecidableEq

def Issue.form (i : Issue) : Form := ⟨i.title, i.ruleId, i.description⟩

def Rule.form (r : Rule) : Form := ⟨r.title, r.id, r.description⟩

def programForms : List Form :=
  [⟨"Assert Statement in Production Code", "assert_in_production",
      "Assert statements are ignored when optimization is enabled"⟩,
    ⟨"Empty Exception Handler", "except_pass", "Empty except blocks can hide errors"⟩,
    ⟨"Subprocess with shell=True", "shell_true", "shell=True can lead to command injection"⟩]

def pathForms : List Form :=
  secretPatterns.map (fun p => ⟨p.2, "config_secrets",
    "Sensitive information should not be stored in config files"⟩) ++
  [⟨"Hardcoded Credentials in Tests", "test_credentials",
    "Test files should not contain real credentials"⟩] ++
  vulnerable.map fun p => ⟨s!"Vulnerable Dependency: {p.1}", "vulnerable_dependency",
    s!"Package {p.1} has known security vulnerabilities"⟩

/-- The forms of all issues that a file in a language can have. -/
def forms (language : String) : List Form :=
  (rulesFor language).map Rule.form ++ programForms ++ pathForms

def ruleIds : List String :=
  (pythonRules ++ scriptRules ++ javaRules).map Rule.id ++
    (programForms ++ pathForms).map Form.ruleId

end Security

namespace Analysis

/-! ## Issues of all kinds -/

/-- What an issue is about: a rule for programs, nested control flow, a text that is no program, a
security rule, the answer of a classifier, a reply, or a rule that was asked for. -/
inductive Kind where
  | program
  | nesting
  | unreadable
  | security
  | quality
  | reply
  | rule
  deriving DecidableEq

namespace Kind

def ruleIds : Kind → List String
  | program => Lint.titles.map (·.1)
  | nesting => ["high_complexity"]
  | unreadable => ["syntax_error"]
  | security => Security.ruleIds
  | quality => ["ml_quality_check"]
  | reply => ["ai_analysis"]
  | rule => ruleBook.map (·.1)

/-- The title and the category of all issues of a rule, where the rule decides them. -/
def heading? : Kind → String → Option (Value × Value)
  | program, ruleId => some (.text ((Lint.titles.lookup ruleId).getD ""), .text "code_quality")
  | nesting, _ => some (.text "High Cyclomatic Complexity", .text "maintainability")
  | unreadable, _ => some (.text "Syntax Error", .text "syntax")
  | rule, ruleId => some (.text s!"Rule Violation: {ruleId}", .text "style")
  | _, _ => none

/-- How issues are described whose rule is not of one kind only. -/
def Worded : Kind → String → Value → Prop
  | program, ruleId, description => ∃ s, description = .text s ∧ Lint.Worded ruleId s
  | nesting, _, description =>
    ∃ rest, description = .text ("Complex control flow detected (depth: " ++ rest)
  | security, ruleId, description =>
    ruleId = "eval_usage" → description = .text "eval() can execute arbitrary code"
  | _, _, _ => True

/-- A kind whose rules decide the headings shares no rule with others but two. -/
lemma eq_of_shared {k l : Kind} {ruleId : String} (hheading : (k.heading? ruleId).isSome = true)
    (hk : ruleId ∈ k.ruleIds) (hl : ruleId ∈ l.ruleIds) : k = l ∨
      ruleId = "high_complexity" ∧ (k = program ∧ l = nesting ∨ k = nesting ∧ l = program) ∨
      ruleId = "eval_usage" ∧ k = program ∧ l = security := by
  have hall : k ∉ [security, quality, reply] → k ≠ l → ∀ ruleId ∈ k.ruleIds, ruleId ∈ l.ruleIds →
      ruleId = "high_complexity" ∧ (k = program ∧ l = nesting ∨ k = nesting ∧ l = program) ∨
      ruleId = "eval_usage" ∧ k = program ∧ l = security := by
    cases k <;> cases l <;> decide +kernel
  have hdecides : k ∉ [security, quality, reply] := by
    intro hk
    fin_cases hk <;> cases hheading
  rcases eq_or_ne k l with heq | hne
  · exact .inl heq
  · exact .inr (hall hdecides hne ruleId hk hl)

end Kind

structure Core.From (c : Core) (k : Kind) (path : String) : Prop where
  ruleId : c.ruleId ∈ k.ruleIds
  path : c.path = .text path
  heading : ∀ h ∈ k.heading? c.ruleId, h = (c.title, c.category)
  worded : k.Worded c.ruleId c.description

def Issue.From (i : Issue) (k : Kind) (path : String) : Prop :=
  ∃ (c : Core) (more : Fields), i = c.issue more ∧ c.From k path

lemma same_text {s t : String} : Value.same (.text s) (.text t) = true ↔ s = t := by
  simp [Value.same]

lemma function_ne_complex (s t : String) :
    "Function '" ++ s ≠ "Complex control flow detected (depth: " ++ t := by
  intro h
  have hfirst := congrArg (fun text => text.toList.head?) h
  simp [String.toList_append] at hfirst

/-- Where the rule decides title and category, it does so among issues of all kinds if their
descriptions are the same. -/
lemma Core.From.heading_eq {c d : Core} {k l : Kind} {path : String} (hc : c.From k path)
    (hd : d.From l path) (hk : (k.heading? c.ruleId).isSome = true) (hrule : c.ruleId = d.ruleId)
    (hdescription : c.description.same d.description = true) :
    c.title = d.title ∧ c.category = d.category := by
  have hl := hd.ruleId
  rw [← hrule] at hl
  rcases Kind.eq_of_shared hk hc.ruleId hl with
    rfl | ⟨hid, ⟨rfl, rfl⟩ | ⟨rfl, rfl⟩⟩ | ⟨hid, rfl, rfl⟩
  · obtain ⟨h, hh⟩ := Option.isSome_iff_exists.mp hk
    have hsame := (hc.heading h hh).symm.trans (hd.heading h (hrule ▸ hh))
    exact ⟨congrArg Prod.fst hsame, congrArg Prod.snd hsame⟩
  · obtain ⟨s, hs, hworded⟩ := hc.worded
    obtain ⟨rest, rfl⟩ := hworded.1 hid
    obtain ⟨other, hother⟩ := hd.worded
    rw [hs, hother, same_text] at hdescription
    exact absurd hdescription (function_ne_complex rest other)
  · obtain ⟨other, hother⟩ := hc.worded
    obtain ⟨s, hs, hworded⟩ := hd.worded
    obtain ⟨rest, rfl⟩ := hworded.1 (hrule ▸ hid)
    rw [hs, hother, same_text] at hdescription
    exact absurd hdescription.symm (function_ne_complex rest other)
  · obtain ⟨s, hs, hworded⟩ := hc.worded
    rw [hs, hd.worded (hrule ▸ hid), same_text, hworded.2 hid] at hdescription
    exact absurd hdescription (by decide)

lemma mem_of_lookup {α : Type} {table : List (String × α)} {key : String} {a : α}
    (h : table.lookup key = some a) : key ∈ table.map (·.1) := by
  obtain ⟨before, after, rfl, _⟩ := lookup_eq_some_iff.mp h
  rw [map_append]
  exact mem_append_right _ (.head _)

section

variable (path : String)

end

end Analysis

namespace Analysis

open Value

variable (i : Issue) (tools : Tools) (path text : String) (rules : List String)

/-! ## Reports of a finding -/

def reportFields : List String := ["rule_id", "description", "line_start"]

/-- The issues have the same rule, description and line. -/
def Issue.SameReport (j : Issue) : Prop :=
  ∀ field ∈ reportFields, ∃ v w, i.find? field = some v ∧ j.find? field = some w ∧ v.same w = true

lemma same_int {m n : Int} : same (.int m) (.int n) = true ↔ m = n := by
  simp [same, number?, Value.Number.compare?]

section

variable {c d : Core} {more others : Fields}

lemma Core.sameReport_iff : (c.issue more).SameReport (d.issue others) ↔
      c.ruleId = d.ruleId ∧ c.description.same d.description = true ∧
        c.lineStart.same d.lineStart = true := by
  have hc : reportFields.map (c.issue more).find? =
      [some (.text c.ruleId), some c.description, some c.lineStart] := rfl
  have hd : reportFields.map (d.issue others).find? =
      [some (.text d.ruleId), some d.description, some d.lineStart] := rfl
  simp only [reportFields, map_cons, map_nil, List.cons.injEq, and_true] at hc hd
  simp [Issue.SameReport, reportFields, hc, hd, same]

lemma Core.sameKey_iff : (c.issue more).sameKey (d.issue others) = true ↔
      c.title.alike d.title = true ∧ c.path.alike d.path = true ∧
        c.lineStart.alike d.lineStart = true ∧ c.category.alike d.category = true := by
  have hc : keyFields.map (c.issue more).part = c.keyParts := rfl
  have hd : keyFields.map (d.issue others).part = d.keyParts := rfl
  rw [← Issue.sameList_parts, hc, hd]
  simp only [Core.keyParts, sameList_cons, Bool.and_eq_true]
  simp [sameList]

end

section

variable {issues : List Issue} {i j : Issue}

end

/-! ## Stages -/

def programFindings : List Issue :=
  programStage tools (.text path) text.toList (languageOf (.ofText path))

def securityFindings : List Issue :=
  securityStage (.ofText path) (.text path) text.toList (languageOf (.ofText path))

def replyFindings : List Issue :=
  (tools.chat.map (·.issues (.text path))).getD []

def ruleFindings : List Issue :=
  rules.flatMap (issuesOfRule (.text path) text.toList)

/-- The issues of all stages of an analysis, in order. -/
def stageIssues : List Issue :=
  programFindings tools path text ++ securityFindings path text ++
    qualityStage tools (.text path) text.toList ++ replyFindings tools path ++
    ruleFindings path text rules

lemma exists_reply {tools : Tools} {path : String} {i : Issue}
    (hi : i ∈ replyFindings tools path) : ∃ reply : Reply, i ∈ reply.issues (.text path) := by
  unfold replyFindings at hi
  cases hchat : tools.chat with
  | none => simp [hchat] at hi
  | some reply =>
    rw [hchat] at hi
    exact ⟨reply, hi⟩

lemma ruleStage_ofTexts : ruleStage (.text path) (.text text) (.ofTexts rules) =
      .ok (ruleFindings path text rules) := by
  cases rules with
  | nil => rfl
  | cons rule rules =>
    have hitems : ∀ v ∈ (rule :: rules).map Value.text,
        issuesOfRuleValue (.text path) (.text text) v =
          .ok (issuesOfRule (.text path) text.toList (v.text?.getD "")) := by
      intro v hv
      obtain ⟨r, _, rfl⟩ := mem_map.mp hv
      rfl
    show (do
      let found ← ((rule :: rules).map Value.text).mapM
        (issuesOfRuleValue (.text path) (.text text))
      return found.flatten : Outcome _) = _
    rw [Outcome.mapM_of_ok hitems, Outcome.bind_ok, map_map, ruleFindings, flatMap_def]
    rfl

section

variable (tools : Tools) (project : Project) (path text : String) (rules : List String)

lemma stageIssues_cases :
    ∀ i ∈ stageIssues tools path text rules, i.Found ∨ i ∈ replyFindings tools path := by
  intro i hi
  rcases mem_append.mp hi with hi | hi
  · rcases mem_append.mp hi with hi | hi
    · exact .inl (found_ownIssues tools path text i hi)
    · exact .inr hi
  · obtain ⟨rule, _, hi⟩ := mem_flatMap.mp hi
    exact .inl (foundIn_rule path text.toList rule i hi).1

lemma reported_stageIssues : ∀ i ∈ stageIssues tools path text rules, i.Reported := by
  intro i hi
  rcases stageIssues_cases tools path text rules i hi with hfound | hreply
  · exact hfound.reported
  · obtain ⟨reply, hreply⟩ := exists_reply hreply
    exact reply.reported (.text path) i hreply

lemma keyed_stageIssues_iff : (∀ i ∈ stageIssues tools path text rules, i.Keyed) ↔
      ∀ i ∈ replyFindings tools path, i.Keyed := by
  constructor
  · intro h i hi
    exact h i (mem_append_left _ (mem_append_right _ hi))
  · intro h i hi
    rcases stageIssues_cases tools path text rules i hi with hfound | hreply
    · exact hfound.keyed
    · exact h i hreply

/-- What is reported of a file: the first issues of each key, if all keys can be made. -/
lemma mem_analyze {j : Issue} :
    j ∈ (analyze tools project (.text path) (.text text) (.ofTexts rules)).1 ↔
      isCodeFile (.ofText path) text.toList = true ∧ (∀ k ∈ replyFindings tools path, k.Keyed) ∧
          j ∈ firsts (stageIssues tools path text rules) := by
  have hreported := reported_stageIssues tools path text rules
  rw [← keyed_stageIssues_iff tools path text rules]
  by_cases hcode : isCodeFile (.ofText path) text.toList = true
  · rw [analyze_of_rules tools project hcode (ruleStage_ofTexts path text rules)]
    show j ∈ ranked (stageIssues tools path text rules) ↔ _
    constructor
    · intro hj
      have hkeyed := keyed_of_ranked hreported (ne_nil_of_mem hj)
      exact ⟨hcode, hkeyed, (mem_ranked hreported hkeyed).mp hj⟩
    · rintro ⟨_, hkeyed, hj⟩
      exact (mem_ranked hreported hkeyed).mpr hj
  · rw [analyze, analyzeText_fst, if_neg hcode]
    simp [hcode]

end

/-! ## What a rule decides -/

/-- The rule of the issue decides its title and its category. -/
def Issue.Decided : Prop :=
  ∃ (c : Core) (more : Fields) (k : Kind), i = c.issue more ∧ c.From k path ∧
    (k.heading? c.ruleId).isSome = true

lemma Issue.Decided.sameKey {i j : Issue} {k : Kind} {path : String} (hi : i.Decided path)
    (hkeyed : i.Keyed) (hj : j.From k path) (h : i.SameReport j) : j.sameKey i = true := by
  obtain ⟨c, more, l, rfl, hc, hheading⟩ := hi
  obtain ⟨d, others, rfl, hd⟩ := hj
  obtain ⟨hrule, hdescription, hline⟩ := Core.sameReport_iff.mp h
  obtain ⟨htitle, hcategory⟩ := hc.heading_eq hd hheading hrule hdescription
  have hatom {v : Value} (hv : v ∈ c.keyParts) : v.IsAtom :=
    ⟨(Core.keyed_issue_iff.mp hkeyed v hv).1, (Core.keyed_issue_iff.mp hkeyed v hv).2⟩
  rw [Core.sameKey_iff, ← htitle, ← hcategory, hd.path, ← hc.path]
  refine ⟨(hatom ?_).alike_self, (hatom ?_).alike_self, (hatom ?_).alike_symm ?_,
    (hatom ?_).alike_self⟩
  · simp [Core.keyParts]
  · simp [Core.keyParts]
  · simp [Core.keyParts]
  · rw [alike, hline, Bool.true_or]
  · simp [Core.keyParts]

section

variable (tools : Tools) (project : Project) (path text : String) (rules : List String)
variable {i j : Issue}

/-- The findings that are judged: of the rules for programs and for security, and of the rules that
were asked for. -/
def findings (tools : Tools) (path text : String) (rules : List String) : List Issue :=
  programFindings tools path text ++ securityFindings path text ++ ruleFindings path text rules

end

/-! ## Two numbers on a line -/

open List Outcome

section

variable {j : Issue} {earlier issues more : List Issue}

lemma firstsAfter_append (earlier issues more : List Issue) :
    firstsAfter earlier (issues ++ more) =
      firstsAfter earlier issues ++ firstsAfter (earlier ++ issues) more := by
  induction issues generalizing earlier with
  | nil => rw [append_nil]; rfl
  | cons i issues ih =>
    rw [cons_append, firstsAfter_cons, firstsAfter_cons, ih,
      append_cons earlier i issues]
    split <;> rfl

lemma mem_firstsAfter :
    j ∈ firstsAfter earlier issues ↔ j ∈ firsts issues ∧ ∀ k ∈ earlier, k.sameKey j = false := by
  simp only [firstsAfter, firsts, mem_map, mem_filter, all_append, Bool.and_eq_true,
    all_eq_true, Bool.not_eq_true']
  constructor
  · rintro ⟨p, ⟨hp, hearlier, hissues⟩, rfl⟩
    exact ⟨⟨p, ⟨hp, hissues⟩, rfl⟩, hearlier⟩
  · rintro ⟨⟨p, ⟨hp, hissues⟩, rfl⟩, hearlier⟩
    exact ⟨p, ⟨hp, hearlier, hissues⟩, rfl⟩

lemma mem_firsts_append : j ∈ firsts (issues ++ more) ↔
      j ∈ firsts issues ∨ j ∈ firsts more ∧ ∀ k ∈ issues, k.sameKey j = false := by
  rw [firsts_eq, firstsAfter_append, mem_append, nil_append, ← firsts_eq, mem_firstsAfter]

lemma sublist_insertByPriority {x : Priority × Issue} {ys zs : List (Priority × Issue)}
    (h : insertByPriority x ys = .ok zs) : ys.Sublist zs := by
  induction ys generalizing zs with
  | nil => exact nil_sublist zs
  | cons y ys ih =>
    obtain ⟨t, _, h⟩ := bind_eq_ok h
    cases t with
    | true =>
      cases h
      exact sublist_cons_self x (y :: ys)
    | false =>
      obtain ⟨rest, hrest, h⟩ := bind_eq_ok h
      cases h
      exact (ih hrest).cons_cons y

/-- Issues that come later leave the order of those before them as it is. -/
lemma prioritize_append {sorted result : List Issue} (h : prioritize issues = .ok sorted)
    (hresult : prioritize (issues ++ more) = .ok result) : sorted.Sublist result := by
  obtain ⟨keyed, hkeyed, h⟩ := bind_eq_ok h
  obtain ⟨acc, hacc, h⟩ := bind_eq_ok h
  cases h
  obtain ⟨all, hall, hresult⟩ := bind_eq_ok hresult
  obtain ⟨acc', hacc', hresult⟩ := bind_eq_ok hresult
  cases hresult
  rw [mapM_append, hkeyed, bind_ok] at hall
  obtain ⟨late, _, hall⟩ := bind_eq_ok hall
  cases hall
  rw [foldlM_append, hacc, bind_ok] at hacc'
  refine (foldlM_keeps (P := acc.Sublist) hacc' (.refl acc) ?_).map (·.2)
  intro x _ before after hbefore hafter
  exact hbefore.trans (sublist_insertByPriority hafter)

end

/-! ## What the rules are about -/

section

variable {tools : Tools} {path text rule other : String} {i j : Issue}
variable {rules : List String}

lemma sameKey_texts {field s t : String} (hfield : field ∈ keyFields)
    (hi : i.part field = .text s) (hj : j.part field = .text t) (h : i.sameKey j = true) :
    s = t := by
  have hparts := all_eq_true.mp h field hfield
  rw [hi, hj] at hparts
  simpa [alike, same, isNaN] using hparts

lemma heading_of_rule (hi : i ∈ issuesOfRule (.text path) text.toList rule) :
    i.part "title" = .text ("Rule Violation: " ++ rule) ∧ i.part "category" = .text "style" := by
  obtain ⟨⟨shown, p⟩, _, hi⟩ := mem_flatMap.mp hi
  obtain ⟨m, _, rfl⟩ := mem_map.mp hi
  exact ⟨rfl, rfl⟩

lemma known_of_mem (hi : i ∈ issuesOfRule (.text path) text.toList rule) :
    rule ∈ ruleBook.map (·.1) := by
  cases hlookup : ruleBook.lookup rule with
  | none => simp [issuesOfRule, hlookup] at hi
  | some patterns => exact mem_of_lookup hlookup

lemma rules_apart (hne : rule ≠ other) (hi : i ∈ issuesOfRule (.text path) text.toList rule)
    (hj : j ∈ issuesOfRule (.text path) text.toList other) : i.sameKey j = false := by
  rw [Bool.eq_false_iff]
  intro hsame
  have htitle := sameKey_texts (by decide) (heading_of_rule hi).1 (heading_of_rule hj).1 hsame
  exact hne (by simpa using htitle)

lemma category_of_own (hi : i ∈ ownIssues tools path text) :
    ∃ category, category ≠ "style" ∧ i.part "category" = .text category := by
  simp only [ownIssues, mem_append] at hi
  rcases hi with (hi | hi) | hi
  · rcases programStage_cases hi with ⟨_, f, _, rfl⟩ | ⟨_, _, _, rfl⟩ | ⟨_, rfl⟩
    · exact ⟨"code_quality", by decide, rfl⟩
    · exact ⟨"maintainability", by decide, rfl⟩
    · exact ⟨"syntax", by decide, rfl⟩
  · obtain ⟨f, _, rfl⟩ := mem_map.mp hi
    exact ⟨"security", by decide, rfl⟩
  · obtain ⟨n, a, h⟩ := exists_qualityIssue? hi
    obtain ⟨label, score, _, rfl⟩ := qualityIssue?_cases h
    exact ⟨"code_quality", by decide, rfl⟩

lemma own_apart (hi : i ∈ ownIssues tools path text)
    (hj : j ∈ issuesOfRule (.text path) text.toList rule) : i.sameKey j = false := by
  obtain ⟨category, hne, hcategory⟩ := category_of_own hi
  rw [Bool.eq_false_iff]
  intro hsame
  exact hne (sameKey_texts (by decide) hcategory (heading_of_rule hj).2 hsame)

lemma mem_firsts_rules : j ∈ firsts (ruleFindings path text rules) ↔
      ∃ rule ∈ rules, j ∈ firsts (issuesOfRule (.text path) text.toList rule) := by
  induction rules with
  | nil => simp [ruleFindings, firsts]
  | cons rule rules ih =>
    have hcons : ruleFindings path text (rule :: rules) =
        issuesOfRule (.text path) text.toList rule ++ ruleFindings path text rules := rfl
    simp only [hcons, mem_firsts_append, ih, mem_cons, exists_eq_or_imp]
    constructor
    · rintro (hj | ⟨hj, _⟩)
      · exact .inl hj
      · exact .inr hj
    · rintro (hj | ⟨other, hother, hj⟩)
      · exact .inl hj
      · by_cases hsame : rule = other
        · exact .inl (hsame ▸ hj)
        · refine .inr ⟨⟨other, hother, hj⟩, fun k hk => rules_apart hsame hk ?_⟩
          exact (firsts_sublist _).subset hj

lemma stageIssues_of_no_chat (hchat : tools.chat = none) (rules : List String) :
    stageIssues tools path text rules =
      ownIssues tools path text ++ ruleFindings path text rules := by
  have hreply : replyFindings tools path = [] := by rw [replyFindings, hchat]; rfl
  rw [stageIssues, hreply, append_nil]
  rfl

/-- What stays of the issues of all stages is what stays of each rule by itself. -/
lemma mem_firsts_stages (hchat : tools.chat = none) :
    j ∈ firsts (stageIssues tools path text rules) ↔ j ∈ firsts (ownIssues tools path text) ∨
        ∃ rule ∈ rules, j ∈ firsts (issuesOfRule (.text path) text.toList rule) := by
  rw [stageIssues_of_no_chat hchat, mem_firsts_append, mem_firsts_rules]
  constructor
  · rintro (hj | ⟨hj, _⟩)
    · exact .inl hj
    · exact .inr hj
  · rintro (hj | ⟨rule, hrule, hj⟩)
    · exact .inl hj
    · exact .inr ⟨⟨rule, hrule, hj⟩, fun k hk => own_apart hk ((firsts_sublist _).subset hj)⟩

end

/-! ## What is reported -/

lemma ranked_append {issues more : List Issue} (h : ∀ i ∈ issues ++ more, i.Found) :
    (ranked issues).Sublist (ranked (issues ++ more)) := by
  have hissues : ∀ i ∈ issues, i.Found := fun i hi => h i (mem_append_left more hi)
  have hsorted := (ranked_eq (fun i hi => (hissues i hi).reported)
    fun i hi => (hissues i hi).keyed).1
  have hresult := (ranked_eq (fun i hi => (h i hi).reported) fun i hi => (h i hi).keyed).1
  rw [firsts_eq, firstsAfter_append, nil_append] at hresult
  exact prioritize_append hsorted hresult

/-- Without a chat client, what is reported is decided by the rules in the book that are asked for,
whatever else is asked for, how often and in which order; and what is reported without any rules is
reported with them too, in the same order. -/
theorem reported_by_known_rules (tools : Tools) (project : Project) (path text : String)
    (hchat : tools.chat = none) : (∀ rules rules' : List String,
      (∀ rule ∈ ruleBook.map (·.1), rule ∈ rules ↔ rule ∈ rules') → ∀ i,
        i ∈ (analyze tools project (.text path) (.text text) (.ofTexts rules)).1 ↔
          i ∈ (analyze tools project (.text path) (.text text) (.ofTexts rules')).1) ∧
    ∀ rules : List String, (analyze tools project (.text path) (.text text) (.ofTexts [])).1.Sublist
        (analyze tools project (.text path) (.text text) (.ofTexts rules)).1 := by
  constructor
  · intro rules rules' hknown i
    have hrules : (∃ rule ∈ rules, i ∈ firsts (issuesOfRule (.text path) text.toList rule)) ↔
        ∃ rule ∈ rules', i ∈ firsts (issuesOfRule (.text path) text.toList rule) := by
      refine exists_congr fun rule => and_congr_left fun hi => hknown rule ?_
      exact known_of_mem ((firsts_sublist _).subset hi)
    rw [mem_analyze, mem_analyze, mem_firsts_stages hchat, mem_firsts_stages hchat, hrules]
  · intro rules
    by_cases hcode : isCodeFile (.ofText path) text.toList = true
    · have hreported (rules : List String) :
          (analyze tools project (.text path) (.text text) (.ofTexts rules)).1 =
            ranked (ownIssues tools path text ++ ruleFindings path text rules) := by
        rw [analyze_of_rules tools project hcode (ruleStage_ofTexts path text rules), hchat,
          Option.map_none, Option.getD_none, append_nil]
      have hnone : ruleFindings path text [] = [] := rfl
      rw [hreported [], hreported rules, hnone, append_nil]
      refine ranked_append fun i hi => ?_
      rw [← stageIssues_of_no_chat hchat] at hi
      rcases stageIssues_cases tools path text rules i hi with hfound | hreply
      · exact hfound
      · rw [replyFindings, hchat] at hreply
        cases hreply
    · rw [analyze, analyzeText_fst, if_neg hcode]
      exact nil_sublist _

/-- The same two rules, asked for in another order, twice, and with one that is not in the book. -/
theorem unknown_rule_reports_nothing :
    (ruleFindings "a.js" "print(1) // TODO" ["no_debug_prints", "no_todo_comments"]).length = 2 ∧
      ∀ i, i ∈ (analyze {} ⟨.null, .null, .null⟩ (.text "a.js") (.text "print(1) // TODO")
          (.ofTexts ["no_debug_prints", "no_todo_comments"])).1 ↔
        i ∈ (analyze {} ⟨.null, .null, .null⟩ (.text "a.js") (.text "print(1) // TODO")
          (.ofTexts ["no_todo_comments", "tabs", "no_debug_prints", "no_todo_comments"])).1 :=
  ⟨by decide +kernel,
    (reported_by_known_rules {} _ "a.js" "print(1) // TODO" rfl).1 _ _ (by decide +kernel)⟩

end Analysis

end ReviewDesk
