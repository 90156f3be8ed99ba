import ReviewDesk.Severity
import ReviewDesk.Value.Basic

/-!
# Issues and scores
-/

namespace ReviewDesk.Analysis

/-!
## Issues of a review

An issue is an open record: the reply of a chat client can fill its fields with any values.
-/

structure Issue where
  fields : Fields
  /-- The severity is a `Severity`, and not just a text or another value. -/
  graded : Bool := true
  deriving Inhabited

namespace Issue

def report (i : Issue) : Value := .object i.fields

def get (i : Issue) (key : String) : Outcome Value := i.report.item key

def find? (i : Issue) (key : String) : Option Value := Fields.get? i.fields key

def has (i : Issue) (key : String) (v : Value) : Outcome Bool := do return (← i.get key).same v

end Issue

structure Core where
  title : Value
  description : Value
  category : Value
  severity : Severity
  ruleId : String
  path : Value
  lineStart : Value
  confidence : Value

/-- An issue with the core fields and those that only some stages know. -/
def Core.issue (c : Core) (more : Fields) : Issue :=
  { fields := [("title", c.title), ("description", c.description), ("category", c.category),
      ("severity", .text c.severity.name), ("rule_id", .text c.ruleId), ("file_path", c.path),
      ("line_start", c.lineStart), ("confidence_score", c.confidence)] ++ more }

def countIssues (test : Issue → Outcome Bool) (issues : List Issue) : Outcome Nat := do
  return (← issues.mapM test).countP id

def countSeverity (s : Severity) (issues : List Issue) : Outcome Nat :=
  countIssues (·.has "severity" (.text s.name)) issues

def countCategory (category : String) (issues : List Issue) : Outcome Nat :=
  countIssues (·.has "category" (.text category)) issues

/-! ## Summaries and recommendations -/

def riskLevel (critical high : Nat) : String :=
  if 0 < critical then "High" else if 5 < high then "Medium" else "Low"

def assessment (total : Nat) : String :=
  if 10 < total then "Needs Improvement" else if 3 < total then "Good" else "Excellent"

def summaryText (repository files : Value) (issues : List Issue) : Outcome String := do
  let critical ← countSeverity .critical issues
  let high ← countSeverity .high issues
  let total := issues.length
  let security ← countCategory "security" issues
  let performance ← countCategory "performance" issues
  let name := repository.plain
  let fileCount := files.plain
  let risk := riskLevel critical high
  let verdict := assessment total
  return "\n".intercalate
    ["", s!"Code Review Summary for {name}", "", "Executive Summary:",
     s!"Analyzed {fileCount} files and found {total} issues. Risk level: {risk}.", "",
     "Key Findings:", s!"• {critical} critical issues requiring immediate attention",
     s!"• {high} high-priority issues affecting code quality",
     s!"• {security} security-related concerns",
     s!"• {performance} performance optimization opportunities", "", "Recommended Actions:",
     "1. Address all critical and high-severity issues first",
     "2. Review security vulnerabilities immediately",
     "3. Consider refactoring for maintainability improvements",
     "4. Implement automated testing for quality assurance", "", s!"Overall Assessment: {verdict}",
     ""]

def summary (repository files : Value) (issues : List Issue) : Outcome Fields := do
  let text ← summaryText repository files issues
  return [("summary", .text text), ("generated_by", .text "fallback"),
          ("model", .text "rule_based")]

structure Recommendation where
  category : String
  priority : String
  title : String
  description : String
  actions : List String

def Recommendation.report (r : Recommendation) : Value :=
  .object [("category", .text r.category), ("priority", .text r.priority), ("title", .text r.title),
    ("description", .text r.description), ("action_items", .ofTexts r.actions)]

variable (issues : List Issue)

def recommendations : Outcome (List Recommendation) := do
  let security ← countCategory "security" issues
  let performance ← countCategory "performance" issues
  let quality ← countCategory "code_quality" issues
  return (if 0 < security then
      [⟨"security", "high", "Address Security Vulnerabilities",
        s!"Found {security} security issues that need immediate attention.",
        ["Review and fix all security vulnerabilities",
         "Implement input validation and sanitization", "Add security testing to CI/CD pipeline",
         "Consider security code review training for team"]⟩]
    else []) ++
    (if 0 < performance then
      [⟨"performance", "medium", "Optimize Performance",
        s!"Identified {performance} performance optimization opportunities.",
        ["Profile application performance", "Optimize database queries and API calls",
          "Implement caching strategies", "Consider code splitting and lazy loading"]⟩]
    else []) ++
    (if 0 < quality then
      [⟨"quality", "medium", "Improve Code Quality",
        s!"Found {quality} code quality issues affecting maintainability.",
        ["Refactor complex functions and classes", "Add comprehensive unit tests",
         "Improve code documentation", "Establish coding standards and linting rules"]⟩]
    else [])

def topLine (number : Nat) (i : Issue) : Outcome String := do
  let title := (← i.get "title").plain
  let severity ← i.get "severity"
  if !i.graded then
    throw (.noAttribute s!"'{severity.kindName}' object has no attribute 'value'")
  let grade := severity.plain
  let path := (← i.get "file_path").plain
  let line := (← i.get "line_start").plain
  return s!"{number}. {title} ({grade}) - {path}:{line}"

def topIssues : Outcome String := do
  let lines ← issues.zipIdx.mapM fun (i, n) => topLine (n + 1) i
  return "\n".intercalate lines

/-!
## Scores

A review has four scores from 0 to 10. Each starts at 10 and loses points for the issues found,
spread over the files. The formulas are written over any kind of numbers: the program computes them
with floating-point ones.
-/

structure Counts where
  total : Nat
  critical : Nat
  high : Nat
  medium : Nat
  low : Nat
  security : Nat
  performance : Nat
  maintainability : Nat
  deriving DecidableEq, Repr

def Counts.of : Outcome Counts := do
  let critical ← countSeverity .critical issues
  let high ← countSeverity .high issues
  let medium ← countSeverity .medium issues
  let low ← countSeverity .low issues
  let security ← countCategory "security" issues
  let performance ← countCategory "performance" issues
  let maintainability ← countCategory "maintainability" issues
  return { total := issues.length, critical, high, medium, low, security, performance,
           maintainability }

/-! ## Penalties, in halves of a point -/

def Counts.codePenalty (c : Counts) : Nat := 6 * c.critical + 4 * c.high + 2 * c.medium + c.low

def Counts.securityPenalty (c : Counts) : Nat := 4 * c.security

def Counts.maintainabilityPenalty (c : Counts) : Nat := 3 * c.maintainability + 4 * c.critical

def Counts.performancePenalty (c : Counts) : Nat := 3 * c.performance

structure Arithmetic (K : Type) where
  ofNat : Nat → K
  sub : K → K → K
  div : K → K → K
  clamp : K → K
  atLeastOne : K → K
  rounded : K → K

/-- What is left of ten points after a penalty, spread over the files. -/
def score {K : Type} (A : Arithmetic K) (halves : Nat) (files : K) : K :=
  A.clamp (A.sub (A.ofNat 10) (A.div (A.div (A.ofNat halves) (A.ofNat 2)) (A.atLeastOne files)))

def floatArithmetic : Arithmetic Float where
  ofNat := Nat.toFloat
  sub a b := a - b
  div a b := a / b
  clamp a := if 0 < a then a else 0
  atLeastOne a := if a < 1 then 1 else a
  rounded a := Decimal.roundPlaces a 2

structure Scores (K : Type) where
  code : K
  security : K
  maintainability : K
  performance : K

def Counts.scores {K : Type} (A : Arithmetic K) (c : Counts) (files : K) : Scores K :=
  { code := score A c.codePenalty files
    security := score A c.securityPenalty files
    maintainability := score A c.maintainabilityPenalty files
    performance := score A c.performancePenalty files }

/-! ## Reports -/

/-- A score with two places; a score that is used up is the whole number zero. -/
def scoreValue (x : Float) : Value := if 0 < x then .real (floatArithmetic.rounded x) else .int 0

def metricsFields (c : Counts) (s : Scores Float) : Fields :=
  [("code_quality_score", scoreValue s.code), ("security_score", scoreValue s.security),
   ("maintainability_score", scoreValue s.maintainability),
   ("performance_score", scoreValue s.performance), ("total_issues", .ofNat c.total),
   ("critical_issues", .ofNat c.critical), ("high_issues", .ofNat c.high),
   ("medium_issues", .ofNat c.medium), ("low_issues", .ofNat c.low),
   ("security_issues", .ofNat c.security), ("performance_issues", .ofNat c.performance),
   ("maintainability_issues", .ofNat c.maintainability)]

def filesNumber (files : Value) : Outcome Float :=
  match files.number? with
  | some n =>
    let x := n.toFloat
    match n with
    | .whole _ => if x.isInf then .error (.tooLarge "too large for a real number") else .ok x
    | .real _ => .ok x
  | none => .error (.mistyped "the number of files is no number")

/-- Scores in the middle, for issues that cannot be counted. -/
def neutralFields (total : Nat) : Fields :=
  [("code_quality_score", .real 5), ("security_score", .real 5), ("maintainability_score", .real 5),
    ("performance_score", .real 5), ("total_issues", .ofNat total)]

def qualityMetrics (files : Value) : Fields :=
  match (do
    let counts ← Counts.of issues
    let n ← filesNumber files
    return metricsFields counts (counts.scores floatArithmetic n) : Outcome Fields) with
  | .ok fields => fields
  | .error _ => neutralFields issues.length

end ReviewDesk.Analysis
