import Scorecard.Rubric.Basic
import Scorecard.Rule.Registry

/-!
# Issues of rubrics

A rubric may contradict itself or the rules it names. `Rubric.issues` lists everything that is
wrong with it, criterion by criterion, then overrides, weights and the total.

* `isCriterionId`: the form of a criterion's id.
-/

namespace Scorecard

/-- Something that is wrong with a rubric. -/
inductive RubricIssue
  | emptyRubric
  | invalidCriterionId (id : String)
  | duplicateCriterion (id : String)
  | unknownRule (criterion rule : String)
  | nonPositivePoints (criterion : String) (points : Float)
  | unknownDimension (name : String)
  | weightMismatch (dimension : Dimension) (declared derived : Float)
  | totalMismatch (expected actual : Float)
  | overrideForUnknownCriterion (language criterion : String)
  /-- A rule does not take the parameters, by default or for a language. -/
  | invalidParams (criterion : String) (language : Option String) (reason : String)
  deriving DecidableEq

namespace RubricIssue

/-- The wording of an issue. -/
def message : RubricIssue → String
  | emptyRubric => "rubric defines no criteria"
  | invalidCriterionId id =>
    "criterion id " ++ Text.quote id ++ " must match [a-z0-9][a-z0-9_-]*"
  | duplicateCriterion id => "criterion id " ++ Text.quote id ++ " is defined more than once"
  | unknownRule criterion rule =>
    "criterion " ++ Text.quote criterion ++ " references unknown rule " ++ Text.quote rule
  | nonPositivePoints criterion points =>
    "criterion " ++ Text.quote criterion ++ " has non-positive max_points "
      ++ Decimal.plain points
  | unknownDimension name => "dimension table names unknown dimension " ++ Text.quote name
  | weightMismatch dimension declared derived =>
    "dimension " ++ dimension.label ++ " declares weight " ++ Decimal.plain declared
      ++ " but its criteria sum to " ++ Decimal.plain derived
  | totalMismatch expected actual =>
    "criteria max_points sum to " ++ Decimal.plain actual ++ ", expected "
      ++ Decimal.plain expected
  | overrideForUnknownCriterion language criterion =>
    "override for language " ++ Text.quote language ++ " references unknown criterion "
      ++ Text.quote criterion
  | invalidParams criterion language reason =>
    "criterion " ++ Text.quote criterion
      ++ (match language with
        | some l => " (language " ++ l ++ ")"
        | none => "")
      ++ " has invalid params: " ++ reason

end RubricIssue

/-! ### The form of an id -/

/-- Whether the character may start an id. -/
def isIdStart (c : Char) : Bool := ('a' ≤ c && c ≤ 'z') || ('0' ≤ c && c ≤ '9')

/-- Whether the character may stand in an id. -/
def isIdChar (c : Char) : Bool := isIdStart c || c == '_' || c == '-'

/-- Whether the text is an id: small letters, digits, underscores and hyphens, the first one a
letter or a digit. -/
def isCriterionId (id : String) : Bool :=
  match id.toList with
  | [] => false
  | c :: rest => isIdStart c && rest.all isIdChar

/-! ### Criteria -/

namespace Criterion

/-- The issue of an error of the criterion's rule. -/
def paramsIssue (c : Criterion) (language : Option String) :
    Except RuleError Unit → List RubricIssue
  | .ok () => []
  | .error e => [.invalidParams c.id language e.message]

/-- The issues of the parameters, by default and for each language with overrides. -/
def paramsIssues (c : Criterion) (rule : Rule) : List RubricIssue :=
  c.paramsIssue none (rule.validate c.params)
    ++ c.overrides.keys.flatMap fun language =>
      c.paramsIssue (some language) (rule.validate (c.effectiveParams language))

/-- The issues of the rule and its parameters. -/
def ruleIssues (c : Criterion) (registry : Registry) : List RubricIssue :=
  match registry.get? c.rule with
  | none => [.unknownRule c.id c.rule]
  | some rule => c.paramsIssues rule

/-- The issues of a criterion that follows some others with the ids `earlier`. -/
def issues (c : Criterion) (registry : Registry) (earlier : List String) : List RubricIssue :=
  (if isCriterionId c.id then [] else [.invalidCriterionId c.id])
    ++ (if c.id ∈ earlier then [.duplicateCriterion c.id] else [])
    ++ (if c.maxPoints.isFinite && decide (0 < c.maxPoints) then []
      else [.nonPositivePoints c.id c.maxPoints])
    ++ c.ruleIssues registry

end Criterion

/-- The issues of criteria that follow some others. -/
def criteriaIssues (registry : Registry) (earlier : List String) :
    List Criterion → List RubricIssue
  | [] => []
  | c :: rest => c.issues registry earlier ++ criteriaIssues registry (c.id :: earlier) rest

namespace Rubric

/-- The issue of a declared weight, if it has one. -/
def weightIssues (r : Rubric) (name : String) (declared : Float) : List RubricIssue :=
  match Dimension.ofKey? name with
  | none => [.unknownDimension name]
  | some d =>
    if Points.same declared (r.weight d) then [] else [.weightMismatch d declared (r.weight d)]

/-- The issue of the total, which is not looked at where there are no criteria. -/
def totalIssues (r : Rubric) : List RubricIssue :=
  if r.criteria.isEmpty || Points.same r.totalPoints fullPoints then []
  else [.totalMismatch fullPoints r.totalPoints]

/-- Everything that is wrong with a rubric. -/
def issues (r : Rubric) (registry : Registry) : List RubricIssue :=
  (if r.criteria.isEmpty then [.emptyRubric] else [])
    ++ criteriaIssues registry [] r.criteria
    ++ r.danglingOverrides.map (fun (language, id) => .overrideForUnknownCriterion language id)
    ++ r.declaredWeights.entries.flatMap (fun (name, declared) => r.weightIssues name declared)
    ++ r.totalIssues

end Rubric

end Scorecard
