import Scorecard.Score.Summary
import Scorecard.Outcome
import Scorecard.Evidence.Manifest
import Scorecard.Rubric.Basic
import Scorecard.Text.Quoted
import Scorecard.Journal.Basic

/-!
# Publishing scores

An outcome is first checked against its rubric. Then the references to evidence are reconciled
with the manifest: only what the manifest has is published, and what is dropped becomes a
warning. The points do not depend on the manifest.

* `Rubric.outcomeError?`: the first thing wrong with an outcome.
* `Outcome.paths`, `Outcome.dropped`: the references kept and dropped.
* `Rubric.publish`: the score.
-/

namespace Scorecard

/-- What is wrong with an outcome. -/
inductive PublishError
  | countMismatch (expected actual : Nat)
  | orderMismatch (position : Nat) (expected actual : String)
  | maxPointsMismatch (criterion : String) (expected actual : Float)
  | dimensionMismatch (criterion : String) (expected actual : Dimension)
  | inconsistentScore (criterion : String) (status : Status) (score maxPoints : Float)
  | totalMismatch (reported computed : Float)
  | maxScoreMismatch (reported expected : Float)
  /-- The rubric's points do not add up to the full points. -/
  | rubricTotal (total expected : Float)
  deriving DecidableEq

/-- The wording of an error. -/
def PublishError.message : PublishError → String
  | countMismatch expected actual =>
    "outcome has " ++ toString actual ++ " criteria, rubric has " ++ toString expected
  | orderMismatch position expected actual =>
    "outcome position " ++ toString position ++ " is " ++ Text.quote actual
      ++ ", rubric expects " ++ Text.quote expected
  | maxPointsMismatch criterion expected actual =>
    "criterion " ++ Text.quote criterion ++ " reports max " ++ Decimal.plain actual
      ++ ", rubric says " ++ Decimal.plain expected
  | dimensionMismatch criterion expected actual =>
    "criterion " ++ Text.quote criterion ++ " reports dimension " ++ actual.label
      ++ ", rubric says " ++ expected.label
  | inconsistentScore criterion status score maxPoints =>
    "criterion " ++ Text.quote criterion ++ " has score " ++ Decimal.plain score
      ++ " for status " ++ status.name ++ " (max " ++ Decimal.plain maxPoints ++ ")"
  | totalMismatch reported computed =>
    "outcome total " ++ Decimal.plain reported ++ " differs from the sum of criterion scores "
      ++ Decimal.plain computed
  | maxScoreMismatch reported expected =>
    "outcome max " ++ Decimal.plain reported ++ " differs from the rubric total "
      ++ Decimal.plain expected
  | rubricTotal total expected =>
    "rubric totals " ++ Decimal.plain total ++ " points; scores are only published out of "
      ++ Decimal.plain expected

/-! ### Checking -/

/-- The first thing wrong with the outcome for one criterion. -/
def CriterionOutcome.error? (position : Nat) (expected : Criterion) (actual : CriterionOutcome) :
    Option PublishError :=
  if expected.id ≠ actual.criterionId then
    some (.orderMismatch position expected.id actual.criterionId)
  else if expected.dimension ≠ actual.dimension then
    some (.dimensionMismatch actual.criterionId expected.dimension actual.dimension)
  else if !Points.same expected.maxPoints actual.maxPoints then
    some (.maxPointsMismatch actual.criterionId expected.maxPoints actual.maxPoints)
  else if !actual.isConsistent then
    some (.inconsistentScore actual.criterionId actual.status actual.score actual.maxPoints)
  else none

/-- The first thing wrong with outcomes that stand from a position on. -/
def criteriaError? (position : Nat) :
    List Criterion → List CriterionOutcome → Option PublishError
  | expected :: es, actual :: as =>
    actual.error? position expected <|> criteriaError? (position + 1) es as
  | _, _ => none

/-- The first thing wrong with an outcome. -/
def Rubric.outcomeError? (r : Rubric) (o : Outcome) : Option PublishError :=
  let total := r.totalPoints
  let computed := Points.total (o.criteria.map (·.score))
  if !Points.same total Rubric.fullPoints then some (.rubricTotal total Rubric.fullPoints)
  else if o.criteria.length ≠ r.criteria.length then
    some (.countMismatch r.criteria.length o.criteria.length)
  else criteriaError? 0 r.criteria o.criteria
    <|> if !Points.same computed o.totalScore then some (.totalMismatch o.totalScore computed)
      else if !Points.same total o.maxScore then some (.maxScoreMismatch o.maxScore total)
      else none

/-! ### Points by dimension -/

/-- Adds the outcome for a criterion to the points of its dimension. -/
def Breakdown.collect (t : Table Dimension Breakdown) (c : CriterionOutcome) :
    Table Dimension Breakdown :=
  t.insert c.dimension
    (((t.get? c.dimension).getD (.empty 0)).record c.criterionId c.status c.score)

/-- The points by dimension. -/
def Rubric.breakdowns (r : Rubric) (o : Outcome) : Table Dimension Breakdown :=
  let start := Table.ofList (r.dimensions.map fun d => (d, Breakdown.empty (r.weight d)))
  (o.criteria.foldl Breakdown.collect start).map Breakdown.withPercentage

/-! ### References -/

namespace Outcome

/-- Keeps a reference that the manifest has. -/
def keep (m : Manifest) (paths : Table String Path) (id : String) : Table String Path :=
  match m.get? id with
  | some p => paths.insert id p
  | none => paths

/-- The places of the evidence referred to that the manifest has, and of its index. -/
def paths (o : Outcome) (m : Manifest) : Table String Path :=
  (o.references ++ [Manifest.indexKey]).foldl (keep m) .empty

/-- The references that the manifest does not have. -/
def dropped (o : Outcome) (m : Manifest) : List String :=
  o.references.filter fun id => (m.get? id).isNone

/-- The warning on references dropped, if there is one. -/
def dropWarning (o : Outcome) (m : Manifest) : List String :=
  let n := (o.dropped m).length
  if m.isEmpty then
    ["evidence manifest is empty; " ++ toString n ++ " evidence reference(s) dropped"]
  else if 0 < n then
    [toString n ++ " evidence reference(s) dropped: not present in the evidence manifest"]
  else []

end Outcome

/-! ### The score -/

/-- The score of an outcome, without its summary. -/
def Rubric.rawScore (r : Rubric) (o : Outcome) (m : Manifest) : ScoreOutput :=
  let percentage := Points.percentage o.totalScore o.maxScore
  { totalScore := o.totalScore
    maxScore := o.maxScore
    percentage
    grade := .ofPercentage percentage
    breakdowns := r.breakdowns o
    evidencePaths := o.paths m
    warnings := m.warnings ++ o.dropWarning m
    summary := "" }

/-- The score of an outcome. -/
def Rubric.score (r : Rubric) (o : Outcome) (m : Manifest) : ScoreOutput :=
  let raw := r.rawScore o m
  { raw with summary := raw.render }

/-- Reports references dropped, if there are any. -/
def Outcome.reportDropped (o : Outcome) (m : Manifest) : Logged Unit := do
  let ids := o.dropped m
  if !ids.isEmpty then
    Journal.emit (.referencesDropped ids)
    Journal.countDropped (.ofNat ids.length)

/-- Publishes the score of an outcome. -/
def Rubric.publish (r : Rubric) (o : Outcome) (m : Manifest) :
    Attempt PublishError ScoreOutput := do
  match r.outcomeError? o with
  | some e => throw e
  | none =>
    o.reportDropped m
    let s := r.score o m
    Journal.emit (.scorePublished s.totalScore s.percentage s.grade s.evidencePaths.size)
    return s

end Scorecard
