import Scorecard.Rule.Basic
import Scorecard.Text.Basic

/-!
# Rubrics

A rubric is a list of criteria. Each is worth some points, belongs to a dimension, and is
judged by a rule under parameters that can differ by language.

* `Criterion.effectiveParams`: the parameters for a language.
* `Rubric.weight`, `Rubric.totalPoints`: the points of a dimension, and of all criteria.
-/

namespace Scorecard

/-- A criterion. -/
structure Criterion where
  id : String
  dimension : Dimension
  maxPoints : Float
  rule : String
  description : Option String
  params : Params
  /-- Parameters that replace others of the same name, by languages in normal form. -/
  overrides : Table String Params

namespace Criterion

/-- The parameters for a language. -/
def effectiveParams (c : Criterion) (language : String) : Params :=
  match c.overrides.get? (Text.normal language) with
  | some special => c.params.override special
  | none => c.params

/-- Adds parameters for a language in normal form to those it has. -/
def addOverride (c : Criterion) (language : String) (special : Params) : Criterion :=
  { c with
    overrides := c.overrides.insert language
      (((c.overrides.get? language).getD .empty).override special) }

/-- The criterion as a document. A missing description and an empty list of overrides are left
out. -/
def toJson (c : Criterion) : Json :=
  .obj ([
      ("id", .str c.id),
      ("dimension", c.dimension.toJson),
      ("max_points", .ofFloat c.maxPoints),
      ("rule", .str c.rule)]
    ++ (match c.description with
      | some text => [("description", .str text)]
      | none => [])
    ++ [("params", .obj c.params.entries)]
    ++ (if c.overrides.isEmpty then []
      else [("language_overrides", .ofTable (fun l => l) (fun ps => .obj ps.entries) c.overrides)]))

end Criterion

/-- A rubric. -/
structure Rubric where
  version : String
  /-- The weights that the rubric states for dimensions, by their names. -/
  declaredWeights : Table String Float
  criteria : List Criterion
  /-- Languages and criterion ids of overrides for which there is no criterion. -/
  danglingOverrides : List (String × String)

namespace Rubric

/-- The points that the criteria of a rubric have to add up to. -/
def fullPoints : Float := 100

/-- The sum of the points of a dimension's criteria. -/
def weight (r : Rubric) (d : Dimension) : Float :=
  Points.total ((r.criteria.filter (·.dimension = d)).map (·.maxPoints))

/-- The sum of the points of all criteria. -/
def totalPoints (r : Rubric) : Float := Points.total (r.criteria.map (·.maxPoints))

/-- The first criterion with that id. -/
def criterion? (r : Rubric) (id : String) : Option Criterion := r.criteria.find? (·.id == id)

/-- The dimensions that have a criterion, in their order. -/
def dimensions (r : Rubric) : List Dimension :=
  Dimension.all.filter fun d => r.criteria.any (·.dimension = d)

end Rubric

end Scorecard
