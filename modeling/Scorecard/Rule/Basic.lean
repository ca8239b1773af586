import Scorecard.Rule.Defect
import Scorecard.Evidence.Basic
import Scorecard.Grading.Status
import Scorecard.Snapshot.Validity

/-!
# Rules

A rule judges one criterion by a snapshot and some parameters. Its verdict is a status, the
score, and drafts of evidence for the decision.

* `Rule`: any rule.
* `TypedRule`: a rule that first reads its parameters as a value of a type of its own.
-/

namespace Scorecard

/-- Parameters of a rule by their names. -/
abbrev Params := Table String Json

/-- The criterion that a rule judges. -/
structure Criterion.Context where
  criterionId : String
  dimension : Dimension
  maxPoints : Float
  language : String

/-- What a rule decides. -/
structure Verdict where
  status : Status
  score : Float
  evidence : List Draft

namespace Verdict

/-- The verdict with the score that the status fixes. -/
def ofStatus (c : Criterion.Context) (status : Status) (evidence : List Draft) : Verdict :=
  ⟨status, status.points c.maxPoints, evidence⟩

/-- The verdict where there is nothing to judge by. -/
def unavailable (c : Criterion.Context) (category : String) : Verdict :=
  ofStatus c .unmet [.unavailable category]

end Verdict

/-- A rule. -/
structure Rule where
  name : String
  /-- Whether the rule takes the parameters. -/
  validate : Params → Except RuleError Unit
  /-- Whether a criterion may be partly met under the parameters. -/
  allowsPartial : Params → Bool
  judge : Criterion.Context → Snapshot → Params → Except RuleError Verdict

/-- A rule with parameters of a type of its own. -/
structure TypedRule (π : Type) where
  name : String
  decode : Decode.Decoder π
  /-- Whether the parameters agree with each other. -/
  check : π → Except ParamDefect Unit
  /-- Whether the parameters have a partial threshold. -/
  hasPartial : π → Bool
  decide : Criterion.Context → Snapshot → π → Verdict

namespace TypedRule

variable {π : Type}

/-- Reads parameters. -/
def read (r : TypedRule π) (params : Params) : Except ParamDefect π :=
  (r.decode .tree (.obj params.entries)).mapError .misfit

/-- Reads parameters and checks that they agree with each other. -/
def accept (r : TypedRule π) (params : Params) : Except ParamDefect π := do
  let p ← r.read params
  r.check p
  return p

/-- The rule for parameters by name. -/
def toRule (r : TypedRule π) : Rule where
  name := r.name
  validate := fun params => (discard (r.accept params)).mapError .invalidParams
  allowsPartial := fun params =>
    match r.read params with
    | .ok p => r.hasPartial p
    | .error _ => false
  judge := fun c s params =>
    match r.accept params with
    | .ok p => .ok (r.decide c s p)
    | .error defect => .error (.invalidParams defect)

end TypedRule

/-! ### Checks -/

/-- Checks that a number lies between zero and `bound`. -/
def checkWithin (bound : Nat) (name : String) (x : Float) : Except ParamDefect Unit :=
  if liesWithin (Float.ofNat bound) x then .ok () else .error (.outside name bound x)

/-- Checks a least number and the least number for a partial status below it; both have to lie
between zero and `bound`. -/
def checkFloors (bound : Nat) (name : String) (least : Float) (partialName : String)
    (partialLeast : Option Float) : Except ParamDefect Unit := do
  checkWithin bound name least
  match partialLeast with
  | none => return
  | some p =>
    checkWithin bound partialName p
    if least < p then .error (.exceeds partialName p name least)

end Scorecard
