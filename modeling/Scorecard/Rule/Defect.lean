import Scorecard.Rule.Metric
import Scorecard.Decode.Fault
import Scorecard.Decimal.Layout

/-!
# Defects of parameters

The parameters of a rule may not fit what it takes, or contradict each other. A rule that is
asked to judge by such parameters refuses.
-/

namespace Scorecard

/-- What is wrong with the parameters of a rule. -/
inductive ParamDefect
  | misfit (fault : Decode.Fault)
  /-- A number that has to lie between zero and `bound`. -/
  | outside (name : String) (bound : Nat) (value : Float)
  | notFinite (name : String) (value : Float)
  /-- A partial threshold above the one it relaxes. -/
  | exceeds (name : String) (value : Float) (metName : String) (met : Float)
  /-- A partial limit below the one it relaxes. -/
  | below (name : String) (value : UInt64) (metName : String) (met : UInt64)
  /-- A partial limit without one to relax. -/
  | alone (name metName : String)
  | notMilder (partialOn failOn : Vulnerability)
  | stricter (value met : Float) (direction : Direction)
  | emptySection
  | tooManySections (value required : Nat)
  | noFiles
  | filesOutside (value most : Nat)
  /-- A defect in the rule's own words. -/
  | stated (reason : String)
  deriving DecidableEq

/-- The name of a level in messages. -/
def Vulnerability.label : Vulnerability → String
  | low => "Low"
  | medium => "Medium"
  | high => "High"
  | critical => "Critical"

/-- A text in parentheses after a name. -/
def ParamDefect.named (name value : String) : String := name ++ " (" ++ value ++ ")"

/-- The wording of a defect. -/
def ParamDefect.message : ParamDefect → String
  | misfit fault => fault.message .tree
  | outside name bound value =>
    name ++ " must be within [0, " ++ toString bound ++ "], got " ++ Decimal.plain value
  | notFinite name value => name ++ " must be finite, got " ++ Decimal.plain value
  | exceeds name value metName met =>
    named name (Decimal.plain value) ++ " must not exceed " ++ named metName (Decimal.plain met)
  | below name value metName met =>
    named name (toString value) ++ " must not be below " ++ named metName (toString met)
  | alone name metName => name ++ " requires " ++ metName ++ " to be set"
  | notMilder partialOn failOn =>
    named "partial_on" partialOn.label ++ " must be less severe than "
      ++ named "fail_on" failOn.label
  | stricter value met direction =>
    named "partial" (Decimal.plain value) ++ " is stricter than "
      ++ named "met" (Decimal.plain met) ++ " for direction " ++ direction.label
  | emptySection => "required_sections must not contain empty names"
  | tooManySections value required =>
    named "partial_min_sections" (toString value) ++ " exceeds the " ++ toString required
      ++ " required section(s)"
  | noFiles => "required must list at least one project file"
  | filesOutside value most =>
    named "partial_min_present" (toString value) ++ " must be between 1 and " ++ toString most
  | stated reason => reason

/-- Why a rule does not judge. -/
inductive RuleError
  | invalidParams (defect : ParamDefect)
  | invalidInput (reason : String)
  deriving DecidableEq

/-- The wording of a rule's error. -/
def RuleError.message : RuleError → String
  | invalidParams defect => "invalid parameters: " ++ defect.message
  | invalidInput reason => "invalid input: " ++ reason

end Scorecard
