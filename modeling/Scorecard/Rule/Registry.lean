import Scorecard.Rule.Lint
import Scorecard.Rule.Build
import Scorecard.Rule.Audit
import Scorecard.Rule.Tests
import Scorecard.Rule.Coverage
import Scorecard.Rule.Readme
import Scorecard.Rule.ApiDocs
import Scorecard.Rule.ProjectFiles
import Scorecard.Rule.MetricThreshold
import Scorecard.Text.Quoted

/-!
# Registries

A registry has rules by their names. A rule registered later takes the place of one with the
same name.
-/

namespace Scorecard

/-- Rules by their names. -/
structure Registry where
  rules : Table String Rule

namespace Registry

/-- The registry without rules. -/
def empty : Registry := ⟨.empty⟩

/-- Adds a rule under its name. -/
def register (r : Registry) (rule : Rule) : Registry := ⟨r.rules.insert rule.name rule⟩

/-- The rules that every rubric can use. -/
def builtinRules : List Rule :=
  [Rule.Lint.rule.toRule, Rule.Build.rule.toRule, Rule.Audit.rule.toRule,
    Rule.Tests.rule.toRule, Rule.Coverage.rule.toRule, Rule.Readme.rule.toRule,
    Rule.ApiDocs.rule.toRule, Rule.ProjectFiles.rule.toRule, Rule.MetricThreshold.rule.toRule]

/-- The registry of those rules. -/
def builtin : Registry := builtinRules.foldl register empty

/-- The rule of that name. -/
def get? (r : Registry) (name : String) : Option Rule := r.rules.get? name

/-- Whether there is a rule of that name. -/
def contains (r : Registry) (name : String) : Bool := r.rules.contains name

/-- The names in ascending order. -/
def names (r : Registry) : List String := r.rules.keys

/-- The registry in messages. -/
def summary (r : Registry) : String :=
  "RuleRegistry \x7b rules: " ++ Text.quoteList r.names ++ " \x7d"

end Registry

end Scorecard
