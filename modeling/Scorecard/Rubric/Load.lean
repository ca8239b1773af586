import Scorecard.Rubric.Document
import Scorecard.Rubric.Issues
import Scorecard.Journal.Basic
import Scorecard.Volume.Access

/-!
# Loading rubrics

A loaded rubric has no issues. It comes from a text or a file, or is the standard one.

* `Rubric.checked`: lets a rubric without issues pass and reports it.
* `Rubric.load`, `Rubric.loadToml`, `Rubric.loadJson`, `Rubric.loadStandard`.
-/

namespace Scorecard

/-- Why there is no rubric. -/
inductive RubricError
  | unreadable (path : Path) (fault : Volume.Fault)
  | toml (m : Decode.Misreading)
  | json (m : Decode.Misreading)
  | invalid (issues : List RubricIssue)
  deriving DecidableEq

/-- The wording of an error. -/
def RubricError.message : RubricError → String
  | unreadable path fault => "failed to read rubric " ++ path.text ++ ": " ++ fault.message
  | toml m => "invalid rubric TOML: " ++ m.words
  | json m => "invalid rubric JSON: " ++ m.words
  | invalid issues =>
    "rubric failed validation with " ++ toString issues.length ++ " issue(s): "
      ++ String.intercalate "; " (issues.map RubricIssue.message)

namespace Rubric

/-! ### Reading -/

/-- Whether the path's extension says that the file is JSON. -/
def namesJson (p : Path) : Bool := p.extension?.any fun e => Text.lower e == "json"

/-- The rubric in a file; its extension tells the format. -/
def ofFile (v : Volume) (p : Path) : Except RubricError Rubric := do
  let text ← (v.contentsText p).mapError (.unreadable p)
  if namesJson p then (ofJson text).mapError .json else (ofToml text).mapError .toml

/-! ### Loading -/

/-- Lets a rubric without issues pass and reports it. -/
def checked (registry : Registry) (r : Rubric) : Attempt RubricError Rubric := do
  match r.issues registry with
  | [] =>
    Journal.emit (.rubricLoaded r.criteria.length r.version)
    return r
  | issues => throw (.invalid issues)

/-- Lets a rubric that has been read pass if it has no issues. -/
def loaded (registry : Registry) (read : Except RubricError Rubric) :
    Attempt RubricError Rubric := do
  checked registry (← Attempt.ofExcept read)

/-- Loads a file. -/
def load (registry : Registry) (v : Volume) (p : Path) : Attempt RubricError Rubric :=
  loaded registry (ofFile v p)

/-- Loads a TOML text. -/
def loadToml (registry : Registry) (text : String) : Attempt RubricError Rubric :=
  loaded registry ((ofToml text).mapError .toml)

/-- Loads a JSON text. -/
def loadJson (registry : Registry) (text : String) : Attempt RubricError Rubric :=
  loaded registry ((ofJson text).mapError .json)

end Rubric

end Scorecard
