import Scorecard.Rule.Basic
import Scorecard.Decode.Record

/-!
# The rule on project files

A criterion is met when all required files are present.
-/

namespace Scorecard.Rule.ProjectFiles

open Decode

/-- A file that a project may have. -/
inductive ProjectFile
  | license
  | contributing
  | changelog
  deriving DecidableEq, Repr

namespace ProjectFile

/-- The name in documents. -/
def name : ProjectFile → String
  | license => "license"
  | contributing => "contributing"
  | changelog => "changelog"

/-- Whether the project has the file. -/
def isPresent (r : DocumentationReport) : ProjectFile → Bool
  | license => r.hasLicense
  | contributing => r.hasContributing
  | changelog => r.hasChangelog

/-- The files by their names. -/
def variants : List (String × ProjectFile) :=
  [license, contributing, changelog].map fun f => (f.name, f)

end ProjectFile

/-- The parameters. -/
structure Wanted where
  required : List ProjectFile
  partialMin : Option Nat

/-- Reads the parameters. -/
def Wanted.decode : Decoder Wanted :=
  Record.decode
    (Record.make Wanted.mk
      |>.required "required" (list (variant ProjectFile.variants))
      |>.defaulted "partial_min_present" (optional size) none)
    "ProjectFilesParams" true

/-- Checks that a file is required, and that the least number for a partial status leaves one
out. -/
def Wanted.check (p : Wanted) : Except ParamDefect Unit :=
  if p.required.isEmpty then .error .noFiles
  else match p.partialMin with
    | some n =>
      if n = 0 ∨ p.required.length ≤ n then
        .error (.filesOutside n (p.required.length - 1))
      else .ok ()
    | none => .ok ()

/-- The required files that are present. -/
def present (r : DocumentationReport) (p : Wanted) : List ProjectFile :=
  p.required.filter (·.isPresent r)

/-- The required files that are missing. -/
def missing (r : DocumentationReport) (p : Wanted) : List ProjectFile :=
  p.required.filter fun f => !f.isPresent r

/-- The draft on the files. -/
def draft (r : DocumentationReport) (p : Wanted) : Draft where
  confidence := .high
  summary :=
    toString (present r p).length ++ " of " ++ toString p.required.length
      ++ " required project file(s) present"
  payload := .obj [
    ("missing", .ofList (fun f => .str f.name) (missing r p)),
    ("present", .ofList (fun f => .str f.name) (present r p))]

/-- The status of the files. -/
def status (r : DocumentationReport) (p : Wanted) : Status :=
  .ofTests (missing r p).isEmpty (p.partialMin.map (· ≤ (present r p).length))

/-- Judges by the documentation's report. -/
def decide (c : Criterion.Context) (s : Snapshot) (p : Wanted) : Verdict :=
  match s.documentation with
  | none => .unavailable c "documentation"
  | some r => .ofStatus c (status r p) [draft r p]

/-- The rule. -/
def rule : TypedRule Wanted where
  name := "project_files"
  decode := Wanted.decode
  check := Wanted.check
  hasPartial := fun p => p.partialMin.isSome
  decide := decide

end Scorecard.Rule.ProjectFiles
