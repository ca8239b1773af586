import Scorecard.Rule.Basic
import Scorecard.Text.Basic
import Scorecard.Decode.Record

/-!
# The rule on the README

A criterion is met when the README has a heading for each required section. A heading is one
for a section if it contains its name, case and surrounding blanks aside.
-/

namespace Scorecard.Rule.Readme

open Decode

/-- The parameters. -/
structure Sections where
  required : List String
  partialMin : Option Nat

/-- Reads the parameters. -/
def Sections.decode : Decoder Sections :=
  Record.decode
    (Record.make Sections.mk
      |>.defaulted "required_sections" (list string) []
      |>.defaulted "partial_min_sections" (optional size) none)
    "ReadmeSectionsParams" true

/-- Checks that no name is blank and that enough sections are required. -/
def Sections.check (p : Sections) : Except ParamDefect Unit :=
  if p.required.any Text.isBlankText then .error .emptySection
  else match p.partialMin with
    | some n =>
      if p.required.length < n then .error (.tooManySections n p.required.length) else .ok ()
    | none => .ok ()

/-- Whether some heading is one for the section. -/
def covers (headings : List String) (name : String) : Bool :=
  headings.any fun h => Text.occurs (Text.normal name).toList (Text.normal h).toList

/-- The required sections with a heading. -/
def found (r : DocumentationReport) (p : Sections) : List String :=
  p.required.filter (covers r.readmeSections)

/-- The required sections without a heading. -/
def missing (r : DocumentationReport) (p : Sections) : List String :=
  p.required.filter fun name => !covers r.readmeSections name

/-- The draft where there is no README. -/
def absentDraft : Draft where
  confidence := .high
  summary := "no README found"
  payload := .obj [("readme_present", .bool false)]

/-- The draft on the headings. -/
def draft (r : DocumentationReport) (p : Sections) : Draft where
  confidence := .medium
  summary :=
    "README covers " ++ toString (found r p).length ++ " of " ++ toString p.required.length
      ++ " required section(s)"
  payload := .obj [
    ("found", .ofList .str (found r p)),
    ("missing", .ofList .str (missing r p)),
    ("partial_min_sections", .ofOption .ofNat p.partialMin),
    ("sections", .ofList .str r.readmeSections)]

/-- The status of a README. -/
def status (r : DocumentationReport) (p : Sections) : Status :=
  .ofTests (missing r p).isEmpty (p.partialMin.map (· ≤ (found r p).length))

/-- Judges by the documentation's report. -/
def decide (c : Criterion.Context) (s : Snapshot) (p : Sections) : Verdict :=
  match s.documentation with
  | none => .unavailable c "documentation"
  | some r =>
    if r.readmePresent then .ofStatus c (status r p) [draft r p]
    else .ofStatus c .unmet [absentDraft]

/-- The rule. -/
def rule : TypedRule Sections where
  name := "readme_sections"
  decode := Sections.decode
  check := Sections.check
  hasPartial := fun p => p.partialMin.isSome
  decide := decide

end Scorecard.Rule.Readme
