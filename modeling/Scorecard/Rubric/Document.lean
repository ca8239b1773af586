import Scorecard.Rubric.Basic
import Scorecard.Decode.Record
import Scorecard.Toml.Document

/-!
# Rubric documents

A rubric is written in TOML or JSON. Overrides for a language stand beside their criterion or
in a table of their own; `Rubric.ofDocument` merges the latter into the former.

* `Rubric.ofToml`, `Rubric.ofJson`: the rubric of a text.
-/

namespace Scorecard

open Decode

/-- A rubric as it is written. -/
structure RubricDocument where
  version : String
  dimensions : Table String Float
  criteria : List Criterion
  /-- Parameters by language and criterion id. -/
  overrides : Table String (Table String Params)

/-- Reads parameters. -/
def decodeParams : Decoder Params := table payload

/-- Reads a criterion. -/
def Criterion.decode : Decoder Criterion :=
  Record.decode
    (Record.make Criterion.mk
      |>.required "id" string
      |>.required "dimension" Dimension.decode
      |>.required "max_points" float
      |>.required "rule" string
      |>.defaulted "description" (optional string) none
      |>.defaulted "params" decodeParams .empty
      |>.defaulted "language_overrides" (table decodeParams) .empty)
    "Criterion" true

/-- The version of a rubric that states none. -/
def RubricDocument.firstVersion : String := "1"

/-- Reads a rubric's document. -/
def RubricDocument.decode : Decoder RubricDocument :=
  Record.decode
    (Record.make RubricDocument.mk
      |>.defaulted "version" string firstVersion
      |>.defaulted "dimensions" (table float) .empty
      |>.defaulted "criteria" (list Criterion.decode) []
      |>.defaulted "overrides" (table (table decodeParams)) .empty)
    "RubricDocument" true

/-- The criterion with the languages of its overrides in normal form; of several languages
with one normal form the last one counts. -/
def Criterion.normalized (c : Criterion) : Criterion :=
  { c with
    overrides := .ofList (c.overrides.entries.map fun e => (Text.normal e.1, e.2)) }

/-- An override for a language in normal form and a criterion. -/
structure Override where
  language : String
  criterionId : String
  params : Params

/-- The overrides of a document in ascending order of language and criterion. -/
def RubricDocument.overrideList (doc : RubricDocument) : List Override :=
  doc.overrides.entries.flatMap fun (language, byCriterion) =>
    byCriterion.entries.map fun (id, params) => ⟨Text.normal language, id, params⟩

/-- Adds an override to the first criterion with its id, if there is one. -/
def Override.applyTo (o : Override) : List Criterion → Option (List Criterion)
  | [] => none
  | c :: rest =>
    if c.id = o.criterionId then some (c.addOverride o.language o.params :: rest)
    else (o.applyTo rest).map (c :: ·)

/-- Merges one override into criteria, or notes that there is no criterion for it. -/
def Override.merge (state : List Criterion × List (String × String)) (o : Override) :
    List Criterion × List (String × String) :=
  match o.applyTo state.1 with
  | some criteria => (criteria, state.2)
  | none => (state.1, state.2 ++ [(o.language, o.criterionId)])

namespace Rubric

/-- The rubric that a document writes. -/
def ofDocument (doc : RubricDocument) : Rubric :=
  let (criteria, dangling) :=
    doc.overrideList.foldl Override.merge (doc.criteria.map Criterion.normalized, [])
  ⟨doc.version, doc.dimensions, criteria, dangling⟩

/-- The rubric of a JSON text. -/
def ofJson (text : String) : Except Misreading Rubric :=
  ofDocument <$> ofText RubricDocument.decode text

/-- The rubric of a TOML text. -/
def ofToml (text : String) : Except Misreading Rubric :=
  match Toml.parse? text with
  | none => .error .noDocument
  | some v => (ofDocument <$> RubricDocument.decode .toml v).mapError (.misfit .toml)

end Rubric

end Scorecard
