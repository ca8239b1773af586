import Scorecard.Grading.Dimension
import Scorecard.Grading.Confidence
import Scorecard.Decode.Record
import Scorecard.Volume.Path

/-!
# Evidence

A rule hands in drafts of evidence. An evidence item is a draft with an identity: the
criterion it belongs to, its number there, and the place suggested for its file.
-/

namespace Scorecard

open Decode

/-- What a rule says of its finding. -/
structure Draft where
  confidence : Confidence
  summary : String
  payload : Json

/-- The draft that says that there is nothing to judge by. -/
def Draft.unavailable (category : String) : Draft where
  confidence := .low
  summary := category ++ " data unavailable: tool did not run or produced no result"
  payload := .obj [("unavailable", .str category)]

/-- The draft as a document. -/
def Draft.toJson (d : Draft) : Json :=
  .obj [
    ("confidence", d.confidence.toJson),
    ("summary", .str d.summary),
    ("payload", d.payload)]

/-- A draft with an identity. -/
structure Evidence where
  id : String
  criterionId : String
  dimension : Dimension
  confidence : Confidence
  summary : String
  payload : Json
  suggestedPath : Path

namespace Evidence

/-- A number in at least two digits. -/
def twoDigits (n : Nat) : String := if n < 10 then "0" ++ toString n else toString n

/-- The identity of a criterion's `n`-th item. -/
def makeId (criterionId : String) (n : Nat) : String := criterionId ++ "-" ++ twoDigits n

/-- The place for an item's file: a folder for the dimension and in it one for the
criterion. -/
def defaultPath (dimension : Dimension) (criterionId id : String) : Path :=
  (Path.mk dimension.key |>.join ⟨criterionId⟩).join ⟨id ++ ".json"⟩

/-- A criterion's `n`-th item. -/
def ofDraft (criterionId : String) (dimension : Dimension) (n : Nat) (d : Draft) : Evidence :=
  let id := makeId criterionId n
  { id
    criterionId
    dimension
    confidence := d.confidence
    summary := d.summary
    payload := d.payload
    suggestedPath := defaultPath dimension criterionId id }

/-- A criterion's items, numbered from one. -/
def ofDrafts (criterionId : String) (dimension : Dimension) (drafts : List Draft) :
    List Evidence :=
  drafts.zipIdx.map fun (d, i) => ofDraft criterionId dimension (i + 1) d

/-- Reads a path. -/
def decodePath : Decoder Path := path.map Path.mk

/-- Reads an item. -/
def decode : Decoder Evidence :=
  Record.decode
    (Record.make Evidence.mk
      |>.required "id" string
      |>.required "criterion_id" string
      |>.required "dimension" Dimension.decode
      |>.required "confidence" Confidence.decode
      |>.required "summary" string
      |>.required "payload" Decode.payload
      |>.required "suggested_path" decodePath)
    "Evidence" false

/-- The item as a document. -/
def toJson (e : Evidence) : Json :=
  .obj [
    ("id", .str e.id),
    ("criterion_id", .str e.criterionId),
    ("dimension", e.dimension.toJson),
    ("confidence", e.confidence.toJson),
    ("summary", .str e.summary),
    ("payload", e.payload),
    ("suggested_path", .str e.suggestedPath.text)]

end Evidence

end Scorecard
