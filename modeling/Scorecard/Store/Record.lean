import Scorecard.Evidence.Basic
import Scorecard.Store.Error
import Scorecard.Json.Printer

/-!
# Evidence files

An evidence file holds an item without the place suggested for it.

* `EvidenceRecord.bytes`, `EvidenceRecord.ofFile`: writing and reading.
-/

namespace Scorecard

open Decode

/-- What an evidence file holds. -/
structure EvidenceRecord where
  id : String
  criterionId : String
  dimension : Dimension
  confidence : Confidence
  summary : String
  payload : Json

/-- Reads a document out of a file's bytes. -/
def Decode.ofBytes {α : Type} (decode : Decoder α) (bytes : ByteArray) : Except Misreading α :=
  match String.fromUTF8? bytes with
  | none => .error .noDocument
  | some text => ofText decode text

namespace EvidenceRecord

/-- What the file of an item holds. -/
def ofEvidence (e : Evidence) : EvidenceRecord :=
  ⟨e.id, e.criterionId, e.dimension, e.confidence, e.summary, e.payload⟩

/-- Reads a record. -/
def decode : Decoder EvidenceRecord :=
  Record.decode
    (Record.make EvidenceRecord.mk
      |>.required "id" string
      |>.required "criterion_id" string
      |>.required "dimension" Dimension.decode
      |>.required "confidence" Confidence.decode
      |>.required "summary" string
      |>.required "payload" Decode.payload)
    "EvidenceRecord" false

/-- The record as a document. -/
def toJson (r : EvidenceRecord) : Json :=
  .obj [
    ("id", .str r.id),
    ("criterion_id", .str r.criterionId),
    ("dimension", r.dimension.toJson),
    ("confidence", r.confidence.toJson),
    ("summary", .str r.summary),
    ("payload", r.payload)]

/-- The bytes of the record's file. -/
def bytes (r : EvidenceRecord) : ByteArray := r.toJson.pretty.toUTF8

/-- The record in the file to which the path leads. -/
def ofFile (v : Volume) (p : Path) : Except StoreError EvidenceRecord := do
  let bytes ← (v.contents p).mapError .io
  (ofBytes decode bytes).mapError .serialization

end EvidenceRecord

end Scorecard
