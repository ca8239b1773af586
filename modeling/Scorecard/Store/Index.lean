import Scorecard.Store.Stamp
import Scorecard.Store.Record
import Scorecard.Evidence.Manifest

/-!
# The index

Beside the evidence files stands an index of those that are kept, by dimension, with their
digests, and of the items that are left out.

* `Index.push`: adds an entry.
-/

namespace Scorecard

open Decode

/-- An evidence file that is kept. -/
structure IndexEntry where
  id : String
  criterionId : String
  /-- As seen from the store's root. -/
  path : Path
  digest : String
  deriving DecidableEq, Repr

namespace IndexEntry

/-- Reads an entry. -/
def decode : Decoder IndexEntry :=
  Record.decode
    (Record.make IndexEntry.mk
      |>.required "id" string
      |>.required "criterion_id" string
      |>.required "path" Evidence.decodePath
      |>.required "sha256" string)
    "IndexEntry" false

/-- The entry as a document. -/
def toJson (e : IndexEntry) : Json :=
  .obj [
    ("id", .str e.id),
    ("criterion_id", .str e.criterionId),
    ("path", .str e.path.text),
    ("sha256", .str e.digest)]

end IndexEntry

/-- The evidence files of a run. -/
structure Index where
  schemaVersion : String
  runId : RunId
  generatedAt : Timestamp
  totalEntries : Nat
  dimensions : Table Dimension (List IndexEntry)
  omitted : List Omission

namespace Index

/-- The version of the form in which an index is written. -/
def currentSchema : String := "1.0"

/-- The index of nothing. -/
def empty (stamp : Stamp) : Index := ⟨currentSchema, stamp.runId, stamp.time, 0, .empty, []⟩

/-- Adds an entry to its dimension. -/
def push (ix : Index) (d : Dimension) (e : IndexEntry) : Index :=
  { ix with
    totalEntries := ix.totalEntries + 1
    dimensions := ix.dimensions.insert d (((ix.dimensions.get? d).getD []) ++ [e]) }

/-- The entries with their dimensions, in the order of those. -/
def entries (ix : Index) : List (Dimension × IndexEntry) :=
  ix.dimensions.entries.flatMap fun (d, es) => es.map fun e => (d, e)

/-- Reads an index. -/
def decode : Decoder Index :=
  Record.decode
    (Record.make Index.mk
      |>.required "schema_version" string
      |>.required "run_id" RunId.decode
      |>.required "generated_at" Timestamp.decode
      |>.required "total_entries" size
      |>.required "dimensions" (Dimension.decodeTable (list IndexEntry.decode))
      |>.defaulted "omitted" (list Omission.decode) [])
    "EvidenceIndex" false

/-- The index as a document. -/
def toJson (ix : Index) : Json :=
  .obj [
    ("schema_version", .str ix.schemaVersion),
    ("run_id", ix.runId.toJson),
    ("generated_at", ix.generatedAt.toJson),
    ("total_entries", .ofNat ix.totalEntries),
    ("dimensions", .ofTable Dimension.key (.ofList IndexEntry.toJson) ix.dimensions),
    ("omitted", .ofList Omission.toJson ix.omitted)]

/-- The bytes of the index's file. -/
def bytes (ix : Index) : ByteArray := ix.toJson.pretty.toUTF8

end Index

end Scorecard
