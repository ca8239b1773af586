import Scorecard.Evidence.Basic

/-!
# Manifests

A manifest says what became of the evidence of a run: where each item kept stands, which
items were left out and why, and where the index of all of them is.
-/

namespace Scorecard

open Decode

/-- An item left out, and why. -/
structure Omission where
  id : String
  reason : String
  deriving DecidableEq, Repr

namespace Omission

/-- Reads an omission. -/
def decode : Decoder Omission :=
  Record.decode
    (Record.make Omission.mk |>.required "id" string |>.required "reason" string)
    "OmittedEvidence" false

/-- The omission as a document. -/
def toJson (o : Omission) : Json := .obj [("id", .str o.id), ("reason", .str o.reason)]

end Omission

/-- What became of the evidence of a run. -/
structure Manifest where
  entries : Table String Path
  indexPath : Option Path
  omitted : List Omission
  warnings : List String

namespace Manifest

/-- The key under which the index stands among the entries. -/
def indexKey : String := "evidence_index"

/-- The manifest of nothing. -/
def empty : Manifest := ⟨.empty, none, [], []⟩

/-- The place of an item. -/
def get? (m : Manifest) (id : String) : Option Path := m.entries.get? id

/-- Whether the manifest has an item. -/
def contains (m : Manifest) (id : String) : Bool := m.entries.contains id

/-- Whether the manifest has no entries. -/
def isEmpty (m : Manifest) : Bool := m.entries.isEmpty

/-- The number of entries. -/
def size (m : Manifest) : Nat := m.entries.size

/-- The number of entries other than the index. -/
def evidenceCount (m : Manifest) : Nat := m.entries.keys.countP (· != indexKey)

/-- Reads a manifest. -/
def decode : Decoder Manifest :=
  Record.decode
    (Record.make Manifest.mk
      |>.required "entries" (table Evidence.decodePath)
      |>.nullable "index_path" Evidence.decodePath
      |>.required "omitted" (list Omission.decode)
      |>.required "warnings" (list string))
    "EvidenceManifest" false

/-- The manifest as a document. -/
def toJson (m : Manifest) : Json :=
  .obj [
    ("entries", .ofTable id (fun p => .str p.text) m.entries),
    ("index_path", .ofOption (fun p => .str p.text) m.indexPath),
    ("omitted", .ofList Omission.toJson m.omitted),
    ("warnings", .ofList .str m.warnings)]

end Manifest

end Scorecard
