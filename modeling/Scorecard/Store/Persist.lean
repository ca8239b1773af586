import Scorecard.Store.Target
import Scorecard.Store.Index
import Scorecard.Volume.Write
import Scorecard.Sha256
import Scorecard.Journal.Basic

/-!
# Keeping evidence

A store writes the evidence of a run below its root. Each file is read back and compared with
what was written before its item counts as kept; an item that cannot be kept is left out, and
none of this keeps the others from being written. Last of all an index is written.

* `Store.write`: writes what it can of the items, and the index.
* `Store.persist`: does so and reports what became of each item.
* `Manifest.verify`: checks that what a manifest names is still there.
-/

namespace Scorecard

/-- Work on a file system that writes to a journal. -/
abbrev FiledOn (σ α : Type) := StateT σ Logged α

/-- Work on a volume that writes to a journal. -/
abbrev Filed (α : Type) := FiledOn Volume α

/-- A place for the evidence of runs. -/
structure Store where
  root : Path
  /-- How many files may be written at a time. -/
  maxConcurrent : Nat

/-- A file that has been written and checked. -/
structure Kept where
  target : Target
  digest : String

/-- What became of an item. -/
structure Settled where
  item : Evidence
  result : Except StoreError Kept

namespace Store

variable {σ : Type} [FileSystem σ]

/-- How many files may be written at a time unless another number is asked for. -/
def defaultConcurrent : Nat := 4

/-- A store with the usual number of writers. -/
def ofRoot (root : Path) : Store := ⟨root, defaultConcurrent⟩

/-- The store with another number of writers, at least one. -/
def withMaxConcurrent (s : Store) (n : Nat) : Store := { s with maxConcurrent := max n 1 }

/-- The path of the index. -/
def indexPath (s : Store) : Path := s.root.join ⟨Target.indexName⟩

/-! ### Writing a file -/

/-- Checks the bytes read back from a file against those written. -/
def checkReadBack (p : Path) (written readBack : ByteArray) : Except StoreError Unit :=
  if readBack.isEmpty then .error (.emptyFile p)
  else
    let expected := Sha256.hex written
    let actual := Sha256.hex readBack
    if expected = actual then .ok () else .error (.digestMismatch p expected actual)

/-- What is made of the result of writing an item's file. -/
def settleItem (e : Evidence) (t : Target) (written : ByteArray)
    (result : Except Volume.Fault ByteArray) : Except StoreError Kept := do
  let readBack ← result.mapError .io
  checkReadBack t.path written readBack
  let record ← (Decode.ofBytes EvidenceRecord.decode readBack).mapError .serialization
  if record.id = e.id then return ⟨t, Sha256.hex readBack⟩
  else .error (.idMismatch t.path e.id record.id)

/-- The task of writing an item's file. -/
def itemTask (ticket : Nat) (e : Evidence) (t : Target) : WriteTask :=
  ⟨ticket, t.path, (EvidenceRecord.ofEvidence e).bytes⟩

/-- Writes an item's file, if its place has been granted. -/
def writeItem (v : σ) (ticket : Nat) (e : Evidence) (target : Except StoreError Target) :
    Settled × σ :=
  match target with
  | .error error => (⟨e, .error error⟩, v)
  | .ok t =>
    let task := itemTask ticket e t
    let (result, v) := task.run v
    (⟨e, settleItem e t task.bytes result⟩, v)

/-- Writes the files of items one after another; the tickets count on from a number. -/
def writeItems (v : σ) (ticket : Nat) :
    List (Evidence × Except StoreError Target) → List Settled × σ
  | [] => ([], v)
  | (e, target) :: rest =>
    let (settled, v) := writeItem v ticket e target
    let (more, v) := writeItems v (ticket + 1) rest
    (settled :: more, v)

/-- What is made of the result of writing an index. -/
def settleIndex (ix : Index) (p : Path) (result : Except Volume.Fault ByteArray) :
    Except StoreError Unit := do
  let readBack ← result.mapError .io
  checkReadBack p ix.bytes readBack
  let parsed ← (Decode.ofBytes Index.decode readBack).mapError .serialization
  if parsed.runId = ix.runId then return ()
  else .error (.idMismatch p ix.runId.text parsed.runId.text)

/-- Writes an index. -/
def writeIndex (s : Store) (v : σ) (ticket : Nat) (ix : Index) :
    Except StoreError Unit × σ :=
  let (result, v) := WriteTask.run ⟨ticket, s.indexPath, ix.bytes⟩ v
  (settleIndex ix s.indexPath result, v)

/-! ### What became of the items -/

/-- The omission of an item that is left out. -/
def omission? (s : Settled) : Option Omission :=
  match s.result with
  | .ok _ => none
  | .error e => some ⟨s.item.id, e.message⟩

/-- The place of an item that is kept. -/
def entry? (s : Settled) : Option (String × Path) :=
  match s.result with
  | .ok kept => some (s.item.id, kept.target.path)
  | .error _ => none

/-- The warning on an omission. -/
def omissionWarning (o : Omission) : String := "evidence " ++ o.id ++ " omitted: " ++ o.reason

/-- Adds an item to the index, if it is kept. -/
def addToIndex (ix : Index) (s : Settled) : Index :=
  match s.result with
  | .ok kept =>
    ix.push s.item.dimension ⟨s.item.id, s.item.criterionId, kept.target.relative, kept.digest⟩
  | .error _ => ix

/-- The manifest of items, without an index. -/
def manifestOf (settled : List Settled) : Manifest :=
  let omitted := settled.filterMap omission?
  { entries := .ofList (settled.filterMap entry?)
    indexPath := none
    omitted
    warnings := omitted.map omissionWarning }

/-- The index of items. -/
def indexOf (stamp : Stamp) (settled : List Settled) : Index :=
  { settled.foldl addToIndex (.empty stamp) with omitted := settled.filterMap omission? }

/-- The manifest once the index is written or has failed. -/
def withIndex (s : Store) (m : Manifest) : Except StoreError Unit → Manifest
  | .ok () =>
    { m with
      entries := m.entries.insert Manifest.indexKey s.indexPath
      indexPath := some s.indexPath }
  | .error e => { m with warnings := m.warnings ++ ["evidence index not written: " ++ e.message] }

/-- What came of an attempt to keep items, with the file system after it. -/
structure Written (σ : Type) where
  settled : List Settled
  index : Index
  indexResult : Except StoreError Unit
  volume : σ

/-- Writes what it can of the items, and the index. -/
def write (s : Store) (stamp : Stamp) (items : List Evidence) (v : σ) : Written σ :=
  let (settled, v) := writeItems v 0 (items.zip (Target.claim s.root items))
  let index := indexOf stamp settled
  let (indexResult, volume) := s.writeIndex v items.length index
  { settled, index, indexResult, volume }

/-- The manifest of an attempt. -/
def Written.manifest {σ : Type} (s : Store) (o : Written σ) : Manifest :=
  s.withIndex (manifestOf o.settled) o.indexResult

/-! ### Reports -/

/-- Reports what became of an item. -/
def reportItem (s : Settled) : Logged Unit :=
  match s.result with
  | .ok kept => do
    Journal.emit (.evidencePersisted s.item.id kept.target.path kept.digest)
    Journal.countPersisted
  | .error e => do
    Journal.emit (.evidenceOmitted s.item.id e.message)
    Journal.countOmitted

/-- Reports what became of the index. -/
def reportIndex (s : Store) (ix : Index) : Except StoreError Unit → Logged Unit
  | .ok () => Journal.emit (.indexWritten s.indexPath ix.totalEntries)
  | .error e => Journal.emit (.indexFailed e.message)

/-- Reports what became of all items, then of the index. -/
def report {σ : Type} (s : Store) (o : Written σ) : Logged Unit := do
  o.settled.forM reportItem
  s.reportIndex o.index o.indexResult

/-- Keeps what it can of the items and says what became of each. -/
def persist (s : Store) (stamp : Stamp) (items : List Evidence) : FiledOn σ Manifest := do
  let o := s.write stamp items (← get)
  s.report o
  set o.volume
  return o.manifest s

end Store

/-! ### Checking a manifest -/

/-- Checks that an entry's file is there and not empty. -/
def Manifest.verifyEntry (v : Volume) (id : String) (p : Path) : Except StoreError Unit :=
  match v.contents p with
  | .error _ => .error (.missing id p)
  | .ok bytes => if bytes.isEmpty then .error (.emptyFile p) else .ok ()

/-- Checks all entries; the first one with an error counts. -/
def Manifest.verify (v : Volume) (m : Manifest) : Except StoreError Unit :=
  m.entries.entries.forM fun (id, p) => verifyEntry v id p

end Scorecard
