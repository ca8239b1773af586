import Scorecard.Volume.Access
import Scorecard.Decode.Fault

/-!
# Errors of the store

Why an evidence item is not kept, or why a kept one cannot be relied on.
-/

namespace Scorecard

/-- What is wrong with a path suggested for an item. -/
inductive PathFlaw
  | leadsUp
  | absolute
  | empty
  deriving DecidableEq, Repr

/-- The wording of a flaw. -/
def PathFlaw.message : PathFlaw → String
  | leadsUp => "contains '..'"
  | absolute => "absolute path"
  | empty => "empty path"

/-- Why an item is not kept or cannot be relied on. -/
inductive StoreError
  | invalidPath (path : Path) (flaw : PathFlaw)
  | duplicateId (id : String)
  | pathConflict (path : Path) (claimedBy : String)
  /-- The place belongs to the index. -/
  | reservedPath (path : Path)
  | io (fault : Volume.Fault)
  | serialization (m : Decode.Misreading)
  | emptyFile (path : Path)
  | digestMismatch (path : Path) (expected actual : String)
  | idMismatch (path : Path) (expected actual : String)
  | missing (id : String) (path : Path)
  deriving DecidableEq

/-- The wording of an error. -/
def StoreError.message : StoreError → String
  | invalidPath path flaw =>
    "refusing to write outside the store root: " ++ path.text ++ " (" ++ flaw.message ++ ")"
  | duplicateId id =>
    "evidence id " ++ Text.quote id ++ " appears more than once in this run"
  | pathConflict path claimedBy =>
    path.text ++ " is already claimed by evidence " ++ Text.quote claimedBy
  | reservedPath path => path.text ++ " is reserved for the evidence index"
  | io fault => "io error: " ++ fault.message
  | serialization m => "serialization error: " ++ m.words
  | emptyFile path => path.text ++ " is empty after writing"
  | digestMismatch path expected actual =>
    path.text ++ " read back with sha256 " ++ actual ++ ", expected " ++ expected
  | idMismatch path expected actual =>
    path.text ++ " holds " ++ Text.quote actual ++ ", expected " ++ Text.quote expected
  | missing id path =>
    "manifest entry " ++ Text.quote id ++ " points at missing file " ++ path.text

end Scorecard
