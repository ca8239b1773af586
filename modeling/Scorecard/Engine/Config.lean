import Scorecard.Evaluation.Basic
import Scorecard.Store.Persist
import Scorecard.Toml.Document

/-!
# Configuration

How many workers and writers a run has, and where its evidence is kept. Whatever a
configuration leaves out has a default.
-/

namespace Scorecard

open Decode

/-- The configuration of an engine. -/
structure Config where
  evaluatorWorkers : Nat
  maxConcurrentWrites : Nat
  evidenceRoot : Path
  deriving DecidableEq, Repr

namespace Config

/-- The configuration that leaves everything out. -/
def standard : Config :=
  ⟨Evaluator.defaultWorkers, Store.defaultConcurrent, ⟨"gradewise-evidence"⟩⟩

/-- Reads a configuration. -/
def decode : Decoder Config :=
  Record.decode
    (Record.make Config.mk
      |>.defaulted "evaluator_workers" size standard.evaluatorWorkers
      |>.defaulted "max_concurrent_writes" size standard.maxConcurrentWrites
      |>.defaulted "evidence_root" Evidence.decodePath standard.evidenceRoot)
    "EngineConfig" false

/-- The configuration of a TOML text. -/
def ofToml (text : String) : Except Misreading Config :=
  match Toml.parse? text with
  | none => .error .noDocument
  | some v => (decode .toml v).mapError (.misfit .toml)

/-- The configuration as a document. -/
def toJson (c : Config) : Json :=
  .obj [
    ("evaluator_workers", .ofNat c.evaluatorWorkers),
    ("max_concurrent_writes", .ofNat c.maxConcurrentWrites),
    ("evidence_root", .str c.evidenceRoot.text)]

end Config

end Scorecard
