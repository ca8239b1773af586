import Scorecard.Score.Codec
import Scorecard.Store.Record

/-!
# Score files

A score is written as a document and its summary as a text.

* `ScoreOutput.write`, `ScoreOutput.writeSummary`, `ScoreOutput.ofFile`.
-/

namespace Scorecard

/-- What a score file was being used for. -/
inductive ScoreFileUse
  | write
  | read
  | parse
  deriving DecidableEq, Repr

/-- Why a score file could not be used. -/
inductive ScoreFileCause
  | io (fault : Volume.Fault)
  | serialization (m : Decode.Misreading)
  deriving DecidableEq

/-- A score file that could not be used. -/
structure ScoreFileError where
  use : ScoreFileUse
  path : Path
  cause : ScoreFileCause
  deriving DecidableEq

/-- The wording of an error, without its cause. -/
def ScoreFileError.message (e : ScoreFileError) : String :=
  (match e.use with
    | .write => "write "
    | .read => "read "
    | .parse => "parse score output ") ++ Text.quote e.path.text

namespace ScoreOutput

/-- The text of a score's file. -/
def fileText (o : ScoreOutput) : String := o.toJson.pretty

/-- Writes a text where the path leads. -/
def writeText (v : Volume) (p : Path) (text : String) : Except ScoreFileError Volume :=
  (v.save p text.toUTF8).mapError fun f => ⟨.write, p, .io f⟩

/-- Writes a score where the path leads. -/
def write (v : Volume) (p : Path) (o : ScoreOutput) : Except ScoreFileError Volume :=
  writeText v p o.fileText

/-- Writes the summary that a score holds where the path leads. -/
def writeSummary (v : Volume) (p : Path) (o : ScoreOutput) : Except ScoreFileError Volume :=
  writeText v p o.summary

/-- The score in the file to which the path leads. -/
def ofFile (v : Volume) (p : Path) : Except ScoreFileError ScoreOutput := do
  let text ← (v.contentsText p).mapError fun f => ⟨.read, p, .io f⟩
  (Decode.ofText decode text).mapError fun m => ⟨.parse, p, .serialization m⟩

end ScoreOutput

end Scorecard
