import Scorecard.Volume.Access

/-!
# File systems

What it takes to write a file so that nobody sees a part of it. Volumes are file systems of this
kind, and so are disks, which have links beside folders and files.

* `FileSystem`: the operations.
-/

namespace Scorecard

/-- The operations that writing files takes. -/
class FileSystem (σ : Type) where
  /-- Makes the folder to which the path leads and those around it, where they are missing. -/
  makeFolders : σ → Path → σ × Except Volume.Fault Unit
  /-- The location to which a path leads. -/
  resolve : σ → Path → Except Volume.Fault Location
  /-- Whether there is a folder at the location. -/
  isFolder : σ → Location → Bool
  /-- Stages a file for a folder under a ticket. -/
  addStaged : σ → Nat → Staged → σ
  /-- The file staged under a ticket. -/
  staged? : σ → Nat → Option Staged
  /-- Drops the file staged under a ticket. -/
  dropStaged : σ → Nat → σ
  /-- Writes a file where the path leads, in the place of one that stands there. -/
  save : σ → Path → ByteArray → Except Volume.Fault σ
  /-- The bytes of the file to which the path leads. -/
  contents : σ → Path → Except Volume.Fault ByteArray

instance : FileSystem Volume where
  makeFolders := Volume.makeFolders
  resolve := Volume.resolve
  isFolder := Volume.isFolder
  addStaged := Volume.addStaged
  staged? v := v.staged.get?
  dropStaged := Volume.dropStaged
  save := Volume.save
  contents := Volume.contents

end Scorecard
