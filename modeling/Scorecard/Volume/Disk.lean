import Scorecard.Volume.FileSystem

/-!
# Disks

On a disk there are links beside the folders and files of a volume. A link holds a path, which is
taken from the folder of the link, or from the top if it is absolute. Whoever goes on from a link,
reads what is there, or asks for a folder, follows the path; at most forty links are followed for
one path. Whoever puts a file where a link is puts it in the place of the link; and a folder cannot
be made there, even if the link leads nowhere.

* `Disk.resolve`: the location a path leads to, `Disk.entry`: the location that it names.
* `Disk.makeFolders`, `Disk.save`, `Disk.contents`: what writing files takes.
* `Disk.addLink`: puts a link where nothing stands.
-/

namespace Scorecard

/-- A volume with links. -/
@[ext] structure Disk where
  volume : Volume
  links : Table Location Path
  /-- Where a link is there is nothing else. -/
  apart : ∀ {loc}, (links.get? loc).isSome → loc ≠ [] ∧ volume.get? loc = none

namespace Disk

open Volume (Fault)

/-- The disk without links. -/
def ofVolume (v : Volume) : Disk := ⟨v, .empty, by simp⟩

/-! ### Following links -/

/-- The greatest number of links that are followed for one path. -/
def maxLinks : Nat := 40

/-- The segments that lead on from the folder of a link. -/
def segmentsOf (target : Path) : List String :=
  if target.endsInSlash then target.segments ++ ["."] else target.segments

/-- The location to which segments lead from another location; `jump` goes on from a link. -/
def followTo (d : Disk) (jump : Location → List String → Except Fault Location) (at_ : Location) :
    List String → Except Fault Location
  | [] => .ok at_
  | segment :: rest => do
    let loc ← d.volume.enter at_ segment
    match d.links.get? loc with
    | none => d.followTo jump loc rest
    | some target => jump (if target.isAbsolute then [] else at_) (segmentsOf target ++ rest)

/-- The location to which segments lead from another location, over at most `n` links. -/
def follow (d : Disk) : (n : Nat) → Location → List String → Except Fault Location
  | 0 => d.followTo fun _ _ => .error .tooManyLinks
  | n + 1 => d.followTo (d.follow n)

/-- The location to which a path leads. A link at its end is followed. -/
def resolve (d : Disk) (p : Path) : Except Fault Location := do
  Volume.checkPath p
  let loc ← d.follow maxLinks [] p.segments
  if p.endsInSlash && !d.volume.isFolder loc then .error .noFolder else return loc

/-- The location that a path names. A link at its end is not followed, unless a slash comes after
it. -/
def entry (d : Disk) (p : Path) : Except Fault Location :=
  match p.segments.getLast?, p.endsInSlash with
  | some name, false => do
    Volume.checkPath p
    d.volume.enter (← d.follow maxLinks [] p.segments.dropLast) name
  | _, _ => d.resolve p

/-! ### Changing -/

/-- Makes a folder of that name in a folder, where nothing has that name. -/
def addFolder (d : Disk) (folder : Location) (name : String) : Disk :=
  if h : (d.links.get? (folder ++ [name])).isSome then d
  else ⟨d.volume.addFolder folder name, d.links, fun {loc} hlink => by
    obtain ⟨hne, hnone⟩ := d.apart hlink
    have hother : loc ≠ folder ++ [name] := fun heq => h (heq ▸ hlink)
    exact ⟨hne, (Volume.get?_addFolder_of_ne hother).trans hnone⟩⟩

/-- Puts a file at a location, in the place of a link that is there. -/
def putFileAt (d : Disk) (loc : Location) (bytes : ByteArray) : Except Fault Disk :=
  match h : d.volume.putFileAt loc bytes with
  | .error f => .error f
  | .ok v => .ok ⟨v, d.links.erase loc, fun {loc'} hlink => by
    rw [Table.get?_erase] at hlink
    split at hlink
    · exact nomatch hlink
    · next hother =>
      obtain ⟨hne, hnone⟩ := d.apart hlink
      exact ⟨hne, (Volume.get?_putFileAt_of_ne h hother).trans hnone⟩⟩

/-- Puts a link of that name into a folder, where nothing has that name. -/
def addLink (d : Disk) (folder : Location) (name : String) (target : Path) : Disk :=
  if h : d.volume.get? (folder ++ [name]) = none then
    ⟨d.volume, d.links.insert (folder ++ [name]) target, fun {loc} hlink => by
      rw [Table.get?_insert] at hlink
      split at hlink
      · next heq => exact ⟨by simp [heq], heq ▸ h⟩
      · exact d.apart hlink⟩
  else d

/-- Makes the folders that are missing along the segments that come after those that lead from the
top to a location. Those made before a fault stay. -/
def makeFoldersFrom (d : Disk) (before : List String) (at_ : Location) :
    List String → Disk × Except Fault Unit
  | [] => (d, if d.volume.isFolder at_ then .ok () else .error .noFolder)
  | segment :: rest =>
    match d.follow maxLinks [] (before ++ [segment]) with
    | .error f => (d, .error f)
    | .ok loc =>
      if d.volume.isFolder loc then d.makeFoldersFrom (before ++ [segment]) loc rest
      else if (d.volume.get? loc).isSome || (d.links.get? (at_ ++ [segment])).isSome then
        (d, .error .noFolder)
      else (d.addFolder at_ segment).makeFoldersFrom (before ++ [segment]) loc rest

/-- Makes the folder to which the path leads and those around it, where they are missing. -/
def makeFolders (d : Disk) (p : Path) : Disk × Except Fault Unit :=
  if p.text.isEmpty then (d, .ok ())
  else match Volume.checkPath p with
    | .error f => (d, .error f)
    | .ok () => d.makeFoldersFrom [] [] p.segments

instance : FileSystem Disk where
  makeFolders := makeFolders
  resolve := resolve
  isFolder d := d.volume.isFolder
  addStaged d ticket s := ⟨d.volume.addStaged ticket s, d.links, d.apart⟩
  staged? d := d.volume.staged.get?
  dropStaged d ticket := ⟨d.volume.dropStaged ticket, d.links, d.apart⟩
  save d p bytes := do d.putFileAt (← d.entry p) bytes
  contents d p := do d.volume.contentsAt (← d.resolve p)

end Disk

end Scorecard
