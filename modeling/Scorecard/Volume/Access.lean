import Scorecard.Volume.Basic
import Scorecard.Volume.Path

/-!
# Access by paths

A path is followed segment by segment from the top, a relative path too. Each step has to
start from a folder; two points lead to the folder around it. A name may have up to 255
bytes and a path up to 4095, and neither may hold the character zero.

Nothing else can keep a path from being followed: a volume has no symbolic links that would
lead elsewhere, and no permissions that could be missing. So a path leads to the location that
its segments spell out, or nowhere. Links are added by `Disk`.

* `Volume.resolve`: the location a path leads to.
* `Volume.makeFolders`, `Volume.contents`, `Volume.save`, `Volume.contentsText`.
-/

namespace Scorecard.Volume

/-- Why a path cannot be used as intended. -/
inductive Fault
  | missing
  | noFolder
  | isFolder
  | tooLong
  /-- The path holds the character zero. -/
  | unusable
  /-- The file's bytes are no text. -/
  | noText
  /-- More links have to be followed than may be. -/
  | tooManyLinks
  deriving DecidableEq, Repr

/-- The wording of a fault. -/
def Fault.message : Fault → String
  | missing => "no such file or folder"
  | noFolder => "not a folder"
  | isFolder => "is a folder"
  | tooLong => "name too long"
  | unusable => "path holds the character zero"
  | noText => "file holds no text"
  | tooManyLinks => "too many links on the way"

/-- The greatest number of bytes in a name. -/
def maxNameBytes : Nat := 255

/-- The greatest number of bytes in a path. -/
def maxPathBytes : Nat := 4095

/-- Checks what can be said of a path without a volume. -/
def checkPath (p : Path) : Except Fault Unit :=
  if p.text.toList.contains '\x00' then .error .unusable
  else if maxPathBytes < p.text.utf8ByteSize then .error .tooLong
  else if p.text.isEmpty then .error .missing
  else .ok ()

/-- Goes one segment on from a location, which has to be a folder. -/
def enter (v : Volume) (at_ : Location) (segment : String) : Except Fault Location :=
  if v.isFolder at_ then
    if segment = "." then .ok at_
    else if segment = ".." then .ok at_.dropLast
    else if maxNameBytes < segment.utf8ByteSize then .error .tooLong
    else .ok (at_ ++ [segment])
  else if (v.get? at_).isSome then .error .noFolder
  else .error .missing

/-- The location to which segments lead from another location. -/
def follow (v : Volume) (at_ : Location) (segments : List String) : Except Fault Location :=
  segments.foldlM v.enter at_

/-- The location to which a path leads. Nothing has to stand there, but the folder around it
has to. -/
def resolve (v : Volume) (p : Path) : Except Fault Location := do
  checkPath p
  let loc ← v.follow [] p.segments
  if p.endsInSlash && !v.isFolder loc then .error .noFolder else return loc

/-- The bytes of the file at the location, if there is one. -/
def contentsAt (v : Volume) (loc : Location) : Except Fault ByteArray :=
  if v.isFolder loc then .error .isFolder
  else match v.fileAt? loc with
    | some bytes => .ok bytes
    | none => .error .missing

/-- The bytes of the file to which the path leads. -/
def contents (v : Volume) (p : Path) : Except Fault ByteArray := do
  v.contentsAt (← v.resolve p)

/-- The text of the file to which the path leads. -/
def contentsText (v : Volume) (p : Path) : Except Fault String := do
  match String.fromUTF8? (← v.contents p) with
  | some text => return text
  | none => .error .noText

/-- Puts a file at a location. -/
def putFileAt (v : Volume) (loc : Location) (bytes : ByteArray) : Except Fault Volume :=
  if v.isFolder loc then .error .isFolder
  else match loc.getLast? with
    | none => .error .isFolder
    | some name => .ok (v.putFile loc.dropLast name bytes)

/-- A file put at a location shows there and nowhere else. -/
theorem get?_putFileAt_of_ne {v v' : Volume} {loc loc' : Location} {bytes : ByteArray}
    (h : v.putFileAt loc bytes = .ok v') (hne : loc' ≠ loc) : v'.get? loc' = v.get? loc' := by
  unfold putFileAt at h
  split at h
  · exact nomatch h
  · split at h
    · exact nomatch h
    · next name hlast =>
      obtain ⟨front, rfl⟩ := List.getLast?_eq_some_iff.1 hlast
      cases h
      rw [List.dropLast_concat]
      exact get?_putFile_of_ne hne

/-- Writes a file where the path leads, in the place of one that stands there. -/
def save (v : Volume) (p : Path) (bytes : ByteArray) : Except Fault Volume := do
  v.putFileAt (← v.resolve p) bytes

/-- Makes the folders that are missing along the segments from a location on. Those made
before a fault stay. -/
def makeFoldersFrom (v : Volume) (at_ : Location) : List String → Volume × Except Fault Unit
  | [] => (v, if v.isFolder at_ then .ok () else .error .noFolder)
  | segment :: rest =>
    match v.enter at_ segment with
    | .error f => (v, .error f)
    | .ok loc =>
      if v.isFolder loc then v.makeFoldersFrom loc rest
      else if (v.get? loc).isSome then (v, .error .noFolder)
      else (v.addFolder at_ segment).makeFoldersFrom loc rest

/-- Makes the folder to which the path leads and those around it, where they are missing. -/
def makeFolders (v : Volume) (p : Path) : Volume × Except Fault Unit :=
  if p.text.isEmpty then (v, .ok ())
  else match checkPath p with
    | .error f => (v, .error f)
    | .ok () => v.makeFoldersFrom [] p.segments

/-- Removes what the path leads to. -/
def removeAt (v : Volume) (p : Path) : Except Fault Volume := do
  let loc ← v.resolve p
  if (v.get? loc).isSome then return v.remove loc else .error .missing

/-! ### Listings -/

/-- Everything below a location: paths as seen from there, folders with a slash at their end,
and the bytes of the files. The paths are in ascending order. -/
def listing (v : Volume) (loc : Location) : List (String × Option ByteArray) :=
  let below := v.nodes.entries.filterMap fun (l, node) =>
    match Path.dropFront loc l with
    | none | some [] => none
    | some names =>
      let path := String.intercalate "/" names
      match node with
      | .folder => some (path ++ "/", none)
      | .file bytes => some (path, some bytes)
  (Table.ofList below).entries

end Scorecard.Volume
