import Scorecard.Table

/-!
# Volumes

A volume is a tree of folders and files, given by what stands at each location: the list of
names that leads to it from the top. Everything lies in a folder.

A volume stands for a file system that has folders and regular files and nothing else. There are
no symbolic links in it and no second names for a file, no owners and no permissions; names are
told apart as they are written, and there is always room for more. `Disk` adds symbolic links.

Beside the tree a volume holds the files that are staged: they have been written under names
that nobody else knows, and wait to be placed or dropped.

* `Volume.rooted`: what contains something is a folder.
* `Volume.get?_addFolder`, `Volume.get?_putFile`, `Volume.get?_remove`: a change shows at the
  location changed and nowhere else.
-/

namespace Scorecard

/-- The names that lead to a place from the top. -/
abbrev Location := List String

/-- What stands at a location. -/
inductive Node
  | folder
  | file (bytes : ByteArray)

instance : (node : Option Node) → Decidable (node = some .folder)
  | some .folder => .isTrue rfl
  | some (.file _) => .isFalse nofun
  | none => .isFalse nofun

/-- A file that is written but not yet placed. -/
structure Staged where
  folder : Location
  bytes : ByteArray

/-- A tree of folders and files, and the files staged beside it. -/
@[ext] structure Volume where
  nodes : Table Location Node
  staged : Table Nat Staged
  rooted : ∀ (folder : Location) (name : String),
    (nodes.get? (folder ++ [name])).isSome → folder = [] ∨ nodes.get? folder = some .folder

namespace Volume

/-- The volume with nothing in it. -/
def empty : Volume := ⟨.empty, .empty, by simp⟩

instance : Inhabited Volume := ⟨empty⟩

/-- What stands at a location below the top. -/
def get? (v : Volume) (loc : Location) : Option Node := v.nodes.get? loc

/-- Whether there is a folder at the location; the top is one. -/
def isFolder (v : Volume) (loc : Location) : Bool := loc.isEmpty || v.get? loc = some .folder

/-- The bytes of the file at the location. -/
def fileAt? (v : Volume) (loc : Location) : Option ByteArray :=
  match v.get? loc with
  | some (.file bytes) => some bytes
  | _ => none

/-- A folder is the top or stands in the table as one. -/
private theorem isFolder_iff {v : Volume} {loc : Location} :
    v.isFolder loc = true ↔ loc = [] ∨ v.nodes.get? loc = some .folder := by
  rw [isFolder, Bool.or_eq_true, List.isEmpty_iff, decide_eq_true_iff]
  rfl

/-! ### Changing -/

/-- What is put into a folder keeps everything in folders, if it does not take the place of one. -/
private theorem rooted_insert {v : Volume} {folder : Location} {name : String} {node : Node}
    (hfolder : v.isFolder folder = true)
    (hnode : node = .folder ∨ v.nodes.get? (folder ++ [name]) ≠ some .folder)
    (folder' : Location) (name' : String)
    (h : ((v.nodes.insert (folder ++ [name]) node).get? (folder' ++ [name'])).isSome) :
    folder' = [] ∨ (v.nodes.insert (folder ++ [name]) node).get? folder' = some .folder := by
  rw [Table.get?_insert] at h ⊢
  have hold : folder' = [] ∨ v.nodes.get? folder' = some .folder := by
    split at h
    · next heq => exact (List.append_inj' heq rfl).1 ▸ isFolder_iff.1 hfolder
    · exact v.rooted folder' name' h
  refine hold.imp_right fun hget => ?_
  split
  · next heq =>
    rcases hnode with rfl | hnot
    · rfl
    · exact absurd (heq ▸ hget) hnot
  · exact hget

/-- Makes a folder of that name in a folder, where nothing has that name. -/
def addFolder (v : Volume) (folder : Location) (name : String) : Volume :=
  if h : v.isFolder folder = true ∧ v.nodes.get? (folder ++ [name]) = none then
    ⟨v.nodes.insert (folder ++ [name]) .folder, v.staged,
      rooted_insert h.1 (.inl rfl)⟩
  else v

/-- Puts a file of that name into a folder, unless a folder has that name. -/
def putFile (v : Volume) (folder : Location) (name : String) (bytes : ByteArray) : Volume :=
  if h : v.isFolder folder = true ∧ v.nodes.get? (folder ++ [name]) ≠ some .folder then
    ⟨v.nodes.insert (folder ++ [name]) (.file bytes), v.staged,
      rooted_insert h.1 (.inr h.2)⟩
  else v

/-- Removes what stands at the location, with all it contains. -/
def remove (v : Volume) (loc : Location) : Volume :=
  ⟨v.nodes.filter fun l => !loc.isPrefixOf l, v.staged, fun folder name h => by
    rw [Table.get?_filter] at h ⊢
    split at h
    · next hkeep =>
      refine (v.rooted folder name h).imp_right fun hget => ?_
      have : (!loc.isPrefixOf folder) = true := by
        simp only [Bool.not_eq_true', Bool.eq_false_iff, ne_eq, List.isPrefixOf_iff_prefix]
          at hkeep ⊢
        exact fun hp => hkeep (hp.trans (List.prefix_append _ _))
      simp [this, hget]
    · simp at h⟩

/-- Stages a file for a folder under a ticket. -/
def addStaged (v : Volume) (ticket : Nat) (s : Staged) : Volume :=
  ⟨v.nodes, v.staged.insert ticket s, v.rooted⟩

/-- Drops the file staged under a ticket. -/
def dropStaged (v : Volume) (ticket : Nat) : Volume :=
  ⟨v.nodes, v.staged.erase ticket, v.rooted⟩

/-! ### What a change shows -/

/-- A new folder shows at its own location only. -/
theorem get?_addFolder {v : Volume} {folder : Location} {name : String}
    (hfolder : v.isFolder folder = true) (hfree : v.get? (folder ++ [name]) = none)
    (loc : Location) :
    (v.addFolder folder name).get? loc
      = if loc = folder ++ [name] then some .folder else v.get? loc := by
  rw [addFolder, dif_pos ⟨hfolder, hfree⟩]
  exact Table.get?_insert ..

/-- Elsewhere nothing shows of a new folder, whether it has been made or not. -/
theorem get?_addFolder_of_ne {v : Volume} {folder : Location} {name : String} {loc : Location}
    (h : loc ≠ folder ++ [name]) : (v.addFolder folder name).get? loc = v.get? loc := by
  unfold addFolder
  split
  · exact (Table.get?_insert ..).trans (if_neg h)
  · rfl

/-- Elsewhere nothing shows of a file, whether it has been put in place or not. -/
theorem get?_putFile_of_ne {v : Volume} {folder : Location} {name : String} {bytes : ByteArray}
    {loc : Location} (h : loc ≠ folder ++ [name]) :
    (v.putFile folder name bytes).get? loc = v.get? loc := by
  unfold putFile
  split
  · exact (Table.get?_insert ..).trans (if_neg h)
  · rfl

/-- A file put in place shows at its own location only. -/
theorem get?_putFile {v : Volume} {folder : Location} {name : String} {bytes : ByteArray}
    (hfolder : v.isFolder folder = true) (hnot : v.get? (folder ++ [name]) ≠ some .folder)
    (loc : Location) :
    (v.putFile folder name bytes).get? loc
      = if loc = folder ++ [name] then some (.file bytes) else v.get? loc := by
  rw [putFile, dif_pos ⟨hfolder, hnot⟩]
  exact Table.get?_insert ..

/-- After a removal nothing stands at or below the location, and all else stays. -/
theorem get?_remove (v : Volume) (loc loc' : Location) :
    (v.remove loc).get? loc' = if loc.isPrefixOf loc' then none else v.get? loc' := by
  show (v.nodes.filter _).get? loc' = _
  rw [Table.get?_filter]
  cases loc.isPrefixOf loc' <;> rfl

end Volume

end Scorecard
