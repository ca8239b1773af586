import Scorecard.Proofs.Path

/-!
# Volumes that grow

Making folders and putting a file into its place take nothing away: folders stay folders, and away
from the place of the file all that stood somewhere stays as it was. So a path that can be followed
can still be followed afterwards, and a file that is out of the way can still be read.

* `Volume.resolve_eq_ok`: a path that can be followed leads to its location.
* `Volume.contents_eq_ok_iff`: what it takes to read a file.
* `Volume.Grows`: what making folders and putting files into place does to a volume.
* `Volume.Grows.contents`: a file out of the way can still be read.
* `Volume.grows_makeFolders`, `Volume.save_eq_ok`: what the changes do.
-/

namespace Scorecard.Volume

variable {v v' v'' : Volume} {p : Path} {loc : Location} {bytes : ByteArray}

/-! ### Folders -/

theorem isFolder_iff_get? : v.isFolder loc = true ↔ loc = [] ∨ v.get? loc = some .folder := by
  rw [isFolder, Bool.or_eq_true, List.isEmpty_iff, decide_eq_true_iff]

theorem isFolder_congr (h : v.get? loc = v'.get? loc) : v.isFolder loc = v'.isFolder loc := by
  unfold isFolder
  rw [h]

/-- What a folder lies in is a folder. -/
theorem isFolder_dropLast (h : v.isFolder loc = true) : v.isFolder loc.dropLast = true := by
  rcases List.eq_nil_or_concat loc with rfl | ⟨folder, name, rfl⟩
  · exact h
  · rw [List.concat_eq_append] at h ⊢
    rw [List.dropLast_concat, isFolder_iff_get?]
    rcases isFolder_iff_get?.1 h with hnil | hget
    · exact absurd hnil (List.append_ne_nil_of_right_ne_nil _ (List.cons_ne_nil _ _))
    · -- Whatever stands somewhere has a folder around it.
      apply v.rooted folder name
      change (v.get? (folder ++ [name])).isSome = true
      rw [hget]
      rfl

theorem fileAt?_eq_some_iff : v.fileAt? loc = some bytes ↔ v.get? loc = some (.file bytes) := by
  unfold fileAt?
  split
  · next stored hget => rw [hget, Option.some.injEq, Option.some.injEq, Node.file.injEq]
  · next hnot =>
    constructor
    · intro h
      exact nomatch h
    · intro h
      exact absurd h (hnot bytes)

/-! ### Following a path -/

/-- A step can be taken from a folder only, and leads where the segment says. -/
theorem enter_eq_ok {segment : String} {at_ : Location}
    (h : v.enter at_ segment = .ok loc) :
    v.isFolder at_ = true ∧ loc = Path.walk at_ segment := by
  unfold enter at h
  unfold Path.walk
  split at h
  · next hfolder =>
    refine ⟨hfolder, ?_⟩
    split at h
    · next hhere =>
      rw [if_pos hhere]
      exact (Except.ok.inj h).symm
    · next hhere =>
      rw [if_neg hhere]
      split at h
      · next hup =>
        rw [if_pos hup]
        exact (Except.ok.inj h).symm
      · next hup =>
        rw [if_neg hup]
        split at h
        · exact nomatch h
        · exact (Except.ok.inj h).symm
  · split at h
    · exact nomatch h
    · exact nomatch h

/-- Whether a step can be taken depends only on its start being a folder. -/
theorem enter_congr {segment : String} {at_ : Location} (h : v.isFolder at_ = true)
    (h' : v'.isFolder at_ = true) : v'.enter at_ segment = v.enter at_ segment := by
  unfold enter
  rw [if_pos h, if_pos h']

/-- The place to which a step leads lies in a folder. -/
private theorem isFolder_dropLast_of_enter {segment : String} {at_ : Location}
    (h : v.enter at_ segment = .ok loc) : v.isFolder loc.dropLast = true := by
  obtain ⟨hfolder, rfl⟩ := enter_eq_ok h
  unfold Path.walk
  split
  · exact isFolder_dropLast hfolder
  · split
    · exact isFolder_dropLast (isFolder_dropLast hfolder)
    · rw [List.dropLast_concat]
      exact hfolder

theorem follow_cons (at_ : Location) (segment : String) (segments : List String) :
    v.follow at_ (segment :: segments)
      = v.enter at_ segment >>= fun loc => v.follow loc segments := rfl

/-- Segments that can be followed lead where they say, and that place lies in a folder. -/
theorem follow_eq_ok {segments : List String} {at_ : Location}
    (hat : v.isFolder at_.dropLast = true) (h : v.follow at_ segments = .ok loc) :
    loc = segments.foldl Path.walk at_ ∧ v.isFolder loc.dropLast = true := by
  -- The place reached lies in a folder at every step, although only its parent has been looked at.
  induction segments generalizing at_ with
  | nil =>
    cases h
    exact ⟨rfl, hat⟩
  | cons segment segments ih =>
    rw [follow_cons, Except.bind_eq_ok_iff] at h
    obtain ⟨next, henter, hrest⟩ := h
    obtain ⟨-, hnext⟩ := enter_eq_ok henter
    rw [List.foldl_cons, ← hnext]
    exact ih (isFolder_dropLast_of_enter henter) hrest

theorem resolve_eq_ok_iff :
    v.resolve p = .ok loc ↔ checkPath p = .ok () ∧ v.follow [] p.segments = .ok loc ∧
      (p.endsInSlash = true → v.isFolder loc = true) := by
  unfold resolve
  rw [Except.bind_eq_ok_iff]
  constructor
  · rintro ⟨⟨⟩, hcheck, h⟩
    obtain ⟨loc', hfollow, h⟩ := Except.bind_eq_ok_iff.1 h
    split at h
    · exact nomatch h
    · next hslash =>
      cases h
      refine ⟨hcheck, hfollow, fun hend => ?_⟩
      -- A slash at the end has been answered with a fault, unless a folder is there.
      by_contra hfolder
      exact hslash (by rw [hend, Bool.eq_false_iff.2 hfolder]; rfl)
  · rintro ⟨hcheck, hfollow, hslash⟩
    refine ⟨(), hcheck, Except.bind_eq_ok_iff.2 ⟨loc, hfollow, if_neg fun h => ?_⟩⟩
    obtain ⟨hend, hfolder⟩ := Bool.and_eq_true_iff.1 h
    rw [hslash hend] at hfolder
    exact nomatch hfolder

/-- A path that can be followed leads to its location, which lies in a folder. -/
theorem resolve_eq_ok (h : v.resolve p = .ok loc) :
    loc = p.location ∧ v.isFolder loc.dropLast = true :=
  follow_eq_ok (isFolder_iff_get?.2 (.inl rfl)) (resolve_eq_ok_iff.1 h).2.1

/-- A file can be read if its path can be followed and leads to a file below the top. -/
theorem contents_eq_ok_iff :
    v.contents p = .ok bytes ↔
      v.resolve p = .ok p.location ∧ p.location ≠ [] ∧ v.fileAt? p.location = some bytes := by
  unfold contents contentsAt
  rw [Except.bind_eq_ok_iff]
  constructor
  · rintro ⟨loc, hresolve, h⟩
    obtain ⟨rfl, -⟩ := resolve_eq_ok hresolve
    split at h
    · cases h
    · next hnot =>
      refine ⟨hresolve, fun hnil => hnot (isFolder_iff_get?.2 (.inl hnil)), ?_⟩
      split at h
      · next stored hstored => rw [hstored, Except.ok.inj h]
      · cases h
  · rintro ⟨hresolve, hne, hfile⟩
    refine ⟨p.location, hresolve, ?_⟩
    -- Where a file stands below the top there is no folder.
    have hnot : ¬ v.isFolder p.location = true := by
      rw [isFolder_iff_get?, fileAt?_eq_some_iff.1 hfile]
      rintro (hnil | hfolder)
      · exact hne hnil
      · cases hfolder
    rw [if_neg hnot, hfile]

/-! ### Growing -/

/-- A volume that has grown out of another one: folders stay, and away from some locations nothing
that stood somewhere has changed and only folders have come. -/
structure Grows (touched : Location → Prop) (v v' : Volume) : Prop where
  folder : ∀ {loc}, v.get? loc = some .folder → v'.get? loc = some .folder
  elsewhere : ∀ {loc}, ¬ touched loc →
    v'.get? loc = v.get? loc ∨ (v.get? loc = none ∧ v'.get? loc = some .folder)

variable {touched : Location → Prop}

theorem Grows.refl (touched : Location → Prop) (v : Volume) : Grows touched v v :=
  ⟨fun h => h, fun _ => .inl rfl⟩

theorem Grows.trans (h : Grows touched v v') (h' : Grows touched v' v'') :
    Grows touched v v'' := by
  refine ⟨fun hfolder => h'.folder (h.folder hfolder), fun hloc => ?_⟩
  -- What comes is a folder, and a folder stays.
  rcases h'.elsewhere hloc with heq | ⟨hnone, hfolder⟩
  · rw [heq]
    exact h.elsewhere hloc
  · rcases h.elsewhere hloc with heq | ⟨-, hold⟩
    · exact .inr ⟨heq ▸ hnone, hfolder⟩
    · rw [hold] at hnone
      exact nomatch hnone

theorem Grows.isFolder (h : Grows touched v v') (hfolder : v.isFolder loc = true) :
    v'.isFolder loc = true :=
  isFolder_iff_get?.2 ((isFolder_iff_get?.1 hfolder).imp_right h.folder)

/-- A file out of the way stays. -/
theorem Grows.fileAt? (h : Grows touched v v') (hloc : ¬ touched loc)
    (hfile : v.fileAt? loc = some bytes) : v'.fileAt? loc = some bytes := by
  rw [fileAt?_eq_some_iff] at hfile ⊢
  rcases h.elsewhere hloc with heq | ⟨hnone, -⟩
  · rw [heq, hfile]
  · rw [hfile] at hnone
    exact nomatch hnone

/-- Away from the locations touched there are the same files as before. -/
theorem Grows.fileAt?_eq (h : Grows touched v v') (hloc : ¬ touched loc) :
    v'.fileAt? loc = v.fileAt? loc := by
  unfold Volume.fileAt?
  rcases h.elsewhere hloc with heq | ⟨hnone, hfolder⟩
  · rw [heq]
  · rw [hnone, hfolder]

/-- Segments that can be followed can still be followed. -/
theorem Grows.follow (h : Grows touched v v') {segments : List String} {at_ : Location}
    (hfollow : v.follow at_ segments = .ok loc) : v'.follow at_ segments = .ok loc := by
  induction segments generalizing at_ with
  | nil => exact hfollow
  | cons segment segments ih =>
    rw [follow_cons, Except.bind_eq_ok_iff] at hfollow
    obtain ⟨next, henter, hrest⟩ := hfollow
    have hfolder := (enter_eq_ok henter).1
    rw [follow_cons, enter_congr hfolder (h.isFolder hfolder), henter]
    exact ih hrest

/-- A path that can be followed can still be followed. -/
theorem Grows.resolve (h : Grows touched v v') (hresolve : v.resolve p = .ok loc) :
    v'.resolve p = .ok loc := by
  obtain ⟨hcheck, hfollow, hslash⟩ := resolve_eq_ok_iff.1 hresolve
  exact resolve_eq_ok_iff.2 ⟨hcheck, h.follow hfollow, fun hend => h.isFolder (hslash hend)⟩

/-- A file out of the way can still be read. -/
theorem Grows.contents (h : Grows touched v v') (hloc : ¬ touched p.location)
    (hcontents : v.contents p = .ok bytes) : v'.contents p = .ok bytes := by
  obtain ⟨hresolve, hne, hfile⟩ := contents_eq_ok_iff.1 hcontents
  exact contents_eq_ok_iff.2 ⟨h.resolve hresolve, hne, h.fileAt? hloc hfile⟩

/-! ### Making folders -/

/-- A new folder comes where nothing stood. -/
theorem grows_addFolder (touched : Location → Prop) (v : Volume) (folder : Location)
    (name : String) : Grows touched v (v.addFolder folder name) := by
  by_cases h : v.isFolder folder = true ∧ v.get? (folder ++ [name]) = none
  · have hget := get?_addFolder h.1 h.2
    refine ⟨fun {loc} hloc => ?_, fun {loc} _ => ?_⟩
    · rw [hget]
      split
      · rfl
      · exact hloc
    · rw [hget]
      split
      · next hloc => exact .inr ⟨hloc ▸ h.2, rfl⟩
      · exact .inl rfl
  · -- Where the name is taken, or no folder is around it, nothing is added.
    have hsame : v.addFolder folder name = v := dif_neg h
    rw [hsame]
    exact .refl _ _

/-- A new folder stages nothing. -/
private theorem staged_addFolder (v : Volume) (folder : Location) (name : String) :
    (v.addFolder folder name).staged = v.staged := by
  unfold addFolder
  split
  · rfl
  · rfl

/-- Making folders along segments changes nothing that stood somewhere, and stages nothing. -/
private theorem makeFoldersFrom_spec (v : Volume) (at_ : Location) (segments : List String) :
    Grows touched v (v.makeFoldersFrom at_ segments).1 ∧
      (v.makeFoldersFrom at_ segments).1.staged = v.staged := by
  induction segments generalizing v at_ with
  | nil => exact ⟨.refl _ _, rfl⟩
  | cons segment rest ih =>
    unfold makeFoldersFrom
    split
    · exact ⟨.refl _ _, rfl⟩
    · next loc _ =>
      split
      · exact ih v loc
      · split
        · exact ⟨.refl _ _, rfl⟩
        · -- Only here has the volume changed, by the one folder that was missing.
          obtain ⟨hgrows, hstaged⟩ := ih (v.addFolder at_ segment) loc
          exact ⟨(grows_addFolder touched v at_ segment).trans hgrows,
            hstaged.trans (staged_addFolder v at_ segment)⟩

/-- Making folders changes nothing that stood somewhere, and stages nothing. -/
theorem grows_makeFolders (touched : Location → Prop) (v : Volume) (p : Path) :
    Grows touched v (v.makeFolders p).1 ∧ (v.makeFolders p).1.staged = v.staged := by
  unfold makeFolders
  split
  · exact ⟨.refl _ _, rfl⟩
  · split
    · exact ⟨.refl _ _, rfl⟩
    · exact makeFoldersFrom_spec v [] p.segments

/-! ### Putting a file into place -/

/-- Where no folder stands, a file can be put into the folder around the place. It shows there and
nowhere else, and nothing is staged. -/
theorem exists_putFileAt (hfolder : v.isFolder loc.dropLast = true)
    (hfree : v.isFolder loc = false) (bytes : ByteArray) :
    ∃ v', v.putFileAt loc bytes = .ok v' ∧ v'.staged = v.staged ∧
      ∀ loc', v'.get? loc' = if loc' = loc then some (.file bytes) else v.get? loc' := by
  have hnot : ¬ (loc = [] ∨ v.get? loc = some .folder) := by
    rw [← isFolder_iff_get?, hfree]
    exact Bool.false_ne_true
  rcases List.eq_nil_or_concat loc with rfl | ⟨folder, name, rfl⟩
  · exact absurd (.inl rfl) hnot
  rw [List.concat_eq_append] at hfolder hfree hnot ⊢
  rw [List.dropLast_concat] at hfolder
  have hput : v.putFileAt (folder ++ [name]) bytes = .ok (v.putFile folder name bytes) := by
    unfold putFileAt
    rw [if_neg (by rw [hfree]; exact Bool.false_ne_true), List.getLast?_concat]
    simp only
    rw [List.dropLast_concat]
  refine ⟨_, hput, ?_, get?_putFile hfolder fun hget => hnot (.inr hget)⟩
  unfold putFile
  split
  · rfl
  · rfl

/-- A file written where a path leads shows there and nowhere else. It takes no folder's place, and
nothing is staged. -/
theorem get?_save (h : v.save p bytes = .ok v') :
    v.isFolder p.location = false ∧ v'.staged = v.staged ∧
      ∀ loc, v'.get? loc = if loc = p.location then some (.file bytes) else v.get? loc := by
  unfold save at h
  obtain ⟨loc, hresolve, h⟩ := Except.bind_eq_ok_iff.1 h
  obtain ⟨rfl, hfolder⟩ := resolve_eq_ok hresolve
  cases hfree : v.isFolder p.location with
  | true =>
    rw [putFileAt, if_pos hfree] at h
    exact nomatch h
  | false =>
    obtain ⟨put, hput, hstaged, hget⟩ := exists_putFileAt hfolder hfree bytes
    cases hput.symm.trans h
    exact ⟨rfl, hstaged, hget⟩

/-- A file written where a path leads stands there, all else is as it was, and nothing is
staged. -/
theorem save_eq_ok (h : v.save p bytes = .ok v') :
    v'.fileAt? p.location = some bytes ∧ Grows (· = p.location) v v' ∧ v'.staged = v.staged := by
  obtain ⟨hfree, hstaged, hget⟩ := get?_save h
  refine ⟨?_, ⟨fun {loc} hloc => ?_, fun {loc} hne => ?_⟩, hstaged⟩
  · rw [fileAt?_eq_some_iff, hget, if_pos rfl]
  · -- The location is no folder, so that no folder has been replaced.
    have hne : loc ≠ p.location := by
      rintro rfl
      rw [isFolder_iff_get?.2 (.inr hloc)] at hfree
      exact nomatch hfree
    rw [hget, if_neg hne]
    exact hloc
  · rw [hget, if_neg hne]
    exact .inl rfl

/-- What has been written can be read. -/
theorem contents_save (h : v.save p bytes = .ok v') : v'.contents p = .ok bytes := by
  obtain ⟨hfile, hgrows, -⟩ := save_eq_ok h
  obtain ⟨hfree, -, -⟩ := get?_save h
  obtain ⟨loc, hresolve, -⟩ := Except.bind_eq_ok_iff.1 h
  obtain ⟨rfl, -⟩ := resolve_eq_ok hresolve
  refine contents_eq_ok_iff.2 ⟨hgrows.resolve hresolve, fun htop => ?_, hfile⟩
  rw [isFolder_iff_get?.2 (.inl htop)] at hfree
  exact nomatch hfree

/-! ### What is staged -/

/-- What stands at each location tells a volume, together with what is staged. -/
theorem ext_get? (h : ∀ loc, v.get? loc = v'.get? loc) (hstaged : v.staged = v'.staged) : v = v' :=
  Volume.ext (Table.ext_get? h) hstaged

/-- What is staged shows under its own ticket only. -/
theorem get?_staged_addStaged (v : Volume) (ticket : Nat) (s : Staged) (k : Nat) :
    (v.addStaged ticket s).staged.get? k = if k = ticket then some s else v.staged.get? k :=
  Table.get?_insert ..

theorem get?_staged_dropStaged (v : Volume) (ticket k : Nat) :
    (v.dropStaged ticket).staged.get? k = if k = ticket then none else v.staged.get? k :=
  Table.get?_erase ..

/-- What has been staged under a ticket is dropped with it. -/
theorem dropStaged_addStaged (v : Volume) (ticket : Nat) (s : Staged) :
    (v.addStaged ticket s).dropStaged ticket = v.dropStaged ticket := by
  -- What stands on the volume is the same on both sides by definition.
  refine ext_get? (fun _ => rfl) (Table.ext_get? fun k => ?_)
  rw [get?_staged_dropStaged, get?_staged_dropStaged]
  split
  · rfl
  · next hk => rw [get?_staged_addStaged, if_neg hk]

/-- Nothing is dropped where nothing is staged. -/
theorem dropStaged_eq_self {ticket : Nat} (h : v.staged.get? ticket = none) :
    v.dropStaged ticket = v := by
  refine ext_get? (fun _ => rfl) (Table.ext_get? fun k => ?_)
  rw [get?_staged_dropStaged]
  split
  · next hk => rw [hk, h]
  · rfl

end Scorecard.Volume
