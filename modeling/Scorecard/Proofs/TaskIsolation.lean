import Scorecard.Proofs.Footprint

/-!
# Tasks that do not notice each other

A task looks at little of its volume: at what stands on the way of its target's folder, at the
target, and at what is staged under its ticket. Compare a volume on which others work too with one
on which the task is alone. As long as the two look the same to the task, its next step comes to
the same result on both and changes both in the same way, so that they look the same afterwards.
The steps of other tasks do not matter to it either, if these put their files out of its way: they
may make some of its folders before it does, but then it finds them as it would have made them.

* `Volume.Copies`: one volume changes as another one does.
* `WriteTask.Sees`: two volumes look the same to a task.
* `WriteTask.Sees.step`: the task's own step, `WriteTask.Sees.of_other`: the step of another one.
* `WriteTask.alone`: the steps of a task on a volume of its own.
-/

open Scorecard.Path (walk LeadsThrough)

namespace Scorecard

namespace Volume

variable {a a' a'' v v' v'' : Volume} {loc : Location}

/-! ### Changing in the same way -/

/-- Where one volume changes the other one comes to the same, and elsewhere it stays as it is. -/
def Copies (a a' v v' : Volume) : Prop :=
  ∀ loc, (a'.get? loc = a.get? loc ∧ v'.get? loc = v.get? loc) ∨ v'.get? loc = a'.get? loc

theorem Copies.refl (a v : Volume) : Copies a a v v := fun _ => .inl ⟨rfl, rfl⟩

theorem Copies.trans (h : Copies a a' v v') (h' : Copies a' a'' v' v'') :
    Copies a a'' v v'' := by
  intro loc
  -- What has changed last decides; where the second change left a location, the first one does.
  rcases h' loc with ⟨ha', hv'⟩ | heq'
  · rcases h loc with ⟨ha, hv⟩ | heq
    · exact .inl ⟨ha'.trans ha, hv'.trans hv⟩
    · exact .inr (hv'.trans (heq.trans ha'.symm))
  · exact .inr heq'

/-- What stands at the location is no folder. -/
def IsFile (v : Volume) (loc : Location) : Prop :=
  ¬ v.isFolder loc = true ∧ (v.get? loc).isSome = true

theorem fileAt?_congr (h : v.get? loc = a.get? loc) : v.fileAt? loc = a.fileAt? loc := by
  unfold fileAt?
  rw [h]

theorem isFile_congr (h : v.get? loc = a.get? loc) : v.IsFile loc ↔ a.IsFile loc := by
  unfold IsFile
  rw [isFolder_congr h, h]

/-- A volume that changes as another one does keeps having all folders of that one. -/
theorem Copies.isFolder (h : Copies a a' v v')
    (hfolder : ∀ {loc}, a.isFolder loc = true → v.isFolder loc = true) {loc : Location}
    (h' : a'.isFolder loc = true) : v'.isFolder loc = true := by
  rcases h loc with ⟨ha, hv⟩ | heq
  · rw [isFolder_congr hv]
    exact hfolder (isFolder_congr ha ▸ h')
  · rw [isFolder_congr heq]
    exact h'

/-- A volume that changes as another one does keeps having files where that one has. -/
theorem Copies.isFile_iff (h : Copies a a' v v') (hfile : v.IsFile loc ↔ a.IsFile loc) :
    v'.IsFile loc ↔ a'.IsFile loc := by
  rcases h loc with ⟨ha, hv⟩ | heq
  · rw [isFile_congr hv, hfile, isFile_congr ha]
  · exact isFile_congr heq

/-! ### Making folders in the same way -/

section

variable {at_ next : Location} {segment : String} {segments : List String}

/-- The volume with a folder where a segment leads, made if it is missing. -/
def withFolder (v : Volume) (at_ : Location) (segment : String) : Volume :=
  if v.isFolder (walk at_ segment) then v else v.addFolder at_ segment

/-- A file in the way keeps the rest of the folders from being made. -/
theorem makeFoldersFrom_of_isFile (henter : v.enter at_ segment = .ok next)
    (h : v.IsFile next) :
    v.makeFoldersFrom at_ (segment :: segments) = (v, .error .noFolder) := by
  rw [makeFoldersFrom, henter]
  simp only
  rw [if_neg h.1, if_pos h.2]

/-- Where no file is in the way, the rest of the folders is made from the next one on. -/
theorem makeFoldersFrom_of_not_isFile (henter : v.enter at_ segment = .ok next)
    (h : ¬ v.IsFile next) :
    v.makeFoldersFrom at_ (segment :: segments)
      = (v.withFolder at_ segment).makeFoldersFrom next segments := by
  obtain ⟨-, hwalk⟩ := enter_eq_ok henter
  rw [makeFoldersFrom, henter, withFolder, ← hwalk]
  simp only
  -- Either the folder is there, or nothing is, so that it can be made.
  by_cases hfolder : v.isFolder next = true
  · rw [if_pos hfolder, if_pos hfolder]
  · rw [if_neg hfolder, if_neg hfolder, if_neg fun hsome => h ⟨hfolder, hsome⟩]

/-- Where a folder is missing, nothing stands at its location. -/
private theorem get?_eq_none_of_enter (henter : v.enter at_ segment = .ok next)
    (h : ¬ v.IsFile next) (hfolder : ¬ v.isFolder next = true) :
    v.get? (at_ ++ [segment]) = none := by
  rw [← enter_eq_append henter hfolder, ← Option.not_isSome_iff_eq_none]
  exact fun hsome => h ⟨hfolder, hsome⟩

theorem isFolder_withFolder (henter : v.enter at_ segment = .ok next)
    (h : ¬ v.IsFile next) : (v.withFolder at_ segment).isFolder next = true := by
  obtain ⟨hat, hwalk⟩ := enter_eq_ok henter
  rw [withFolder, ← hwalk]
  by_cases hfolder : v.isFolder next = true
  · rw [if_pos hfolder]
    exact hfolder
  · rw [if_neg hfolder, isFolder_iff_get?,
      get?_addFolder hat (get?_eq_none_of_enter henter h hfolder),
      if_pos (enter_eq_append henter hfolder)]
    exact .inr rfl

/-- Where no file is in the way, a folder that is made changes both volumes in the same way. -/
private theorem copies_withFolder (henter : a.enter at_ segment = .ok next)
    (henter' : v.enter at_ segment = .ok next) (ha : ¬ a.IsFile next) (hv : ¬ v.IsFile next)
    (hfolder : a.isFolder next = true → v.isFolder next = true) :
    Copies a (a.withFolder at_ segment) v (v.withFolder at_ segment) := by
  obtain ⟨hat, hwalk⟩ := enter_eq_ok henter
  obtain ⟨hat', -⟩ := enter_eq_ok henter'
  rw [withFolder, withFolder, ← hwalk]
  by_cases hthere : a.isFolder next = true
  · rw [if_pos hthere, if_pos (hfolder hthere)]
    exact .refl a v
  rw [if_neg hthere]
  -- The volume `a` gets the folder now, and `v` has it afterwards in any case.
  intro loc
  rw [get?_addFolder hat (get?_eq_none_of_enter henter ha hthere)]
  by_cases hthere' : v.isFolder next = true
  · -- Somebody else has made the folder.
    rw [if_pos hthere']
    split
    · next heq =>
      rw [heq, ← enter_eq_append henter hthere]
      refine .inr ((isFolder_iff_get?.1 hthere').resolve_left fun htop => ?_)
      exact hthere (isFolder_iff_get?.2 (.inl htop))
    · exact .inl ⟨rfl, rfl⟩
  · rw [if_neg hthere', get?_addFolder hat' (get?_eq_none_of_enter henter' hv hthere')]
    split
    · exact .inr rfl
    · exact .inl ⟨rfl, rfl⟩

/-- Where the same files stand in the way, folders are made in the same way, though some of them
may be there already. -/
theorem copies_makeFoldersFrom (hat : a.isFolder at_ = true)
    (hfolder : ∀ {loc}, a.isFolder loc = true → v.isFolder loc = true)
    (hfile : ∀ {front}, front <+: segments →
      (v.IsFile (front.foldl walk at_) ↔ a.IsFile (front.foldl walk at_))) :
    (v.makeFoldersFrom at_ segments).2 = (a.makeFoldersFrom at_ segments).2 ∧
      Copies a (a.makeFoldersFrom at_ segments).1 v (v.makeFoldersFrom at_ segments).1 := by
  induction segments generalizing a v at_ with
  | nil =>
    refine ⟨?_, .refl _ _⟩
    change (if _ then _ else _) = (if _ then _ else _)
    rw [if_pos hat, if_pos (hfolder hat)]
  | cons segment rest ih =>
    -- All folders of the first volume are in the second one, so that both are entered alike.
    have hsame : v.enter at_ segment = a.enter at_ segment := enter_congr hat (hfolder hat)
    cases henter : a.enter at_ segment with
    | error fault =>
      rw [makeFoldersFrom, makeFoldersFrom, hsame, henter]
      exact ⟨rfl, .refl _ _⟩
    | ok next =>
      rw [henter] at hsame
      obtain ⟨-, hwalk⟩ := enter_eq_ok henter
      have hhere : v.IsFile next ↔ a.IsFile next := by
        rw [hwalk]
        exact hfile ((List.prefix_cons_inj segment).2 List.nil_prefix)
      by_cases hblocked : a.IsFile next
      · rw [makeFoldersFrom_of_isFile henter hblocked,
          makeFoldersFrom_of_isFile hsame (hhere.2 hblocked)]
        exact ⟨rfl, .refl _ _⟩
      · have hclear := mt hhere.1 hblocked
        have hcopies := copies_withFolder henter hsame hblocked hclear hfolder
        rw [makeFoldersFrom_of_not_isFile henter hblocked,
          makeFoldersFrom_of_not_isFile hsame hclear]
        -- What stands in the way of the rest stands in the way of the whole.
        obtain ⟨hresult, hmore⟩ := ih (isFolder_withFolder henter hblocked)
          (fun h => hcopies.isFolder hfolder h) fun {front} hfront => by
            have h := hfile ((List.prefix_cons_inj segment).2 hfront)
            rw [List.foldl_cons, ← hwalk] at h
            exact hcopies.isFile_iff h
        exact ⟨hresult, hcopies.trans hmore⟩

end

/-- Where the same files stand in the way, folders are made in the same way, though some of them
may be there already. -/
theorem copies_makeFolders {p : Path}
    (hfolder : ∀ {loc}, a.isFolder loc = true → v.isFolder loc = true)
    (hfile : ∀ {loc}, p.LeadsThrough loc → (v.IsFile loc ↔ a.IsFile loc)) :
    (v.makeFolders p).2 = (a.makeFolders p).2 ∧
      Copies a (a.makeFolders p).1 v (v.makeFolders p).1 := by
  unfold makeFolders
  split
  · exact ⟨rfl, .refl _ _⟩
  · split
    · exact ⟨rfl, .refl _ _⟩
    · exact copies_makeFoldersFrom (isFolder_iff_get?.2 (.inl rfl)) hfolder
        fun {front} hfront => hfile ⟨front, hfront, rfl⟩

/-! ### Folders that have been made -/

/-- Once folders have been made along segments, these lead to a folder. -/
private theorem follow_makeFoldersFrom {at_ : Location} {segments : List String}
    (h : (v.makeFoldersFrom at_ segments).2 = .ok ()) :
    (v.makeFoldersFrom at_ segments).1.follow at_ segments = .ok (segments.foldl walk at_) ∧
      (v.makeFoldersFrom at_ segments).1.isFolder (segments.foldl walk at_) = true := by
  induction segments generalizing v at_ with
  | nil =>
    change (if v.isFolder at_ then Except.ok () else Except.error Fault.noFolder) = .ok () at h
    by_cases hfolder : v.isFolder at_ = true
    · exact ⟨rfl, hfolder⟩
    · rw [if_neg hfolder] at h
      cases h
  | cons segment rest ih =>
    cases henter : v.enter at_ segment with
    | error fault =>
      rw [makeFoldersFrom, henter] at h
      cases h
    | ok next =>
      obtain ⟨hat, hwalk⟩ := enter_eq_ok henter
      -- The folder from which the segments start stays while the others are made.
      have hstays := (alters_makeFoldersFrom v at_ (segment :: rest)).isFolder hat
      rw [follow_cons, List.foldl_cons, enter_congr hat hstays, henter, ← hwalk]
      change (v.makeFoldersFrom at_ (segment :: rest)).1.follow next rest = _ ∧ _
      by_cases hblocked : v.IsFile next
      · rw [makeFoldersFrom_of_isFile henter hblocked] at h
        cases h
      · rw [makeFoldersFrom_of_not_isFile henter hblocked] at h ⊢
        exact ih h

/-- Once the folders of a path have been made it can be followed, to a folder. -/
theorem resolve_makeFolders {p : Path} (h : (v.makeFolders p).2 = .ok ()) (hne : p ≠ ⟨""⟩) :
    (v.makeFolders p).1.resolve p = .ok p.location ∧
      (v.makeFolders p).1.isFolder p.location = true := by
  have hempty : ¬ p.text.isEmpty = true := fun hempty =>
    hne (congrArg Path.mk (String.isEmpty_iff.1 hempty))
  unfold makeFolders at h ⊢
  rw [if_neg hempty] at h ⊢
  split at h
  · exact nomatch h
  · next hcheck =>
    obtain ⟨hfollow, hfolder⟩ := follow_makeFoldersFrom h
    exact ⟨resolve_eq_ok_iff.2 ⟨hcheck, hfollow, fun _ => hfolder⟩, hfolder⟩

/-- A path that leads to a folder leads through folders only. -/
theorem isFolder_of_leadsThrough {p : Path} (h : v.resolve p = .ok p.location)
    (hfolder : v.isFolder p.location = true) (hloc : p.LeadsThrough loc) :
    v.isFolder loc = true := by
  obtain ⟨front, hfront, rfl⟩ := hloc
  by_cases heq : front = p.segments
  · rw [heq]
    exact hfolder
  · -- A part of the way that is not the whole ends in front of the last segment.
    obtain ⟨rest, hrest⟩ := hfront
    have hne : rest ≠ [] := by
      rintro rfl
      exact heq (by rw [← hrest, List.append_nil])
    have hsegments : p.segments ≠ [] := by
      rw [← hrest]
      exact List.append_ne_nil_of_right_ne_nil _ hne
    refine isFolder_of_follow (resolve_eq_ok_iff.1 h).2.1 hsegments ⟨rest.dropLast, ?_⟩
    rw [← hrest, List.dropLast_append_of_ne_nil hne]

/-! ### Following a path in the same way -/

theorem follow_congr {at_ : Location} {segments : List String}
    (h : ∀ {front}, front <+: segments.dropLast →
      a.isFolder (front.foldl walk at_) = true ∧ v.isFolder (front.foldl walk at_) = true) :
    v.follow at_ segments = a.follow at_ segments := by
  induction segments generalizing at_ with
  | nil => rfl
  | cons segment rest ih =>
    -- The first segment is entered from where the way starts.
    obtain ⟨ha, hv⟩ := h (List.nil_prefix (l := (segment :: rest).dropLast))
    rw [List.foldl_nil] at ha hv
    rw [follow_cons, follow_cons, enter_congr ha hv]
    cases henter : a.enter at_ segment with
    | error fault => rfl
    | ok next =>
      obtain ⟨-, hwalk⟩ := enter_eq_ok henter
      change v.follow next rest = a.follow next rest
      by_cases hnil : rest = []
      · rw [hnil]
        rfl
      · refine ih fun {front} hfront => ?_
        have hcons : segment :: front <+: (segment :: rest).dropLast := by
          rw [List.dropLast_cons_of_ne_nil hnil]
          exact (List.prefix_cons_inj segment).2 hfront
        rw [hwalk]
        exact h hcons

/-- A path whose way consists of folders is followed in the same way in two volumes, if they have
the same folder at its end or both none. -/
theorem resolve_congr {p : Path}
    (h : ∀ {front}, front <+: p.segments.dropLast →
      a.isFolder (front.foldl walk []) = true ∧ v.isFolder (front.foldl walk []) = true)
    (hend : v.isFolder p.location = a.isFolder p.location) : v.resolve p = a.resolve p := by
  unfold resolve
  rw [follow_congr h]
  cases checkPath p with
  | error fault => rfl
  | ok u =>
    cases hfollow : a.follow [] p.segments with
    | error fault => rfl
    | ok loc =>
      have hloc : loc = p.location :=
        (follow_eq_ok (isFolder_iff_get?.2 (.inl rfl)) hfollow).1
      change (if _ then _ else _) = (if _ then _ else _)
      rw [hloc, hend]

/-- Where a path is followed in the same way, a file is saved in the same way. -/
theorem copies_save {p : Path} (hfolder : ∀ {loc}, a.isFolder loc = true → v.isFolder loc = true)
    (hresolve : v.resolve p = a.resolve p) (hend : v.isFolder p.location = a.isFolder p.location)
    (bytes : ByteArray) :
    (∃ fault, a.save p bytes = .error fault ∧ v.save p bytes = .error fault) ∨
      ∃ a' v', a.save p bytes = .ok a' ∧ v.save p bytes = .ok v' ∧ Copies a a' v v' := by
  unfold save
  rw [hresolve]
  cases hlead : a.resolve p with
  | error fault => exact .inl ⟨fault, rfl, rfl⟩
  | ok loc =>
    obtain ⟨rfl, hin⟩ := resolve_eq_ok hlead
    change (∃ fault, a.putFileAt _ _ = _ ∧ v.putFileAt _ _ = _) ∨
      ∃ a' v', a.putFileAt _ _ = _ ∧ v.putFileAt _ _ = _ ∧ _
    -- A folder in the place of the file is one on both volumes.
    cases hfree : a.isFolder p.location with
    | true => exact .inl ⟨.isFolder, if_pos hfree, if_pos (hend.trans hfree)⟩
    | false =>
      obtain ⟨a', ha, -, hget⟩ := exists_putFileAt hin hfree bytes
      obtain ⟨v', hv, -, hget'⟩ := exists_putFileAt (hfolder hin) (hend.trans hfree) bytes
      refine .inr ⟨a', v', ha, hv, fun loc => ?_⟩
      rw [hget, hget']
      split
      · exact .inr rfl
      · exact .inl ⟨rfl, rfl⟩

/-- A path that is followed in the same way, to the same, is read in the same way. -/
theorem contents_congr {p : Path} (hresolve : v.resolve p = a.resolve p)
    (hend : v.isFolder p.location = a.isFolder p.location)
    (hfile : a.isFolder p.location = true ∨ v.get? p.location = a.get? p.location) :
    v.contents p = a.contents p := by
  unfold contents contentsAt
  rw [hresolve]
  cases hlead : a.resolve p with
  | error fault => rfl
  | ok loc =>
    obtain ⟨rfl, -⟩ := resolve_eq_ok hlead
    change (if _ then _ else _) = (if _ then _ else _)
    rw [hend]
    rcases hfile with hfolder | heq
    · rw [if_pos hfolder, if_pos hfolder]
    · rw [fileAt?_congr heq]

end Volume

namespace WriteTask

open Volume

variable {t u : WriteTask} {a a' v v' : Volume}

/-! ### What a task finds when its folders are there -/

/-- The folder around a target is never written as an empty path. -/
theorem folder_ne_empty (t : WriteTask) : t.folder ≠ ⟨""⟩ := by
  unfold folder
  split
  · decide
  · decide
  · next hne _ => exact hne

/-- The folder of the target is there, and its path can be followed. -/
private def Ready (t : WriteTask) (a : Volume) : Prop :=
  a.resolve t.folder = .ok t.folder.location ∧ a.isFolder t.folder.location = true

/-- From the time it has made its folders to its end, a task finds them. -/
private def Sound (t : WriteTask) (a : Volume) : Stage → Prop
  | .waiting => True
  | .ended _ => True
  | _ => t.Ready a

/-- The folder of a target stays there under the steps of its task. -/
private theorem Ready.of_confined (h : t.Ready a) (ha : Confined t a a') : t.Ready a' :=
  ⟨ha.grows.resolve h.1, ha.grows.isFolder h.2⟩

/-- A task that finds its folders goes on to find them. -/
private theorem Sound.step {stage : Stage} (h : t.Sound a stage) :
    t.Sound (t.step (stage, a)).2 (t.step (stage, a)).1 := by
  have hconfined := confined_step t stage a
  cases stage with
  | waiting =>
    change t.Sound (t.prepare a).2 (t.prepare a).1
    rw [prepare_eq]
    split
    · next hresult =>
      -- The folders that have just been made lead to the folder of the target.
      have hready := resolve_makeFolders (v := a) (by rw [hresult]) t.folder_ne_empty
      rw [hresult] at hready
      exact hready
    · trivial
  | prepared =>
    -- From here on the folder is there, and no step takes a folder away.
    have hready : t.Ready (t.stage a).2 := Ready.of_confined h hconfined
    change t.Sound (t.stage a).2 (t.stage a).1
    rw [WriteTask.stage_eq] at hready ⊢
    split at hready
    · split at hready
      · next hfolder =>
        rw [if_pos hfolder]
        exact hready
      · next hfolder =>
        rw [if_neg hfolder]
        trivial
    · trivial
  | staged =>
    have hready : t.Ready (t.place a).2 := Ready.of_confined h hconfined
    change t.Sound (t.place a).2 (t.place a).1
    rw [place_eq] at hready ⊢
    split at hready
    · trivial
    · split at hready
      · exact hready
      · trivial
  | placed => trivial
  | ended result => trivial

/-! ### Volumes that look the same to a task -/

/-- A volume `v` looks to a task like the volume `a`: it has all folders of that one, the same files
in the way of the target's folder, the same at the target unless a folder has to be there, and the
same staged under the ticket. -/
structure Sees (t : WriteTask) (a v : Volume) : Prop where
  folder : ∀ {loc}, a.isFolder loc = true → v.isFolder loc = true
  file : ∀ {loc}, t.folder.LeadsThrough loc → (v.IsFile loc ↔ a.IsFile loc)
  target : t.folder.LeadsThrough t.target.location ∨
    v.get? t.target.location = a.get? t.target.location
  staged : v.staged.get? t.ticket = a.staged.get? t.ticket

theorem Sees.refl (t : WriteTask) (v : Volume) : t.Sees v v :=
  ⟨fun h => h, fun _ => Iff.rfl, .inr rfl, rfl⟩

/-- A task still sees its own volume when both have changed in the same way. -/
private theorem Sees.of_copies (h : t.Sees a v) (hcopies : Copies a a' v v')
    (hstaged : v'.staged.get? t.ticket = a'.staged.get? t.ticket) : t.Sees a' v' where
  folder := hcopies.isFolder h.folder
  file hloc := hcopies.isFile_iff (h.file hloc)
  target := by
    -- What stands at the target has been left on both volumes, or has come to the same.
    refine h.target.imp_right fun heq => ?_
    rcases hcopies t.target.location with ⟨ha, hv⟩ | hsame
    · rw [ha, hv, heq]
    · exact hsame
  staged := hstaged

/-- There is a folder at the target on both volumes or on neither. -/
private theorem Sees.isFolder_target (h : t.Sees a v) (hready : t.Ready a) :
    v.isFolder t.target.location = a.isFolder t.target.location := by
  rcases h.target with hway | heq
  · have hfolder := isFolder_of_leadsThrough hready.1 hready.2 hway
    rw [hfolder, h.folder hfolder]
  · exact isFolder_congr heq

/-- The target leads to the same on both volumes. -/
private theorem Sees.resolve_target (h : t.Sees a v) (hnested : t.Nested) (hready : t.Ready a) :
    v.resolve t.target = a.resolve t.target := by
  refine resolve_congr (fun {front} hfront => ?_) (h.isFolder_target hready)
  have hfolder : a.isFolder (front.foldl walk []) = true :=
    isFolder_of_leadsThrough hready.1 hready.2
      (hnested.leadsThrough_folder_iff.2 ⟨front, hfront, rfl⟩)
  exact ⟨hfolder, h.folder hfolder⟩

/-! ### The task's own step -/

/-- A step comes to the same on two volumes: it leads to the same stage and changes both in the
same way. -/
private structure SameStep (t : WriteTask) (a v : Volume) (next next' : Stage × Volume) :
    Prop where
  stage : next'.1 = next.1
  copies : Copies a next.2 v next'.2
  staged : next'.2.staged.get? t.ticket = next.2.staged.get? t.ticket

/-- Making the folders is the same step on both volumes. -/
private theorem Sees.makeFolders (h : t.Sees a v) : t.SameStep a v (t.prepare a) (t.prepare v) := by
  obtain ⟨hresult, hcopies⟩ := copies_makeFolders h.folder h.file
  have ha := (grows_makeFolders (fun _ => False) a t.folder).2
  have hv := (grows_makeFolders (fun _ => False) v t.folder).2
  have hstaged : (v.makeFolders t.folder).1.staged.get? t.ticket
      = (a.makeFolders t.folder).1.staged.get? t.ticket := by
    rw [ha, hv]
    exact h.staged
  rw [WriteTask.prepare_eq, WriteTask.prepare_eq]
  -- From here on only the results and the two changes count.
  generalize v.makeFolders t.folder = made' at hresult hcopies hstaged
  generalize a.makeFolders t.folder = made at hresult hcopies hstaged
  obtain ⟨a', result⟩ := made
  obtain ⟨v', result'⟩ := made'
  change result' = result at hresult
  subst hresult
  cases result' with
  | ok => exact ⟨rfl, hcopies, hstaged⟩
  | error fault => exact ⟨rfl, hcopies, hstaged⟩

/-- Staging the file is the same step on both volumes. -/
private theorem Sees.stageFile (h : t.Sees a v) (hready : t.Ready a) :
    t.SameStep a v (t.stage a) (t.stage v) := by
  obtain ⟨hresolve, hfolder⟩ := hready
  -- The second volume has all folders of the first one, so that the path leads there too.
  have hresolve' : v.resolve t.folder = .ok t.folder.location := by
    obtain ⟨hcheck, hfollow, hslash⟩ := resolve_eq_ok_iff.1 hresolve
    refine resolve_eq_ok_iff.2 ⟨hcheck, ?_, fun hend => h.folder (hslash hend)⟩
    rw [← hfollow]
    refine follow_congr fun {front} hfront => ?_
    have hway : a.isFolder (front.foldl walk []) = true :=
      isFolder_of_leadsThrough hresolve hfolder
        ⟨front, hfront.trans (List.dropLast_prefix _), rfl⟩
    exact ⟨hway, h.folder hway⟩
  rw [WriteTask.stage_eq, WriteTask.stage_eq, hresolve, hresolve']
  simp only
  rw [if_pos hfolder, if_pos (h.folder hfolder)]
  refine ⟨rfl, fun loc => .inl ⟨rfl, rfl⟩, ?_⟩
  rw [get?_staged_addStaged, get?_staged_addStaged, if_pos rfl, if_pos rfl]

/-- Nothing is left under the ticket, whatever the volume. -/
private theorem get?_dropStaged (t : WriteTask) (v v' : Volume) :
    (v'.dropStaged t.ticket).staged.get? t.ticket
      = (v.dropStaged t.ticket).staged.get? t.ticket := by
  rw [get?_staged_dropStaged, get?_staged_dropStaged, if_pos rfl, if_pos rfl]

/-- Placing the file is the same step on both volumes. -/
private theorem Sees.placeFile (h : t.Sees a v) (hnested : t.Nested) (hready : t.Ready a) :
    t.SameStep a v (t.place a) (t.place v) := by
  rw [place_eq, place_eq, h.staged]
  split
  · exact ⟨rfl, .refl _ _, h.staged⟩
  · next file _ =>
    rcases copies_save h.folder (h.resolve_target hnested hready) (h.isFolder_target hready)
      file.bytes with ⟨fault, ha, hv⟩ | ⟨a', v', ha, hv, hcopies⟩
    · rw [ha, hv]
      exact ⟨rfl, fun loc => .inl ⟨rfl, rfl⟩, get?_dropStaged t a v⟩
    · rw [ha, hv]
      exact ⟨rfl, hcopies, get?_dropStaged t a' v'⟩

/-- Every step is the same on both volumes. -/
private theorem Sees.sameStep {stage : Stage} (h : t.Sees a v) (hnested : t.Nested)
    (hsound : t.Sound a stage) : t.SameStep a v (t.step (stage, a)) (t.step (stage, v)) := by
  cases stage with
  | waiting => exact h.makeFolders
  | prepared => exact h.stageFile hsound
  | staged => exact h.placeFile hnested hsound
  | placed =>
    -- By now the way to the target is free on both volumes, so that the same is read.
    have hcontents : v.contents t.target = a.contents t.target :=
      contents_congr (h.resolve_target hnested hsound) (h.isFolder_target hsound)
        (h.target.imp_left fun hway => isFolder_of_leadsThrough hsound.1 hsound.2 hway)
    exact ⟨congrArg Stage.ended hcontents, .refl _ _, h.staged⟩
  | ended result => exact ⟨rfl, .refl _ _, h.staged⟩

/-- On two volumes that look the same to a task, its step leads to the same stage and changes both
in the same way, and they look the same to it afterwards. -/
private theorem Sees.step {stage : Stage} (h : t.Sees a v) (hnested : t.Nested)
    (hsound : t.Sound a stage) :
    (t.step (stage, v)).1 = (t.step (stage, a)).1 ∧
      Copies a (t.step (stage, a)).2 v (t.step (stage, v)).2 ∧
      t.Sees (t.step (stage, a)).2 (t.step (stage, v)).2 := by
  obtain ⟨hstage, hcopies, hstaged⟩ := h.sameStep hnested hsound
  exact ⟨hstage, hcopies, h.of_copies hcopies hstaged⟩

/-! ### The step of another task -/

/-- The task `u` keeps out of the way of the task `t`: it has another ticket and another target, its
target is in the way of the folder of `t` only if its own folder needs a folder there, and so it is
with the target of `t`. -/
structure Clear (t u : WriteTask) : Prop where
  ticket : t.ticket ≠ u.ticket
  target : t.target.location ≠ u.target.location
  way : t.folder.LeadsThrough u.target.location → u.folder.LeadsThrough u.target.location
  way' : u.folder.LeadsThrough t.target.location → t.folder.LeadsThrough t.target.location

/-- The step of a task that keeps out of the way makes no difference. -/
theorem Sees.of_other {stage : Stage} (h : t.Sees a v) (hclear : t.Clear u) (hu : u.Nested) :
    t.Sees a (u.step (stage, v)).2 := by
  have halters := alters_step hu stage v
  refine ⟨fun hfolder => halters.isFolder (h.folder hfolder), fun {loc} hloc => ?_, ?_, ?_⟩
  · rw [← h.file hloc]
    cases halters loc with
    | same heq => exact isFile_congr heq
    | folder _ hbefore hafter =>
      unfold IsFile
      rw [isFolder_iff_get?, isFolder_iff_get?, hbefore, hafter]
      simp
    | file hplaced _ _ _ =>
      -- A file of the other task on the way would be one where that task needs a folder.
      obtain ⟨rfl, hnot⟩ := hplaced
      exact absurd (hclear.way hloc) hnot
  · cases halters t.target.location with
    | same heq => exact h.target.imp_right heq.trans
    | folder hmade _ _ => exact .inl (hclear.way' hmade)
    | file hplaced _ _ _ => exact absurd hplaced.1 hclear.target
  · rw [(confined_step u stage v).staged hclear.ticket]
    exact h.staged

/-! ### A task on its own -/

/-- A task after some steps on a volume on which nobody else works. -/
def alone (t : WriteTask) (v : Volume) (n : Nat) : Stage × Volume :=
  Nat.repeat t.step n (.waiting, v)

/-- A task on a volume of its own finds its folders. -/
private theorem sound_alone (t : WriteTask) (v : Volume) (n : Nat) :
    t.Sound (t.alone v n).2 (t.alone v n).1 := by
  induction n with
  | zero => trivial
  | succ n ih => exact ih.step

/-- Where its volume looks like one on which it is alone, a task takes the step it would take
there. -/
theorem Sees.step_alone {n : Nat} (h : t.Sees (t.alone a n).2 v) (hnested : t.Nested) :
    (t.step ((t.alone a n).1, v)).1 = (t.alone a (n + 1)).1 ∧
      Copies (t.alone a n).2 (t.alone a (n + 1)).2 v (t.step ((t.alone a n).1, v)).2 ∧
      t.Sees (t.alone a (n + 1)).2 (t.step ((t.alone a n).1, v)).2 :=
  h.step hnested (sound_alone t a n)

theorem alters_alone (h : t.Nested) (v : Volume) (n : Nat) :
    Alters t.folder.LeadsThrough
      (fun loc => loc = t.target.location ∧ ¬ t.folder.LeadsThrough loc) v (t.alone v n).2 := by
  induction n with
  | zero => exact .refl _ _ v
  | succ n ih => exact ih.trans (alters_step h _ _)

/-- After all its steps a task has ended, and takes no more of them. -/
theorem alone_of_le {n : Nat} (h : stepCount ≤ n) : t.alone v n = t.alone v stepCount := by
  -- Every step raises the rank until the task has ended.
  have hrank (n : Nat) : min n stepCount ≤ (t.alone v n).1.rank := by
    induction n with
    | zero => exact Nat.zero_le _
    | succ n ih =>
      have hstep := t.rank_step (t.alone v n).1 (t.alone v n).2
      change _ ≤ (t.alone v (n + 1)).1.rank at hstep
      omega
  obtain ⟨more, rfl⟩ := Nat.exists_eq_add_of_le h
  induction more with
  | zero => rfl
  | succ more ih =>
    have hend : stepCount ≤ (t.alone v (stepCount + more)).1.rank := by
      have h := hrank (stepCount + more)
      omega
    obtain ⟨result, hended⟩ := Stage.exists_eq_ended hend
    rw [← ih (Nat.le_add_right _ _)]
    change t.step (t.alone v (stepCount + more)) = t.alone v (stepCount + more)
    -- A task that has ended stays as it is.
    have hpair : t.alone v (stepCount + more)
        = (.ended result, (t.alone v (stepCount + more)).2) := by
      rw [← hended]
    rw [hpair]
    rfl

end WriteTask

end Scorecard
