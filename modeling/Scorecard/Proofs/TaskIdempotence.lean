import Scorecard.Proofs.TaskIsolation

/-!
# Tasks that are done again

A task makes its folders, then saves its file, and each of the two fails or succeeds by the kinds of
what stands in its way: folders, files, or nothing. Where all that it has left is still there in
kind, it meets the same faults in the same places when it is done again. The folders it made are
there, so that it makes none; the file it saved is there, so that saving it again makes no
difference; and what it staged is dropped in the end. So the second time nothing is changed.

* `Volume.Retains`: what stands somewhere in one volume stands there in the other one, in kind.
* `Volume.makeFolders_again`, `Volume.save_again`: what has been done, done again.
* `WriteTask.run_of_unprepared`, `WriteTask.run_of_unsaved`, `WriteTask.run_of_saved`: a task from
  its beginning to its end.
* `WriteTask.run_again`: a task that is done again changes nothing.
-/

open Scorecard.Path (walk ofNames IsName)

namespace Scorecard

namespace Volume

variable {made placed : Location → Prop} {v v' v'' w : Volume} {loc at_ : Location}
  {segments : List String} {p : Path} {bytes : ByteArray}

/-! ### Keeping what stands somewhere -/

/-- What stands somewhere in `v` stands there in `w` too, folders as folders and files as files. The
bytes of a file may be others. -/
structure Retains (v w : Volume) : Prop where
  folder : ∀ {loc}, v.isFolder loc = true → w.isFolder loc = true
  file : ∀ {loc}, v.IsFile loc → w.IsFile loc

theorem Retains.refl (v : Volume) : Retains v v := ⟨fun h => h, fun h => h⟩

theorem Retains.trans (h : Retains v v') (h' : Retains v' v'') : Retains v v'' :=
  ⟨fun hfolder => h'.folder (h.folder hfolder), fun hfile => h'.file (h.file hfile)⟩

/-- Changes that make folders and place files keep what they find. -/
theorem Alters.retains (h : Alters made placed v w) : Retains v w := by
  refine ⟨h.isFolder, fun {loc} hfile => ?_⟩
  cases h loc with
  | same heq => exact (isFile_congr heq).2 hfile
  | folder _ hbefore _ =>
    rw [IsFile, hbefore] at hfile
    exact nomatch hfile.2
  | file _ _ bytes hafter =>
    -- The top is a folder, so that no file is there.
    have htop : loc ≠ [] := fun htop => hfile.1 (isFolder_iff_get?.2 (.inl htop))
    refine ⟨fun hfolder => ?_, by rw [hafter]; rfl⟩
    rcases isFolder_iff_get?.1 hfolder with hnil | hget
    · exact htop hnil
    · rw [hafter] at hget
      cases hget

/-! ### Making folders again -/

/-- Folders that have been made as far as possible are made again without a change, up to the same
fault. -/
theorem makeFoldersFrom_again (hat : v.isFolder at_ = true)
    (h : Retains (v.makeFoldersFrom at_ segments).1 w) :
    w.makeFoldersFrom at_ segments = (w, (v.makeFoldersFrom at_ segments).2) := by
  induction segments generalizing v at_ with
  | nil =>
    have hat' : w.isFolder at_ = true := h.folder hat
    rw [makeFoldersFrom, makeFoldersFrom, if_pos hat, if_pos hat']
  | cons segment rest ih =>
    -- What was there before the folders were made is there after them, and so in `w`.
    have hretains : Retains v w := (alters_makeFoldersFrom v at_ (segment :: rest)).retains.trans h
    have hsame : w.enter at_ segment = v.enter at_ segment := enter_congr hat (hretains.folder hat)
    cases henter : v.enter at_ segment with
    | error fault => rw [makeFoldersFrom, makeFoldersFrom, hsame, henter]
    | ok next =>
      rw [henter] at hsame
      by_cases hblocked : v.IsFile next
      · rw [makeFoldersFrom_of_isFile henter hblocked,
          makeFoldersFrom_of_isFile hsame (hretains.file hblocked)]
      · rw [makeFoldersFrom_of_not_isFile henter hblocked] at h ⊢
        -- The folder that comes next has been there or has been made, and is there now.
        have hthere := isFolder_withFolder henter hblocked
        have hnext : w.isFolder next = true :=
          h.folder ((alters_makeFoldersFrom _ next rest).isFolder hthere)
        rw [makeFoldersFrom, hsame]
        simp only
        rw [if_pos hnext]
        exact ih hthere h

theorem makeFolders_again (h : Retains (v.makeFolders p).1 w) :
    w.makeFolders p = (w, (v.makeFolders p).2) := by
  unfold makeFolders at h ⊢
  split
  · rfl
  · next hempty =>
    rw [if_neg hempty] at h
    cases hcheck : checkPath p with
    | error fault => rfl
    | ok u =>
      rw [hcheck] at h
      exact makeFoldersFrom_again (isFolder_iff_get?.2 (.inl rfl)) h

/-! ### Saving again -/

/-- Folders on the way that are still there lead to the same place. -/
theorem resolve_again (hretains : Retains v w) (hend : p.endsInSlash = false)
    (hway : ∀ {front}, front <+: p.segments.dropLast → v.isFolder (front.foldl walk []) = true) :
    w.resolve p = v.resolve p := by
  have hfollow : w.follow [] p.segments = v.follow [] p.segments :=
    follow_congr fun hfront => ⟨hway hfront, hretains.folder (hway hfront)⟩
  unfold resolve
  rw [hfollow, hend]
  rfl

/-- A file that could not be saved cannot be saved now, for the same fault. -/
theorem save_eq_error_again {fault : Fault} (hretains : Retains v w)
    (hresolve : w.resolve p = v.resolve p) (h : v.save p bytes = .error fault) :
    w.save p bytes = .error fault := by
  unfold save at h ⊢
  rw [hresolve]
  cases hlead : v.resolve p with
  | error fault' =>
    rw [hlead] at h
    exact h
  | ok loc =>
    rw [hlead] at h
    obtain ⟨rfl, hfolder⟩ := resolve_eq_ok hlead
    change v.putFileAt p.location bytes = _ at h
    change w.putFileAt p.location bytes = _
    cases hfree : v.isFolder p.location with
    | false =>
      -- Where no folder is in its place the file could have been saved.
      obtain ⟨v', hput, -⟩ := exists_putFileAt hfolder hfree bytes
      exact nomatch hput.symm.trans h
    | true =>
      -- A folder is in the place of the file, now as before.
      unfold putFileAt at h ⊢
      rw [if_pos hfree] at h
      rw [if_pos (hretains.folder hfree)]
      exact h

/-- A file that has been saved is saved again without a change, if it is still there. -/
theorem save_again (hretains : Retains v w) (hresolve : w.resolve p = v.resolve p)
    (hfile : w.fileAt? p.location = some bytes) (h : v.save p bytes = .ok v') :
    w.save p bytes = .ok w := by
  obtain ⟨hfree, -, -⟩ := get?_save h
  obtain ⟨loc, hlead, -⟩ := Except.bind_eq_ok_iff.1 h
  obtain ⟨rfl, hfolder⟩ := resolve_eq_ok hlead
  have htop : p.location ≠ [] := by
    intro htop
    rw [isFolder_iff_get?.2 (.inl htop)] at hfree
    exact nomatch hfree
  have hfile := fileAt?_eq_some_iff.1 hfile
  have hfree' : w.isFolder p.location = false := by
    rw [Bool.eq_false_iff, ne_eq, isFolder_iff_get?, hfile]
    rintro (hnil | hget)
    · exact htop hnil
    · cases hget
  obtain ⟨put, hput, hstaged, hget⟩ := exists_putFileAt (hretains.folder hfolder) hfree' bytes
  -- The same bytes take the place of the file, and nothing else changes.
  have hsame : put = w := by
    refine ext_get? (fun loc => ?_) hstaged
    rw [hget]
    split
    · next hloc => rw [hloc, hfile]
    · rfl
  unfold save
  rw [hresolve, hlead]
  change w.putFileAt p.location bytes = .ok w
  rw [hput, hsame]

/-! ### What is staged has no part in it -/

/-- Placing a file does not depend on what is staged. -/
private theorem putFile_addStaged (v : Volume) (ticket : Nat) (s : Staged) (folder : Location)
    (name : String) (bytes : ByteArray) : (v.addStaged ticket s).putFile folder name bytes
      = (v.putFile folder name bytes).addStaged ticket s := by
  -- The test asks for what stands on the volume, not for what is staged.
  by_cases h : v.isFolder folder = true ∧ v.nodes.get? (folder ++ [name]) ≠ some .folder
  · have hput : v.putFile folder name bytes = _ := dif_pos h
    rw [hput]
    exact dif_pos h
  · have hput : v.putFile folder name bytes = v := dif_neg h
    rw [hput]
    exact dif_neg h

theorem save_addStaged (v : Volume) (ticket : Nat) (s : Staged) (p : Path) (bytes : ByteArray) :
    (v.addStaged ticket s).save p bytes
      = (v.save p bytes).map fun saved => saved.addStaged ticket s := by
  unfold save
  change (v.resolve p >>= fun loc => (v.addStaged ticket s).putFileAt loc bytes) = _
  cases v.resolve p with
  | error fault => rfl
  | ok loc =>
    change (v.addStaged ticket s).putFileAt loc bytes = (v.putFileAt loc bytes).map _
    unfold putFileAt
    change (if v.isFolder loc then _ else _) = _
    split
    · rfl
    · split
      · rfl
      · exact congrArg Except.ok (putFile_addStaged ..)

theorem Retains.of_dropStaged {ticket : Nat} (h : Retains (v.dropStaged ticket) w) : Retains v w :=
  ⟨h.folder, h.file⟩

end Volume

namespace WriteTask

open Volume

variable {t : WriteTask} {v w saved : Volume} {fault : Fault}

/-! ### A task from its beginning to its end -/

/-- The steps of a task, one after another. -/
private theorem repeat_eq (t : WriteTask) (v : Volume) :
    Nat.repeat t.step stepCount (.waiting, v) = t.step (t.step (t.step (t.prepare v))) := by
  unfold stepCount
  simp only [Nat.repeat, step]

/-- A task that cannot make its folders ends with the fault. -/
theorem run_of_unprepared (h : (v.makeFolders t.folder).2 = .error fault) :
    t.run v = (.error fault, (v.makeFolders t.folder).1) := by
  have hprepare : t.prepare v = (.ended (.error fault), (v.makeFolders t.folder).1) := by
    rw [prepare_eq]
    generalize v.makeFolders t.folder = made at h
    obtain ⟨made, result⟩ := made
    cases h
    rfl
  rw [run_eq, repeat_eq, hprepare]
  rfl

/-- Once it has made its folders a task stages its file, and all that is left is to save it. -/
private theorem run_of_prepared (h : (v.makeFolders t.folder).2 = .ok ()) :
    ∃ folder, t.run v = ((t.step (t.place ((v.makeFolders t.folder).1.addStaged t.ticket
        ⟨folder, t.bytes⟩))).1.result,
      (t.step (t.place ((v.makeFolders t.folder).1.addStaged t.ticket ⟨folder, t.bytes⟩))).2) := by
  obtain ⟨hresolve, hfolder⟩ := resolve_makeFolders h t.folder_ne_empty
  have hprepare : t.prepare v = (.prepared, (v.makeFolders t.folder).1) := by
    rw [prepare_eq]
    generalize v.makeFolders t.folder = made at h
    obtain ⟨made, result⟩ := made
    cases h
    rfl
  -- The folder has just been made, so that staging cannot fail.
  have hstage : t.stage (v.makeFolders t.folder).1 = (.staged,
      (v.makeFolders t.folder).1.addStaged t.ticket ⟨t.folder.location, t.bytes⟩) := by
    rw [WriteTask.stage_eq, hresolve]
    exact if_pos hfolder
  refine ⟨t.folder.location, ?_⟩
  rw [run_eq, repeat_eq, hprepare]
  change ((t.step (t.step (t.stage _))).1.result, (t.step (t.step (t.stage _))).2) = _
  rw [hstage]
  rfl

/-- A task places the file that it has staged. -/
private theorem place_addStaged (t : WriteTask) (v : Volume) (folder : Location) :
    t.place (v.addStaged t.ticket ⟨folder, t.bytes⟩) = match v.save t.target t.bytes with
      | .ok saved => (.placed, saved.dropStaged t.ticket)
      | .error fault => (.ended (.error fault), v.dropStaged t.ticket) := by
  have hstaged : (v.addStaged t.ticket ⟨folder, t.bytes⟩).staged.get? t.ticket
      = some ⟨folder, t.bytes⟩ := by
    rw [get?_staged_addStaged, if_pos rfl]
  rw [place_eq, hstaged]
  simp only
  -- What is staged goes through the saving untouched, and is dropped afterwards.
  rw [save_addStaged]
  cases v.save t.target t.bytes with
  | error fault =>
    change (_, (v.addStaged t.ticket _).dropStaged t.ticket) = _
    rw [dropStaged_addStaged]
  | ok saved =>
    change (_, (saved.addStaged t.ticket _).dropStaged t.ticket) = _
    rw [dropStaged_addStaged]

/-- A task that cannot save its file ends with the fault, and its folders stay. -/
theorem run_of_unsaved (h : (v.makeFolders t.folder).2 = .ok ())
    (hsave : (v.makeFolders t.folder).1.save t.target t.bytes = .error fault) :
    t.run v = (.error fault, (v.makeFolders t.folder).1.dropStaged t.ticket) := by
  obtain ⟨folder, hrun⟩ := run_of_prepared h
  rw [hrun, place_addStaged, hsave]
  rfl

/-- A task that has saved its file reads it back. -/
theorem run_of_saved (h : (v.makeFolders t.folder).2 = .ok ())
    (hsave : (v.makeFolders t.folder).1.save t.target t.bytes = .ok saved) :
    t.run v = (.ok t.bytes, saved.dropStaged t.ticket) := by
  have hread : (saved.dropStaged t.ticket).contents t.target = .ok t.bytes := by
    change saved.contents t.target = _
    exact contents_save hsave
  obtain ⟨folder, hrun⟩ := run_of_prepared h
  rw [hrun, place_addStaged, hsave]
  change (Stage.result (.ended ((saved.dropStaged t.ticket).contents t.target)), _) = _
  rw [hread]
  rfl

/-- A task keeps what it finds. -/
theorem retains_run (h : t.Nested) (v : Volume) : Retains v (t.run v).2 := by
  rw [run_eq]
  exact (alters_alone h v stepCount).retains

/-! ### A task that is done again -/

/-- What a task has done is still there, in kind: all that it found or made, its file if it has
saved one, and nothing is staged under its ticket but what it has left there. -/
structure Lasts (t : WriteTask) (v w : Volume) : Prop where
  retains : Retains (t.run v).2 w
  file : ∀ {bytes}, (t.run v).1 = .ok bytes → w.fileAt? t.target.location = some t.bytes
  staged : w.staged.get? t.ticket = (t.run v).2.staged.get? t.ticket

/-- What a task has done is there when it has done it. -/
theorem lasts_run (t : WriteTask) (v : Volume) : t.Lasts v (t.run v).2 := by
  -- A task that has read something back has read its own file.
  refine ⟨.refl _, fun {bytes} hresult => ?_, rfl⟩
  exact (contents_eq_ok_iff.1 ((t.run_spec v).2 hresult).2).2.2

/-- A task that is done again comes to the same end and changes nothing. -/
theorem run_again (hnested : t.Nested) (h : t.Lasts v w) : t.run w = ((t.run v).1, w) := by
  have hend : t.target.endsInSlash = false := by
    obtain ⟨root, names, hne, htarget, hnames⟩ := hnested
    rw [htarget]
    exact Path.endsInSlash_join root hnames hne
  have hdropped (v : Volume) : (v.dropStaged t.ticket).staged.get? t.ticket = none := by
    rw [get?_staged_dropStaged, if_pos rfl]
  obtain ⟨hretains, hfile, hstaged⟩ := h
  -- The first run ends in one of three ways: without its folders, without its file, or with it.
  cases hmade : (v.makeFolders t.folder).2 with
  | error fault =>
    rw [run_of_unprepared hmade] at hretains ⊢
    have hagain := makeFolders_again hretains
    rw [hmade] at hagain
    rw [run_of_unprepared (by rw [hagain]), hagain]
  | ok u =>
    -- The way to the target consists of folders by now.
    obtain ⟨hresolve, hfolder⟩ := resolve_makeFolders hmade t.folder_ne_empty
    have hway {front : List String} (hfront : front <+: t.target.segments.dropLast) :
        (v.makeFolders t.folder).1.isFolder (front.foldl walk []) = true :=
      isFolder_of_leadsThrough hresolve hfolder
        (hnested.leadsThrough_folder_iff.2 ⟨front, hfront, rfl⟩)
    cases hsave : (v.makeFolders t.folder).1.save t.target t.bytes with
    | error fault =>
      rw [run_of_unsaved hmade hsave] at hretains hstaged ⊢
      have hretains : Retains (v.makeFolders t.folder).1 w := hretains.of_dropStaged
      have hagain := makeFolders_again hretains
      rw [hmade] at hagain
      have hsaves := save_eq_error_again hretains (resolve_again hretains hend hway) hsave
      rw [run_of_unsaved (by rw [hagain]) (by rw [hagain]; exact hsaves), hagain,
        dropStaged_eq_self (hstaged.trans (hdropped _))]
    | ok saved =>
      rw [run_of_saved hmade hsave] at hretains hfile hstaged ⊢
      -- The file is where the folders lead, so that they are found again.
      have hsaved : Retains (v.makeFolders t.folder).1 saved :=
        (alters_save hsave hnested.segments_ne_nil).1.retains
      have hretains : Retains (v.makeFolders t.folder).1 w := hsaved.trans hretains.of_dropStaged
      have hagain := makeFolders_again hretains
      rw [hmade] at hagain
      have hsaves := save_again hretains (resolve_again hretains hend hway) (hfile rfl) hsave
      rw [run_of_saved (by rw [hagain]) (by rw [hagain]; exact hsaves),
        dropStaged_eq_self (hstaged.trans (hdropped _))]

end WriteTask

end Scorecard
