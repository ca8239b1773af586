import Scorecard.Proofs.PathTraversal
import Scorecard.Proofs.Write

/-!
# Footprints of writing tasks

A step of a task changes a volume at two kinds of places only: on the way of the target's folder,
where it makes folders that are missing, and at the target itself, where it puts a file. It never
does both at one place, for a file is placed only when the whole way to it consists of folders.

* `Volume.Change`, `Volume.Alters`: how a change shows at a location.
* `Volume.alters_makeFolders`, `Volume.alters_save`: the changes of making folders and of saving.
* `WriteTask.Nested`: a target below some root, at the end of some names.
* `WriteTask.alters_step`: the changes of a step.
-/

open Scorecard.Path (walk LeadsThrough ofNames IsName)

namespace Scorecard

namespace Volume

variable {made placed made' placed' : Location → Prop} {v v' v'' : Volume} {loc : Location}

/-! ### Changes -/

/-- How a change of a volume shows at a location: not at all, as a folder that was missing, or as a
file that has been put there. -/
inductive Change (made placed : Location → Prop) (v v' : Volume) (loc : Location) : Prop
  | same (h : v'.get? loc = v.get? loc)
  | folder (hmade : made loc) (hbefore : v.get? loc = none) (hafter : v'.get? loc = some .folder)
  | file (hplaced : placed loc) (hbefore : v.get? loc ≠ some .folder) (bytes : ByteArray)
    (hafter : v'.get? loc = some (.file bytes))

/-- Folders come only where they may be made, and files only where they may be placed. -/
def Alters (made placed : Location → Prop) (v v' : Volume) : Prop :=
  ∀ loc, Change made placed v v' loc

theorem Alters.refl (made placed : Location → Prop) (v : Volume) : Alters made placed v v :=
  fun _ => .same rfl

/-- What a step has brought, a later one leaves, or replaces a file by a file. -/
theorem Change.trans (h : Change made placed v v' loc) (h' : Change made placed v' v'' loc) :
    Change made placed v v'' loc := by
  -- Nothing is made or placed where a folder is, and no folder where a file is.
  cases h with
  | same heq =>
    cases h' with
    | same heq' => exact .same (heq'.trans heq)
    | folder hmade hbefore hafter => exact .folder hmade (heq ▸ hbefore) hafter
    | file hplaced hbefore bytes hafter => exact .file hplaced (heq ▸ hbefore) bytes hafter
  | folder hmade hbefore hafter =>
    cases h' with
    | same heq' => exact .folder hmade hbefore (heq'.trans hafter)
    | folder _ hbefore' _ =>
      rw [hafter] at hbefore'
      exact nomatch hbefore'
    | file _ hbefore' _ _ => exact absurd hafter hbefore'
  | file hplaced hbefore bytes hafter =>
    cases h' with
    | same heq' => exact .file hplaced hbefore bytes (heq'.trans hafter)
    | folder _ hbefore' _ =>
      rw [hafter] at hbefore'
      exact nomatch hbefore'
    | file hplaced' _ bytes' hafter' => exact .file hplaced' hbefore bytes' hafter'

theorem Alters.trans (h : Alters made placed v v') (h' : Alters made placed v' v'') :
    Alters made placed v v'' :=
  fun loc => (h loc).trans (h' loc)

theorem Alters.mono (h : Alters made placed v v') (hmade : ∀ loc, made loc → made' loc)
    (hplaced : ∀ loc, placed loc → placed' loc) : Alters made' placed' v v' := by
  intro loc
  cases h loc with
  | same heq => exact .same heq
  | folder h hbefore hafter => exact .folder (hmade loc h) hbefore hafter
  | file h hbefore bytes hafter => exact .file (hplaced loc h) hbefore bytes hafter

/-- Folders stay. -/
theorem Alters.isFolder (h : Alters made placed v v') (hfolder : v.isFolder loc = true) :
    v'.isFolder loc = true := by
  rw [isFolder_iff_get?] at hfolder ⊢
  refine hfolder.imp_right fun hget => ?_
  cases h loc with
  | same heq => exact heq.trans hget
  | folder _ _ hafter => exact hafter
  | file _ hbefore _ _ => exact absurd hget hbefore

/-! ### Making folders -/

/-- A step to a place that is no folder is taken by a name. -/
theorem enter_eq_append {segment : String} {at_ : Location} (h : v.enter at_ segment = .ok loc)
    (hnot : ¬ v.isFolder loc = true) : loc = at_ ++ [segment] := by
  obtain ⟨hfolder, rfl⟩ := enter_eq_ok h
  unfold walk at hnot ⊢
  -- Both special segments lead to folders.
  by_cases hhere : segment = "."
  · rw [if_pos hhere] at hnot
    exact absurd hfolder hnot
  · rw [if_neg hhere] at hnot ⊢
    by_cases hup : segment = ".."
    · rw [if_pos hup] at hnot
      exact absurd (isFolder_dropLast hfolder) hnot
    · rw [if_neg hup]

/-- A new folder alters its own location only. -/
private theorem alters_addFolder (v : Volume) (folder : Location) (name : String) :
    Alters (· = folder ++ [name]) (fun _ => False) v (v.addFolder folder name) := by
  intro loc
  by_cases h : v.isFolder folder = true ∧ v.get? (folder ++ [name]) = none
  · have hget := get?_addFolder h.1 h.2 loc
    by_cases hloc : loc = folder ++ [name]
    · rw [if_pos hloc] at hget
      exact .folder hloc (hloc ▸ h.2) hget
    · rw [if_neg hloc] at hget
      exact .same hget
  · have hsame : v.addFolder folder name = v := dif_neg h
    exact .same (by rw [hsame])

/-- Folders are made only where the segments lead. -/
theorem alters_makeFoldersFrom (v : Volume) (at_ : Location) (segments : List String) :
    Alters (fun loc => ∃ front, front <+: segments ∧ loc = front.foldl walk at_) (fun _ => False)
      v (v.makeFoldersFrom at_ segments).1 := by
  induction segments generalizing v at_ with
  | nil => exact .refl _ _ v
  | cons segment rest ih =>
    -- The rest of the way is a part of the way from the first segment on.
    have hrest (v' : Volume) :
        Alters (fun loc => ∃ front, front <+: segment :: rest ∧ loc = front.foldl walk at_)
          (fun _ => False) v' (v'.makeFoldersFrom (walk at_ segment) rest).1 := by
      refine (ih v' (walk at_ segment)).mono ?_ fun _ h => h
      rintro loc ⟨front, hfront, hloc⟩
      exact ⟨segment :: front, (List.prefix_cons_inj segment).2 hfront, hloc⟩
    unfold makeFoldersFrom
    split
    · exact .refl _ _ v
    · next next henter =>
      obtain ⟨-, hnext⟩ := enter_eq_ok henter
      split
      · exact hnext ▸ hrest v
      · next hnot =>
        split
        · exact .refl _ _ v
        · refine ((alters_addFolder v at_ segment).mono (fun loc hloc => ?_) fun _ h => h).trans
            (hnext ▸ hrest _)
          -- The folder that is made is where the first segment leads.
          refine ⟨[segment], (List.prefix_cons_inj segment).2 (List.nil_prefix), ?_⟩
          rw [hloc, ← enter_eq_append henter hnot]
          exact hnext

/-- Folders are made only on the way of the path. -/
theorem alters_makeFolders (v : Volume) (p : Path) :
    Alters p.LeadsThrough (fun _ => False) v (v.makeFolders p).1 := by
  unfold makeFolders
  split
  · exact .refl _ _ v
  · split
    · exact .refl _ _ v
    · exact alters_makeFoldersFrom v [] p.segments

/-! ### Saving -/

/-- A place that segments lead to lies in folders all the way. -/
theorem isFolder_of_follow {segments front : List String} {at_ : Location}
    (h : v.follow at_ segments = .ok loc) (hne : segments ≠ [])
    (hfront : front <+: segments.dropLast) : v.isFolder (front.foldl walk at_) = true := by
  induction segments generalizing at_ front with
  | nil => exact absurd rfl hne
  | cons segment rest ih =>
    rw [follow_cons, Except.bind_eq_ok_iff] at h
    obtain ⟨next, henter, hrest⟩ := h
    obtain ⟨hfolder, rfl⟩ := enter_eq_ok henter
    cases front with
    | nil => exact hfolder
    | cons first front =>
      -- There is a segment after the first one, or the front would be empty.
      by_cases hnil : rest = []
      · rw [hnil] at hfront
        exact absurd (List.prefix_nil.1 hfront) (List.cons_ne_nil _ _)
      · rw [List.dropLast_cons_of_ne_nil hnil, List.cons_prefix_cons] at hfront
        obtain ⟨rfl, hfront⟩ := hfront
        rw [List.foldl_cons]
        exact ih hrest hnil hfront

/-- Saving shows at the place of the file, and only if the place lies in folders all the way. -/
theorem alters_save {p : Path} {bytes : ByteArray} (h : v.save p bytes = .ok v')
    (hne : p.segments ≠ []) :
    Alters (fun _ => False) (· = p.location) v v' ∧ v.isFolder p.location = false ∧
      ∀ front, front <+: p.segments.dropLast → v.isFolder (front.foldl walk []) = true := by
  obtain ⟨hfree, -, hget⟩ := get?_save h
  refine ⟨fun loc => ?_, hfree, fun front hfront => ?_⟩
  · by_cases hloc : loc = p.location
    · -- There has been no folder, or the file could not have been saved.
      refine .file hloc (fun hfolder => ?_) bytes ((hget loc).trans (if_pos hloc))
      rw [← hloc, isFolder_iff_get?.2 (.inr hfolder)] at hfree
      exact nomatch hfree
    · exact .same ((hget loc).trans (if_neg hloc))
  · unfold save at h
    obtain ⟨loc, hresolve, -⟩ := Except.bind_eq_ok_iff.1 h
    exact isFolder_of_follow (resolve_eq_ok_iff.1 hresolve).2.1 hne hfront

end Volume

namespace WriteTask

open Volume

variable {t : WriteTask} {v : Volume} {loc : Location}

/-- The target lies below some root, at the end of some names. -/
def Nested (t : WriteTask) : Prop :=
  ∃ (root : Path) (names : List String), names ≠ [] ∧ t.target = root.join (ofNames names) ∧
    ∀ n ∈ names, IsName n

/-- The segments of a nested target are those of the root and the names below it. -/
private theorem Nested.segments_target (h : t.Nested) :
    ∃ (root : Path) (names : List String), names ≠ [] ∧ t.target = root.join (ofNames names) ∧
      (∀ n ∈ names, IsName n) ∧ t.target.segments = root.segments ++ names := by
  obtain ⟨root, names, hne, htarget, hnames⟩ := h
  refine ⟨root, names, hne, htarget, hnames, ?_⟩
  rw [htarget, Path.segments_join root (Path.isAbsolute_ofNames hnames),
    Path.segments_ofNames hnames]

theorem Nested.segments_ne_nil (h : t.Nested) : t.target.segments ≠ [] := by
  obtain ⟨root, names, hne, -, -, hsegments⟩ := h.segments_target
  rw [hsegments]
  exact List.append_ne_nil_of_right_ne_nil _ hne

/-- The folder around the target has the way of the target without its end. -/
theorem Nested.leadsThrough_folder_iff (h : t.Nested) :
    t.folder.LeadsThrough loc ↔
      ∃ front, front <+: t.target.segments.dropLast ∧ loc = front.foldl walk [] := by
  obtain ⟨root, names, hne, htarget, hnames, hsegments⟩ := h.segments_target
  -- The names without the last one are names of folders below the root.
  have hinit : ∀ n ∈ names.dropLast, IsName n :=
    fun n hn => hnames n (List.dropLast_subset _ hn)
  have hdrop : t.target.segments.dropLast = (root.join (ofNames names.dropLast)).segments := by
    rw [hsegments, List.dropLast_append_of_ne_nil hne,
      Path.segments_join root (Path.isAbsolute_ofNames hinit), Path.segments_ofNames hinit]
  rw [leadsThrough_folder hne htarget hnames, ← Path.leadsThrough_join root hinit, hdrop]
  rfl

/-- A step makes folders on the way of the target's folder, and places a file at the target only
where the target is not on that way. -/
theorem alters_step (h : t.Nested) (stage : Stage) (v : Volume) :
    Alters t.folder.LeadsThrough
      (fun loc => loc = t.target.location ∧ ¬ t.folder.LeadsThrough loc)
      v (t.step (stage, v)).2 := by
  cases stage with
  | waiting =>
    have hmake : Alters t.folder.LeadsThrough
        (fun loc => loc = t.target.location ∧ ¬ t.folder.LeadsThrough loc)
        v (v.makeFolders t.folder).1 :=
      (alters_makeFolders v t.folder).mono (fun _ h => h) fun _ h => h.elim
    change Alters _ _ v (t.prepare v).2
    rw [prepare_eq]
    split
    · next hresult =>
      rw [hresult] at hmake
      exact hmake
    · next hresult =>
      rw [hresult] at hmake
      exact hmake
  | prepared =>
    -- What is staged is not in place yet.
    change Alters _ _ v (t.stage v).2
    rw [WriteTask.stage_eq]
    split
    · split
      · exact fun loc => .same rfl
      · exact .refl _ _ v
    · exact .refl _ _ v
  | staged =>
    change Alters _ _ v (t.place v).2
    rw [place_eq]
    split
    · exact .refl _ _ v
    · split
      · next hsave =>
        obtain ⟨halters, hfree, hway⟩ := alters_save hsave h.segments_ne_nil
        -- On the way there are folders only, and no folder is at the place of the file.
        have hnot : ¬ t.folder.LeadsThrough t.target.location := by
          rw [h.leadsThrough_folder_iff]
          rintro ⟨front, hfront, hloc⟩
          rw [hloc, hway front hfront] at hfree
          exact nomatch hfree
        exact (halters.mono (fun _ h => h.elim) fun loc hloc => ⟨hloc, hloc ▸ hnot⟩).trans
          fun loc => .same rfl
      · exact fun loc => .same rfl
  | placed => exact .refl _ _ v
  | ended result => exact .refl _ _ v

end WriteTask

end Scorecard
