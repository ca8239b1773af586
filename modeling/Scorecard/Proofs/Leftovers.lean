import Scorecard.Proofs.Index
import Scorecard.Proofs.Persist
import Scorecard.Volume.Disk

/-!
# What is left behind

The file of an item is placed first and checked afterwards. Up to the placing nothing has happened
at the target, so that an item left out for a fault on the way leaves there what it has found.
Once placed, the file can be read, and it holds the whole record; what can still keep the item from
being kept is that its record is nested too deeply to be read, and then the record stays where it
is. Nothing else in a payload matters, as every number that is written can be read.

* `EvidenceRecord.ofBytes_bytes`: what is read of a record; `Evidence.readsBack_iff`: which records
  are read back.
* `WriteTask.Sparing`: what a task has found at its target is there until it places its own file.
* `Store.LeftOut`, `Store.leftOut_of_granted`: what is left at the place of an item left out.
* `Store.changed_of_link`: where there are links, more can happen there.
-/

namespace Scorecard

open Decode

/-! ### Reading a record back -/

/-- What stands in the file of an item is read as a record with the item's id. -/
def Evidence.ReadsBack (e : Evidence) : Prop :=
  ∃ record, ofBytes EvidenceRecord.decode (EvidenceRecord.ofEvidence e).bytes = .ok record ∧
    record.id = e.id

namespace EvidenceRecord

variable {r : EvidenceRecord}

/-- Of a record its payload is read in canonical form, and all else as it is. -/
theorem decode_toJson (r : EvidenceRecord) :
    decode .text r.toJson = .ok { r with payload := r.payload.canonical } := by
  obtain ⟨id, criterionId, dimension, confidence, summary, payload⟩ := r
  cases dimension <;> cases confidence <;> rfl

/-- A record has no numbers but those of its payload. -/
theorem reread_toJson (r : EvidenceRecord) :
    r.toJson.reread = { r with payload := r.payload.reread }.toJson := by
  obtain ⟨id, criterionId, dimension, confidence, summary, payload⟩ := r
  rfl

/-- A record is an object around its payload. -/
theorem depth_toJson (r : EvidenceRecord) : r.toJson.depth = r.payload.depth + 1 := by
  unfold toJson
  simp only [Json.depth, Json.depthOfMembers, Dimension.toJson, Confidence.toJson]
  omega

/-- From its file a record is read that is not nested too deeply, with its payload as it is read. -/
theorem ofBytes_bytes (hroom : r.payload.depth < Json.maxDepth) :
    ofBytes decode r.bytes = .ok { r with payload := r.payload.reread.canonical } := by
  have hdepth : r.toJson.depth ≤ Json.maxDepth := by
    rw [depth_toJson]
    exact hroom
  rw [bytes, ofBytes_pretty _ hdepth, reread_toJson, decode_toJson]
  rfl

/-- All of a record is looked at. -/
theorem restrict_form (r : EvidenceRecord) :
    r.toJson.form.restrict decode.scope = r.toJson.form := by
  -- Its members are the fields, and all of each field is looked at.
  refine congrArg Json.Form.obj (Json.Form.restrictMembers_eq_self ?_)
  simp only [Json.formOfMembers, List.forall_mem_cons]
  exact ⟨rfl, rfl, rfl, rfl, rfl, rfl, nofun⟩

end EvidenceRecord

/-- A record is read back if and only if it is not nested too deeply, whatever is in it. -/
theorem Evidence.readsBack_iff (e : Evidence) : e.ReadsBack ↔ e.payload.depth < Json.maxDepth := by
  have hdepth := EvidenceRecord.depth_toJson (.ofEvidence e)
  change _ = e.payload.depth + 1 at hdepth
  constructor
  · rintro ⟨record, hrecord, -⟩
    by_contra hdeep
    -- A fault of depth is only certain where the reader goes into all of the text.
    have hscope : (EvidenceRecord.ofEvidence e).toJson.reread.form.restrict
        EvidenceRecord.decode.scope = (EvidenceRecord.ofEvidence e).toJson.reread.form := by
      rw [EvidenceRecord.reread_toJson]
      exact EvidenceRecord.restrict_form _
    have hnone := ofBytes_pretty_of_deep EvidenceRecord.decode (by omega) hscope
    cases hnone.symm.trans hrecord
  · intro hroom
    exact ⟨_, EvidenceRecord.ofBytes_bytes hroom, rfl⟩

/-! ### Up to the placing of the file -/

namespace WriteTask

open Volume

variable {t u : WriteTask} {v₀ v v' : Volume} {stage : Stage}

/-- As long as its file has not been placed a task has left its target as it was; once placed, the
file can be read. -/
def Sparing (t : WriteTask) (v₀ v : Volume) : Stage → Prop
  | .placed => ∃ bytes, v.contents t.target = .ok bytes
  | .ended (.ok _) => True
  | _ => v.fileAt? t.target.location = v₀.fileAt? t.target.location

/-- Making folders leaves all files as they are. -/
private theorem fileAt?_makeFolders (v : Volume) (p : Path) (loc : Location) :
    (v.makeFolders p).1.fileAt? loc = v.fileAt? loc :=
  (grows_makeFolders (fun _ => False) v p).1.fileAt?_eq not_false

/-- Making the folders spares the target. -/
private theorem sparing_prepare
    (h : v.fileAt? t.target.location = v₀.fileAt? t.target.location) :
    t.Sparing v₀ (t.prepare v).2 (t.prepare v).1 := by
  -- Whether or not all folders could be made, no file has changed.
  have hfile := fileAt?_makeFolders v t.folder t.target.location
  rw [prepare_eq]
  split
  · next hresult =>
    rw [hresult] at hfile
    exact hfile.trans h
  · next hresult =>
    rw [hresult] at hfile
    exact hfile.trans h

/-- Staging the file spares the target. -/
private theorem sparing_stage
    (h : v.fileAt? t.target.location = v₀.fileAt? t.target.location) :
    t.Sparing v₀ (t.stage v).2 (t.stage v).1 := by
  rw [stage_eq]
  split
  · split
    · exact h
    · exact h
  · exact h

/-- Placing the file puts the whole of it at the target, or spares it. -/
private theorem sparing_place
    (h : v.fileAt? t.target.location = v₀.fileAt? t.target.location) :
    t.Sparing v₀ (t.place v).2 (t.place v).1 := by
  rw [place_eq]
  split
  · exact h
  · split
    · next saved hsave =>
      -- Dropping what is staged touches nothing that stands on the volume.
      have hdrop : Grows (fun _ => False) saved (saved.dropStaged t.ticket) :=
        ⟨fun hfolder => hfolder, fun _ => .inl rfl⟩
      exact ⟨_, hdrop.contents not_false (contents_save hsave)⟩
    · exact h

/-- A step of the task spares its target, or places a file that can be read. -/
theorem Sparing.step (h : t.Sparing v₀ v stage) :
    t.Sparing v₀ (t.step (stage, v)).2 (t.step (stage, v)).1 := by
  cases stage with
  | waiting => exact sparing_prepare h
  | prepared => exact sparing_stage h
  | staged => exact sparing_place h
  | placed =>
    obtain ⟨bytes, hcontents⟩ := h
    change t.Sparing v₀ v (.ended (v.contents t.target))
    rw [hcontents]
    trivial
  | ended result => exact h

/-- The step of a task with another target spares the target of this one. -/
theorem Sparing.of_confined (h : t.Sparing v₀ v stage) (hu : Confined u v v')
    (htarget : t.target.location ≠ u.target.location) : t.Sparing v₀ v' stage := by
  have hfile := hu.grows.fileAt?_eq htarget
  cases stage with
  | waiting => exact hfile.trans h
  | prepared => exact hfile.trans h
  | staged => exact hfile.trans h
  | placed =>
    obtain ⟨bytes, hcontents⟩ := h
    exact ⟨bytes, hu.grows.contents htarget hcontents⟩
  | ended result =>
    cases result with
    | error fault => exact hfile.trans h
    | ok bytes => trivial

end WriteTask

namespace Progress

variable {tasks : Nat → Option WriteTask}

/-- Whatever the turns are, the tasks spare their targets until they place their files. -/
theorem sparing_run (hapart : Apart tasks) (v : Volume) (turns : List Nat) {i : Nat}
    {t : WriteTask} (hi : tasks i = some t) :
    t.Sparing v (run tasks (start v) turns).volume ((run tasks (start v) turns).stage i) := by
  refine forall_run (P := fun t => t.Sparing v) (p := start v) (fun _ => WriteTask.Sparing.step) ?_
    (fun _ _ _ => rfl) turns hi
  intro i j t u hi hj hij stage v' hsparing stage'
  exact hsparing.of_confined (WriteTask.confined_step u stage' v') (hapart hi hj hij).2

/-- A task that has come to its end with a fault has left its target as it was. One that has read
something back has read its own bytes, and they stand at the target. -/
theorem end_of_complete (hapart : Apart tasks) (v : Volume) {turns : List Nat}
    (hturns : Complete tasks turns) {i : Nat} {t : WriteTask} (hi : tasks i = some t) :
    let last := run tasks (start v) turns
    (∃ fault, (last.stage i).result = .error fault ∧
        last.volume.fileAt? t.target.location = v.fileAt? t.target.location) ∨
      ((last.stage i).result = .ok t.bytes ∧
        last.volume.fileAt? t.target.location = some t.bytes) := by
  intro last
  have hassured : t.Assured last.volume (last.stage i) :=
    (assured_start tasks v).run hapart turns hi
  have hsparing : t.Sparing v last.volume (last.stage i) := sparing_run hapart v turns hi
  -- With all its turns taken the task has ended, one way or the other.
  obtain ⟨result, hresult⟩ := hturns.exists_ended hi (start v)
  change last.stage i = .ended result at hresult
  rw [hresult] at hassured hsparing ⊢
  cases result with
  | error fault => exact .inl ⟨fault, rfl, hsparing⟩
  | ok readBack =>
    obtain ⟨heq, hcontents⟩ := hassured
    exact .inr ⟨congrArg Except.ok heq, (Volume.contents_eq_ok_iff.1 hcontents).2.2⟩

end Progress

/-! ### Items left out -/

namespace Store

variable {s : Store} {stamp : Stamp} {items : List Evidence} {v : Volume} {turns : List Nat}
  {i : Nat} {e : Evidence} {t : Target}

/-- An item whose file has been read back as it was written is kept if its record can be read. -/
theorem exists_settleItem_iff (e : Evidence) (t : Target) {bytes : ByteArray}
    (hbytes : bytes = (EvidenceRecord.ofEvidence e).bytes) :
    (∃ kept, settleItem e t bytes (.ok bytes) = .ok kept) ↔ e.ReadsBack := by
  have hcheck : checkReadBack t.path bytes bytes = .ok () := by
    refine checkReadBack_self ?_ _
    rw [hbytes]
    exact Json.isEmpty_pretty_obj _
  unfold Evidence.ReadsBack
  rw [← hbytes]
  unfold settleItem
  constructor
  · rintro ⟨kept, hkept⟩
    obtain ⟨readBack, hread, hrest⟩ := Except.bind_eq_ok_iff.1 hkept
    obtain ⟨⟨⟩, -, hrest⟩ := Except.bind_eq_ok_iff.1 hrest
    obtain ⟨record, hrecord, hrest⟩ := Except.bind_eq_ok_iff.1 hrest
    -- Reading and checking cannot fail here, so that it is the record that decides.
    cases Except.mapError_eq_ok_iff.1 hread
    refine ⟨record, Except.mapError_eq_ok_iff.1 hrecord, ?_⟩
    by_contra hid
    rw [if_neg hid] at hrest
    exact nomatch hrest
  · rintro ⟨record, hrecord, hid⟩
    refine ⟨⟨t, Sha256.hex bytes⟩, Except.bind_eq_ok_iff.2 ⟨bytes, rfl, ?_⟩⟩
    refine Except.bind_eq_ok_iff.2 ⟨(), hcheck, Except.bind_eq_ok_iff.2 ⟨record, ?_, if_pos hid⟩⟩
    exact Except.mapError_eq_ok_iff.2 hrecord

/-- A fault of the volume is reported only if the task has met with it. -/
theorem eq_error_of_settleItem {written : ByteArray} {result : Except Volume.Fault ByteArray}
    {fault : Volume.Fault} (h : settleItem e t written result = .error (.io fault)) :
    result = .error fault := by
  unfold settleItem at h
  rcases Except.bind_eq_error_iff.1 h with hread | ⟨readBack, -, hrest⟩
  · obtain ⟨fault', hresult, hfault⟩ := Except.mapError_eq_error_iff.1 hread
    cases hfault
    exact hresult
  · -- The checks of what has been read have errors of their own.
    rcases Except.bind_eq_error_iff.1 hrest with hcheck | ⟨-, -, hrest⟩
    · unfold checkReadBack at hcheck
      rcases Except.ite_error_eq_error_iff.1 hcheck with ⟨-, hempty⟩ | ⟨-, hdigest⟩
      · exact nomatch hempty
      · simp only at hdigest
        split at hdigest
        · exact nomatch hdigest
        · exact nomatch hdigest
    · rcases Except.bind_eq_error_iff.1 hrest with hparse | ⟨record, -, hid⟩
      · obtain ⟨misreading, -, hserialization⟩ := Except.mapError_eq_error_iff.1 hparse
        exact nomatch hserialization
      · split at hid
        · exact nomatch hid
        · exact nomatch hid

/-- What is left at the place of an item which has been granted it and is left out for an error. -/
structure LeftOut (e : Evidence) (t : Target) (error : StoreError) (v v' : Volume) : Prop where
  /-- There stands what has stood there before, or the whole record of the item. -/
  whole : v'.fileAt? t.path.location = v.fileAt? t.path.location ∨
    v'.fileAt? t.path.location = some (EvidenceRecord.ofEvidence e).bytes
  /-- With a payload that is not too deep, whatever is in it, it is what has stood there before. -/
  spared : e.payload.depth < Json.maxDepth →
    v'.fileAt? t.path.location = v.fileAt? t.path.location
  /-- So it is for every file that could not be written. -/
  unwritten : ∀ fault, error = .io fault →
    v'.fileAt? t.path.location = v.fileAt? t.path.location
  /-- The other files have been written, and hold a record that is too deep. -/
  refused : (∀ fault, error ≠ .io fault) → Json.maxDepth ≤ e.payload.depth ∧
    v'.fileAt? t.path.location = some (EvidenceRecord.ofEvidence e).bytes

/-- Writing the index leaves the files of the items as they are. -/
theorem fileAt?_finish {settled : List Settled} (ht : Target.Granted s.root t) (v : Volume) :
    (s.finish stamp items settled v).volume.fileAt? t.path.location
      = v.fileAt? t.path.location := by
  rw [volume_finish]
  refine ((s.indexTask stamp items settled).run_spec v).1.grows.fileAt?_eq ?_
  rw [target_indexTask]
  exact location_ne_indexPath ht

/-- An item with a place comes to one of two ends. Its task has met with a fault, and there stands
what has stood there before; or its record stands there, and is checked as it has been written. -/
theorem end_writeInTurns (stamp : Stamp) (v : Volume)
    (hi : (s.requests items)[i]? = some (e, .ok t))
    (hturns : Progress.Complete (tasks (s.requests items)) turns) :
    let bytes := (EvidenceRecord.ofEvidence e).bytes
    let result :=
      ((Progress.run (tasks (s.requests items)) (.start v) turns).stage i).result
    let o := s.writeInTurns stamp items turns v
    (∃ fault, result = .error fault ∧ o.settled[i]? = some ⟨e, .error (.io fault)⟩ ∧
        o.volume.fileAt? t.path.location = v.fileAt? t.path.location) ∨
      (result = .ok bytes ∧ o.settled[i]? = some ⟨e, settleItem e t bytes (.ok bytes)⟩ ∧
        o.volume.fileAt? t.path.location = some bytes) := by
  intro bytes result o
  have hgranted := (Target.of_mem_claim (List.mem_of_getElem? hi)).1
  -- The index is written to another place, after the items.
  have hfile : o.volume.fileAt? t.path.location
      = (Progress.run (tasks (s.requests items)) (.start v) turns).volume.fileAt?
          t.path.location := by
    change (s.writeInTurns stamp items turns v).volume.fileAt? t.path.location = _
    unfold writeInTurns
    exact fileAt?_finish hgranted _
  have hsettled : o.settled[i]? = some ⟨e, settleItem e t bytes result⟩ :=
    (settled_writeInTurns hi).trans (congrArg some (settleAt_ok _ i e t))
  have hend := Progress.end_of_complete (apart_tasks s items) v hturns
    (tasks_eq_some_iff.2 ⟨e, t, hi, rfl⟩)
  rw [target_itemTask, bytes_itemTask] at hend
  rcases hend with ⟨fault, hresult, hsame⟩ | ⟨hresult, hrecord⟩
  · exact .inl ⟨fault, hresult, settled_of_fault hi hresult, hfile.trans hsame⟩
  · refine .inr ⟨hresult, hsettled.trans ?_, hfile.trans hrecord⟩
    change result = _ at hresult
    rw [hresult]

/-- Whatever the turns are, an item that has been granted a place and is left out leaves there what
it has found, unless its record is too deep to be read back. -/
theorem leftOut_writeInTurns (hi : (s.requests items)[i]? = some (e, .ok t))
    (hturns : Progress.Complete (tasks (s.requests items)) turns) {error : StoreError}
    (hx : (s.writeInTurns stamp items turns v).settled[i]? = some ⟨e, .error error⟩) :
    LeftOut e t error v (s.writeInTurns stamp items turns v).volume := by
  rcases end_writeInTurns stamp v hi hturns with
    ⟨fault, -, hsettled, hsame⟩ | ⟨-, hsettled, hrecord⟩
  · have herror := congrArg Settled.result (Option.some.inj (hsettled.symm.trans hx))
    cases herror
    exact ⟨.inl hsame, fun _ => hsame, fun _ _ => hsame, fun hio => absurd rfl (hio fault)⟩
  · -- The file has been placed and read, so that it is the record that has been refused.
    have herror := congrArg Settled.result (Option.some.inj (hsettled.symm.trans hx))
    have hdeep : Json.maxDepth ≤ e.payload.depth := by
      by_contra hroom
      have hreads := (Evidence.readsBack_iff e).2 (Nat.not_le.1 hroom)
      obtain ⟨kept, hkept⟩ := (exists_settleItem_iff e t rfl).2 hreads
      exact nomatch hkept.symm.trans herror
    refine ⟨.inr hrecord, fun hroom => absurd hroom (Nat.not_lt.2 hdeep), fun fault hfault => ?_,
      fun _ => ⟨hdeep, hrecord⟩⟩
    rw [hfault] at herror
    exact nomatch eq_error_of_settleItem herror

/-- Once its record has been written, it depends on the record alone whether an item is kept; the
record stands there in both cases. -/
theorem settled_of_written (stamp : Stamp) (hi : (s.requests items)[i]? = some (e, .ok t))
    (hturns : Progress.Complete (tasks (s.requests items)) turns)
    (hwritten : ((Progress.run (tasks (s.requests items)) (.start v) turns).stage i).result.isOk
      = true) :
    (s.writeInTurns stamp items turns v).volume.fileAt? t.path.location
        = some (EvidenceRecord.ofEvidence e).bytes ∧
      (e.ReadsBack →
        ∃ kept, (s.writeInTurns stamp items turns v).settled[i]? = some ⟨e, .ok kept⟩) ∧
      (¬ e.ReadsBack →
        ∃ error, (s.writeInTurns stamp items turns v).settled[i]? = some ⟨e, .error error⟩) := by
  rcases end_writeInTurns stamp v hi hturns with
    ⟨fault, hfault, -, -⟩ | ⟨-, hsettled, hrecord⟩
  · rw [hfault] at hwritten
    exact nomatch hwritten
  · refine ⟨hrecord, fun hreads => ?_, fun hnot => ?_⟩
    · obtain ⟨kept, hkept⟩ := (exists_settleItem_iff e t rfl).2 hreads
      rw [hkept] at hsettled
      exact ⟨kept, hsettled⟩
    · cases hsettle : settleItem e t (EvidenceRecord.ofEvidence e).bytes
          (.ok (EvidenceRecord.ofEvidence e).bytes) with
      | error error =>
        rw [hsettle] at hsettled
        exact ⟨error, hsettled⟩
      | ok kept => exact absurd ((exists_settleItem_iff e t rfl).1 ⟨kept, hsettle⟩) hnot

/-- An item that has been granted a place and is left out for an error leaves there what it has
found, byte for byte. Only a record that is nested too deeply to be read back is left behind itself,
whole. So it is for one item after another and for items in turns. -/
theorem leftOut_of_granted (s : Store) (stamp : Stamp) (items : List Evidence) (v : Volume)
    (j : Journal) {i : Nat} {e : Evidence} {t : Target} {error : StoreError}
    (hi : (s.requests items)[i]? = some (e, .ok t)) :
    ((s.write stamp items v).settled[i]? = some ⟨e, .error error⟩ →
      LeftOut e t error v ((s.persist stamp items).result v j).2) ∧
    ∀ turns : List Evidence → List Nat,
      Progress.Complete (tasks (s.requests items)) (turns items) →
      (s.writeInTurns stamp items (turns items) v).settled[i]? = some ⟨e, .error error⟩ →
        LeftOut e t error v ((s.persistInTurns stamp turns items).result v j).2 := by
  constructor
  · intro hx
    rw [write_eq_writeInTurns] at hx
    rw [result_persist, write_eq_writeInTurns]
    simp only
    exact leftOut_writeInTurns hi (complete_inOrder s items) hx
  · intro turns hturns hx
    rw [result_persistInTurns]
    simp only
    exact leftOut_writeInTurns hi hturns hx

/-! ### A record that is too deep -/

/-- Arrays in each other. -/
private def nestedArrays : Nat → Json
  | 0 => .null
  | n + 1 => .arr [nestedArrays n]

/-- As many arrays are in each other as the number says. -/
private theorem depth_nestedArrays (n : Nat) : (nestedArrays n).depth = n := by
  induction n with
  | zero => rfl
  | succ n ih =>
    rw [nestedArrays, Json.depth, Json.depthOfItems, Json.depthOfItems, ih, Nat.max_zero]

/-- An item with a file at the root. -/
private def shallowItem : Evidence := ⟨"a-01", "a", .testing, .high, "", .null, ⟨"x.json"⟩⟩

/-- The item with a payload that is too deep. -/
private def deepItem : Evidence := { shallowItem with payload := nestedArrays Json.maxDepth }

/-- The place of both. -/
private def itemPlace : Target := .below ⟨"evidence"⟩ ["x.json"]

/-- An item with that path is granted the place. -/
private theorem requests_single {e : Evidence} (hpath : e.suggestedPath = ⟨"x.json"⟩) :
    (Store.ofRoot ⟨"evidence"⟩).requests [e] = [(e, .ok itemPlace)] := by
  have hnames : (Path.mk "x.json").ordinary = .ok ["x.json"] := by decide +kernel
  have hitem : Target.ofItem ⟨"evidence"⟩ [] [] e = .ok itemPlace := by
    unfold Target.ofItem
    rw [if_neg List.not_mem_nil, hpath, hnames]
    simp only
    rw [if_neg (by decide)]
    rfl
  change [(e, Target.ofItem ⟨"evidence"⟩ [] [] e)] = _
  rw [hitem]

/-- The shallow item can be read back. -/
private theorem readsBack_shallowItem : shallowItem.ReadsBack :=
  (Evidence.readsBack_iff shallowItem).2 (by decide)

/-- The deep item cannot be read back. -/
private theorem not_readsBack_deepItem : ¬ deepItem.ReadsBack := by
  intro h
  have hroom : (nestedArrays Json.maxDepth).depth < Json.maxDepth :=
    (Evidence.readsBack_iff deepItem).1 h
  rw [depth_nestedArrays] at hroom
  exact Nat.lt_irrefl _ hroom

/-- Where a folder stands at its place the first item is left out, and the folder stays. -/
theorem leftOut_of_folder :
    let s := Store.ofRoot ⟨"evidence"⟩
    let v := (Volume.empty.addFolder [] "evidence").addFolder ["evidence"] "x.json"
    let stamp : Stamp := ⟨.nil, ⟨"1970-01-01T00:00:00Z"⟩⟩
    (s.write stamp [shallowItem] v).settled[0]? = some ⟨shallowItem, .error (.io .isFolder)⟩ ∧
      shallowItem.payload.depth < Json.maxDepth ∧
      LeftOut shallowItem itemPlace (.io .isFolder) v
        ((s.persist stamp [shallowItem]).result v .empty).2 := by
  intro s v stamp
  have hrequests := requests_single (e := shallowItem) rfl
  have hi : (s.requests [shallowItem])[0]? = some (shallowItem, .ok itemPlace) := by
    rw [hrequests]
    rfl
  have hsettled : (s.write stamp [shallowItem] v).settled[0]?
      = some ⟨shallowItem, .error (.io .isFolder)⟩ := by
    have hstage : ((Progress.run (tasks (s.requests [shallowItem])) (.start v)
        (Progress.inOrder 0 [shallowItem].length)).stage 0).result = .error .isFolder := by
      rw [hrequests]
      decide +kernel
    rw [write_eq_writeInTurns]
    exact settled_of_fault hi hstage
  exact ⟨hsettled, by decide,
    (leftOut_of_granted s stamp [shallowItem] v .empty hi).1 hsettled⟩

/-- Where the record of the first item stands, the second one is left out and its record stands
there afterwards. -/
theorem deep_record_left_behind :
    let s := Store.ofRoot ⟨"evidence"⟩
    let old := (EvidenceRecord.ofEvidence shallowItem).bytes
    let v := (Volume.empty.addFolder [] "evidence").putFile ["evidence"] "x.json" old
    let stamp : Stamp := ⟨.nil, ⟨"1970-01-01T00:00:00Z"⟩⟩
    (s.requests [deepItem])[0]? = some (deepItem, .ok itemPlace) ∧
      (∃ error, (s.write stamp [deepItem] v).settled[0]? = some ⟨deepItem, .error error⟩) ∧
      v.fileAt? itemPlace.path.location = some old ∧
      ((s.persist stamp [deepItem]).result v .empty).2.fileAt? itemPlace.path.location
        ≠ v.fileAt? itemPlace.path.location := by
  intro s old v stamp
  have hrequests := requests_single (e := deepItem) rfl
  have hi : (s.requests [deepItem])[0]? = some (deepItem, .ok itemPlace) := by
    rw [hrequests]
    rfl
  have hold : v.fileAt? itemPlace.path.location = some old := by
    have hlocation : itemPlace.path.location = ["evidence"] ++ ["x.json"] := by decide +kernel
    have hfolder : (Volume.empty.addFolder [] "evidence").isFolder ["evidence"] = true := by
      decide +kernel
    have hfree : (Volume.empty.addFolder [] "evidence").get? (["evidence"] ++ ["x.json"])
        ≠ some .folder := by
      decide +kernel
    rw [Volume.fileAt?_eq_some_iff, hlocation, Volume.get?_putFile hfolder hfree, if_pos rfl]
  -- The deep record is written and read back without a fault, and only then refused.
  have hok : ((Progress.run (tasks (s.requests [deepItem])) (.start v)
      (Progress.inOrder 0 [deepItem].length)).stage 0).result.isOk = true := by
    rw [hrequests]
    decide +kernel
  obtain ⟨hfile, -, hrefused⟩ :=
    settled_of_written stamp hi (complete_inOrder s [deepItem]) hok
  obtain hsettled := hrefused not_readsBack_deepItem
  rw [← write_eq_writeInTurns] at hsettled hfile
  refine ⟨hi, hsettled, hold, ?_⟩
  rw [result_persist, hold]
  simp only
  rw [hfile]
  -- The first record can be read back, and the second one cannot.
  intro heq
  apply not_readsBack_deepItem
  unfold Evidence.ReadsBack
  rw [Option.some.inj heq]
  exact readsBack_shallowItem

/-- On a disk with links, a shallow item can be left out and its place changed: its task cannot make
the folder to which the link on its way leads; then the second item's task makes that folder, and
puts its own file where the path of the first item leads from then on. -/
theorem changed_of_link :
    let s := Store.ofRoot ⟨"s"⟩
    let d := (Disk.ofVolume (Volume.empty.addFolder [] "s")).addLink ["s"] "b" ⟨"a"⟩
    let item : Evidence := ⟨"a-01", "a", .testing, .high, "", .null, ⟨"b/x.json"⟩⟩
    let items := [item, ⟨"b-01", "b", .testing, .high, "", .null, ⟨"a/x.json"⟩⟩]
    let stamp : Stamp := ⟨.nil, ⟨"1970-01-01T00:00:00Z"⟩⟩
    let t := Target.below s.root ["b", "x.json"]
    (s.requests items)[0]? = some (item, .ok t) ∧ item.payload.depth < Json.maxDepth ∧
      (∃ error, (s.write stamp items d).settled[0]? = some ⟨item, .error error⟩) ∧
      (FileSystem.contents d t.path).isOk = false ∧
      (FileSystem.contents ((s.persist stamp items).result d .empty).2 t.path).isOk = true := by
  intro s d item items stamp t
  set u := Target.below s.root ["a", "x.json"]
  have hclaim : Target.claim s.root items = [.ok t, .ok u] := by decide +kernel
  have hrequests : s.requests items = [(item, .ok t), (⟨"b-01", "b", .testing, .high, "", .null,
      ⟨"a/x.json"⟩⟩, .ok u)] :=
    requests_of_claim hclaim
  -- The link is no folder, and none can be made in its place.
  have hfault : ((itemTask 0 item t).run d).1.isOk = false := by decide +kernel
  have hsettled : ∃ error, (s.write stamp items d).settled[0]? = some ⟨item, .error error⟩ := by
    rw [write_eq_finish, settled_finish, hrequests, writeItems_cons, writeItem_ok]
    cases hresult : ((itemTask 0 item t).run d).1 with
    | error fault => exact ⟨.io fault, rfl⟩
    | ok read =>
      rw [hresult] at hfault
      exact nomatch hfault
  refine ⟨?_, by decide, hsettled, by decide +kernel, ?_⟩
  · rw [hrequests]
    rfl
  · rw [result_persist]
    decide +kernel

end Store

end Scorecard
