import Scorecard.Proofs.Writing
import Scorecard.Volume.Disk

/-!
# Disks

A disk without links is a volume under another name: every operation comes to the same on both, and
so does every task, every order of turns and every attempt to keep items. Where there are links, a
path may lead elsewhere once a file has been put in the place of a link; but what a task reads back
is what it has written, there too.

* `FileSystem.Embeds`: a map under which every operation comes to the same.
* `WriteTask.step_embeds`, `Progress.run_embeds`, `Store.writeInTurns_embeds`: steps, turns and
  attempts to keep items do so too.
* `Disk.embeds_ofVolume`: a volume as a disk without links.
* `Store.persist_ofVolume`: keeping items on such a disk.
* `Disk.Placed`: a disk on which a file has been put, `Disk.placed_putFileAt`.
* `Disk.eq_of_run`: what a task reads back.
-/

namespace Scorecard

/-! ### File systems in which the same comes of every operation -/

section

open FileSystem

variable {σ τ : Type} [FileSystem σ] [FileSystem τ] {f : σ → τ}

/-- What is done to the image of a file system is done to the file system. -/
structure FileSystem.Embeds (f : σ → τ) : Prop where
  makeFolders : ∀ v p, makeFolders (f v) p = (f (makeFolders v p).1, (makeFolders v p).2)
  resolve : ∀ v p, resolve (f v) p = resolve v p
  isFolder : ∀ v loc, isFolder (f v) loc = isFolder v loc
  addStaged : ∀ v ticket s, addStaged (f v) ticket s = f (addStaged v ticket s)
  staged? : ∀ v ticket, staged? (f v) ticket = staged? v ticket
  dropStaged : ∀ v ticket, dropStaged (f v) ticket = f (dropStaged v ticket)
  save : ∀ v p bytes, save (f v) p bytes = (save v p bytes).map f
  contents : ∀ v p, contents (f v) p = contents v p

namespace WriteTask

/-- Making the folders comes to the same. -/
private theorem prepare_embeds (h : Embeds f) (t : WriteTask) (v : σ) :
    t.prepare (f v) = ((t.prepare v).1, f (t.prepare v).2) := by
  unfold prepare
  rw [h.makeFolders]
  rcases makeFolders v t.folder with ⟨v', fault | ⟨⟩⟩
  · rfl
  · rfl

/-- Staging the file comes to the same. -/
private theorem stage_embeds (h : Embeds f) (t : WriteTask) (v : σ) :
    t.stage (f v) = ((t.stage v).1, f (t.stage v).2) := by
  unfold stage
  rw [h.resolve]
  cases resolve v t.folder with
  | error fault => rfl
  | ok loc =>
    simp only
    rw [h.isFolder, h.addStaged]
    split
    · rfl
    · rfl

/-- Placing the file comes to the same. -/
private theorem place_embeds (h : Embeds f) (t : WriteTask) (v : σ) :
    t.place (f v) = ((t.place v).1, f (t.place v).2) := by
  unfold place
  rw [h.staged?]
  cases staged? v t.ticket with
  | none => rfl
  | some s =>
    simp only
    rw [h.save]
    cases save v t.target s.bytes with
    | error fault => exact Prod.ext rfl (h.dropStaged v t.ticket)
    | ok v' => exact Prod.ext rfl (h.dropStaged v' t.ticket)

/-- A step comes to the same. -/
theorem step_embeds (h : Embeds f) (t : WriteTask) (stage : Stage) (v : σ) :
    t.step (stage, f v) = ((t.step (stage, v)).1, f (t.step (stage, v)).2) := by
  cases stage with
  | waiting => exact prepare_embeds h t v
  | prepared => exact stage_embeds h t v
  | staged => exact place_embeds h t v
  | placed => exact Prod.ext (congrArg Stage.ended (h.contents v t.target)) rfl
  | ended result => rfl

/-- A task comes to the same. -/
theorem run_embeds (h : Embeds f) (t : WriteTask) (v : σ) :
    t.run (f v) = ((t.run v).1, f (t.run v).2) := by
  -- The induction is on the number of steps, as both sides take the same number.
  have hrepeat (n : Nat) : Nat.repeat t.step n (.waiting, f v)
      = ((Nat.repeat t.step n (.waiting, v)).1, f (Nat.repeat t.step n (.waiting, v)).2) := by
    induction n with
    | zero => rfl
    | succ n ih =>
      change t.step (Nat.repeat t.step n _) = _
      rw [ih]
      exact step_embeds h t _ _
  rw [run_eq, run_eq, hrepeat]

end WriteTask

/-- However tasks take turns, they come to the same. -/
theorem Progress.run_embeds (h : Embeds f) (tasks : Nat → Option WriteTask) (p : Progress σ)
    (turns : List Nat) : run tasks ⟨p.stage, f p.volume⟩ turns
      = ⟨(run tasks p turns).stage, f (run tasks p turns).volume⟩ := by
  -- The stages are the same on both sides; only the volume is mapped.
  induction turns generalizing p with
  | nil => rfl
  | cons i turns ih =>
    have hadvance : advance tasks ⟨p.stage, f p.volume⟩ i
        = ⟨(advance tasks p i).stage, f (advance tasks p i).volume⟩ := by
      cases hi : tasks i with
      | none => rw [advance_of_none hi, advance_of_none hi]
      | some t =>
        rw [advance_of_some hi, advance_of_some hi]
        simp only
        rw [WriteTask.step_embeds h]
    change run tasks (advance tasks _ i) turns = _
    rw [hadvance]
    exact ih (advance tasks p i)

namespace Store

/-- The same as came of an attempt, with another file system. -/
def Written.map (f : σ → τ) (o : Written σ) : Written τ :=
  ⟨o.settled, o.index, o.indexResult, f o.volume⟩

/-- Whatever the turns are, an attempt to keep items comes to the same. -/
theorem writeInTurns_embeds (h : Embeds f) (s : Store) (stamp : Stamp) (items : List Evidence)
    (turns : List Nat) (v : σ) :
    s.writeInTurns stamp items turns (f v) = (s.writeInTurns stamp items turns v).map f := by
  unfold writeInTurns
  have hrun := Progress.run_embeds h (tasks (s.requests items)) (.start v) turns
  change Progress.run _ (.start (f v)) turns = _ at hrun
  rw [hrun, finish_eq, finish_eq, WriteTask.run_embeds h]
  rfl

end Store

end

/-! ### Disks without links -/

namespace Disk

variable {v : Volume}

/-- Without links, there is no jump. -/
private theorem followTo_ofVolume (v : Volume)
    (jump : Location → List String → Except Volume.Fault Location) (at_ : Location)
    (segments : List String) :
    (ofVolume v).followTo jump at_ segments = v.follow at_ segments := by
  induction segments generalizing at_ with
  | nil => rfl
  | cons segment rest ih =>
    unfold Volume.follow
    rw [followTo, List.foldlM_cons]
    change (v.enter at_ segment).bind _ = (v.enter at_ segment).bind _
    congr 1
    funext loc
    have hnone : (ofVolume v).links.get? loc = none := Table.get?_empty loc
    rw [hnone]
    exact ih loc

/-- Without links, segments lead to the same. -/
theorem follow_ofVolume (v : Volume) (n : Nat) (at_ : Location) (segments : List String) :
    (ofVolume v).follow n at_ segments = v.follow at_ segments := by
  cases n with
  | zero => exact followTo_ofVolume v _ at_ segments
  | succ n => exact followTo_ofVolume v _ at_ segments

theorem resolve_ofVolume (v : Volume) (p : Path) : (ofVolume v).resolve p = v.resolve p := by
  unfold resolve Volume.resolve
  rw [follow_ofVolume]
  rfl

/-- Without links, a path leads to what it names. -/
theorem entry_ofVolume (v : Volume) (p : Path) : (ofVolume v).entry p = v.resolve p := by
  unfold entry
  split
  · next name hlast hslash =>
    obtain ⟨front, hfront⟩ := List.getLast?_eq_some_iff.1 hlast
    unfold Volume.resolve
    rw [follow_ofVolume, hfront, List.dropLast_concat, hslash]
    unfold Volume.follow
    rw [List.foldlM_append]
    cases Volume.checkPath p with
    | error fault => rfl
    | ok =>
      cases List.foldlM v.enter [] front with
      | error fault => rfl
      | ok around =>
        -- The last name leads on from the folder around it, on a volume too.
        change v.enter around name
          = ((v.enter around name).bind Except.ok).bind fun loc => Except.ok loc
        cases v.enter around name with
        | error fault => rfl
        | ok loc => rfl
  · exact resolve_ofVolume v p

/-- Without links, there is none in the way of a folder. -/
private theorem addFolder_ofVolume (v : Volume) (folder : Location) (name : String) :
    (ofVolume v).addFolder folder name = ofVolume (v.addFolder folder name) := by
  unfold addFolder
  -- The guard of a disk against links never strikes.
  rw [dif_neg]
  · rfl
  · exact Bool.not_eq_true _ ▸ congrArg Option.isSome (Table.get?_empty _)

/-- Without links, each segment leads on from where those before it lead, also when folders have
been made on the way. -/
private theorem makeFoldersFrom_ofVolume (v : Volume) {before : List String} {at_ : Location}
    (hbefore : v.follow [] before = .ok at_) (segments : List String) :
    (ofVolume v).makeFoldersFrom before at_ segments
      = (ofVolume (v.makeFoldersFrom at_ segments).1, (v.makeFoldersFrom at_ segments).2) := by
  induction segments generalizing v before at_ with
  | nil => rfl
  | cons segment rest ih =>
    have hnone : (ofVolume v).links.get? (at_ ++ [segment]) = none := Table.get?_empty _
    -- A disk follows each prefix from the top, a volume only its last segment.
    have hfollow : v.follow [] (before ++ [segment]) = v.enter at_ segment := by
      unfold Volume.follow at hbefore ⊢
      rw [List.foldlM_append, hbefore]
      change (v.enter at_ segment).bind Except.ok = v.enter at_ segment
      cases v.enter at_ segment with
      | error fault => rfl
      | ok loc => rfl
    rw [makeFoldersFrom, Volume.makeFoldersFrom, follow_ofVolume, hfollow]
    cases henter : v.enter at_ segment with
    | error fault => rfl
    | ok loc =>
      rw [henter] at hfollow
      simp only
      rw [hnone, Option.isSome_none, Bool.or_false]
      change (if v.isFolder loc = true then _ else if (v.get? loc).isSome = true then _ else _) = _
      split
      · exact ih v hfollow
      · split
        · rfl
        · rw [addFolder_ofVolume]
          exact ih _ ((Volume.grows_addFolder (fun _ => False) v at_ segment).follow hfollow)

/-- Without links, there is none whose place a file could take. -/
private theorem putFileAt_ofVolume (v : Volume) (loc : Location) (bytes : ByteArray) :
    (ofVolume v).putFileAt loc bytes = (v.putFileAt loc bytes).map ofVolume := by
  unfold putFileAt
  split
  · next fault h =>
    change v.putFileAt loc bytes = _ at h
    rw [h]
    rfl
  · next v' h =>
    change v.putFileAt loc bytes = _ at h
    rw [h]
    rfl

/-- A volume as a disk without links. -/
theorem embeds_ofVolume : FileSystem.Embeds ofVolume where
  makeFolders v p := by
    change (ofVolume v).makeFolders p = (ofVolume (v.makeFolders p).1, (v.makeFolders p).2)
    unfold makeFolders Volume.makeFolders
    split
    · rfl
    · cases Volume.checkPath p with
      | error fault => rfl
      | ok => exact makeFoldersFrom_ofVolume v rfl p.segments
  resolve := resolve_ofVolume
  isFolder _ _ := rfl
  addStaged _ _ _ := rfl
  staged? _ _ := rfl
  dropStaged _ _ := rfl
  save v p bytes := by
    change ((ofVolume v).entry p).bind _ = ((v.resolve p).bind _).map ofVolume
    rw [entry_ofVolume]
    cases v.resolve p with
    | error fault => rfl
    | ok loc => exact putFileAt_ofVolume v loc bytes
  contents v p := by
    change ((ofVolume v).resolve p).bind _ = (v.resolve p).bind _
    rw [resolve_ofVolume]
    rfl

end Disk

namespace Store

/-- Keeping items on a disk without links comes to the same as on the volume, in any order. -/
theorem persist_ofVolume (s : Store) (stamp : Stamp) (items : List Evidence) (v : Volume)
    (j : Journal) :
    (s.persist stamp items).result (Disk.ofVolume v) j
        = ((s.persist stamp items).result v j).map id Disk.ofVolume ∧
      ∀ turns, (s.persistInTurns stamp turns items).result (Disk.ofVolume v) j
        = ((s.persistInTurns stamp turns items).result v j).map id Disk.ofVolume := by
  -- In order is one of the turns, so that one fact serves both.
  have hwritten (turns : List Nat) :
      s.writeInTurns stamp items turns (Disk.ofVolume v)
        = (s.writeInTurns stamp items turns v).map .ofVolume :=
    writeInTurns_embeds Disk.embeds_ofVolume s stamp items turns v
  constructor
  · rw [result_persist, result_persist, write_eq_writeInTurns, write_eq_writeInTurns, hwritten]
    generalize s.writeInTurns stamp items _ v = o
    rfl
  · intro turns
    rw [result_persistInTurns, result_persistInTurns, hwritten]
    generalize s.writeInTurns stamp items _ v = o
    rfl

end Store

/-! ### What is read back on a disk -/

namespace Disk

open Volume (Fault)

variable {d d' : Disk} {p : Path} {loc : Location} {bytes : ByteArray}

/-- What is sure of a disk on which a file has been put at a location: no folder and no link is
there, no other bytes are read there, and elsewhere all is as it was. -/
structure Placed (d d' : Disk) (loc : Location) (bytes : ByteArray) : Prop where
  notFolder : d'.volume.isFolder loc = false
  noLink : d'.links.get? loc = none
  file : ∀ {read}, d'.volume.fileAt? loc = some read → read = bytes
  elsewhere : ∀ {loc'}, loc' ≠ loc → d'.volume.get? loc' = d.volume.get? loc'
  links : ∀ {loc'}, loc' ≠ loc → d'.links.get? loc' = d.links.get? loc'

/-- Nothing stands at a name in what is no folder. -/
private theorem get?_eq_none_of_not_folder {v : Volume} {folder : Location}
    (h : ¬ v.isFolder folder = true) (name : String) : v.get? (folder ++ [name]) = none := by
  rw [Option.eq_none_iff_forall_ne_some]
  intro node hget
  apply h
  rw [Volume.isFolder_iff_get?]
  apply v.rooted folder name
  change (v.get? (folder ++ [name])).isSome = true
  rw [hget]
  rfl

/-- Where a file has been put, no folder is, and no other bytes are. -/
private theorem fileAt?_putFileAt {v v' : Volume} (h : v.putFileAt loc bytes = .ok v') :
    v'.isFolder loc = false ∧ ∀ read, v'.fileAt? loc = some read → read = bytes := by
  unfold Volume.putFileAt at h
  split at h
  · exact nomatch h
  · next hfree =>
    split at h
    · exact nomatch h
    · next name hlast =>
      obtain ⟨folder, rfl⟩ := List.getLast?_eq_some_iff.1 hlast
      cases h
      rw [List.dropLast_concat]
      rw [Volume.isFolder_iff_get?, not_or] at hfree
      by_cases hfolder : v.isFolder folder = true
      · have hget : (v.putFile folder name bytes).get? (folder ++ [name]) = some (.file bytes) := by
          rw [Volume.get?_putFile hfolder hfree.2, if_pos rfl]
        constructor
        · rw [Bool.eq_false_iff, ne_eq, Volume.isFolder_iff_get?, hget]
          simp
        · intro read hread
          rw [Volume.fileAt?_eq_some_iff, hget] at hread
          cases hread
          rfl
      · -- Where there is no folder around, nothing has been put in place.
        have hsame : v.putFile folder name bytes = v := by
          unfold Volume.putFile
          rw [dif_neg fun h => hfolder h.1]
        have hnone := get?_eq_none_of_not_folder hfolder name
        rw [hsame]
        constructor
        · rw [Bool.eq_false_iff, ne_eq, Volume.isFolder_iff_get?, hnone]
          simp
        · intro read hread
          rw [Volume.fileAt?_eq_some_iff, hnone] at hread
          cases hread

/-- Putting a file at a location changes nothing elsewhere. -/
theorem placed_putFileAt (h : d.putFileAt loc bytes = .ok d') : Placed d d' loc bytes := by
  unfold putFileAt at h
  split at h
  · exact nomatch h
  · next v hput =>
    cases h
    obtain ⟨hfolder, hfile⟩ := fileAt?_putFileAt hput
    refine ⟨hfolder, ?_, fun {read} hread => hfile read hread, Volume.get?_putFileAt_of_ne hput,
      fun hne => ?_⟩
    · rw [Table.get?_erase, if_pos rfl]
    · rw [Table.get?_erase, if_neg hne]

/-- What can be entered once a file has been put at a location could be entered before. Nothing is
entered from the file. -/
private theorem Placed.enter (h : Placed d d' loc bytes) {at_ ahead : Location} {segment : String}
    (hat : d'.volume.enter at_ segment = .ok ahead) :
    at_ ≠ loc ∧ d.volume.enter at_ segment = .ok ahead := by
  obtain ⟨hfolder, -⟩ := Volume.enter_eq_ok hat
  have hne : at_ ≠ loc := by
    rintro rfl
    rw [h.notFolder] at hfolder
    cases hfolder
  have hfolder' : d.volume.isFolder at_ = true := by
    rw [← Volume.isFolder_congr (h.elsewhere hne)]
    exact hfolder
  exact ⟨hne, (Volume.enter_congr hfolder hfolder').trans hat⟩

/-- Segments lead on one by one, or by a link. -/
private theorem followTo_cons_eq_ok_iff {jump : Location → List String → Except Fault Location}
    {at_ l : Location} {segment : String} {rest : List String} :
    d.followTo jump at_ (segment :: rest) = .ok l ↔
      ∃ ahead, d.volume.enter at_ segment = .ok ahead ∧
        ((d.links.get? ahead = none ∧ d.followTo jump ahead rest = .ok l) ∨
          ∃ target, d.links.get? ahead = some target ∧
            jump (if target.isAbsolute then [] else at_) (segmentsOf target ++ rest) = .ok l) := by
  rw [followTo, Except.bind_eq_ok_iff]
  refine exists_congr fun ahead => and_congr_right fun _ => ?_
  cases d.links.get? ahead with
  | none => simp
  | some target => simp

/-- Segments lead on as before, or to the file, if this is so where links lead on. -/
private theorem Placed.followTo (h : Placed d d' loc bytes)
    {jump jump' : Location → List String → Except Fault Location}
    (hjump : ∀ at_ segments l, jump' at_ segments = .ok l → jump at_ segments = .ok l ∨ l = loc)
    {at_ l : Location} {segments : List String}
    (hfollow : d'.followTo jump' at_ segments = .ok l) :
    d.followTo jump at_ segments = .ok l ∨ l = loc := by
  induction segments generalizing at_ with
  | nil => exact .inl hfollow
  | cons segment rest ih =>
    obtain ⟨ahead, hahead, hrest⟩ := followTo_cons_eq_ok_iff.1 hfollow
    obtain ⟨-, hbefore⟩ := h.enter hahead
    rw [followTo_cons_eq_ok_iff]
    by_cases heq : ahead = loc
    · subst heq
      rcases hrest with ⟨-, hrest⟩ | ⟨target, hlink, -⟩
      · -- Nothing leads on from a file, so that the segments end there.
        cases rest with
        | nil => exact .inr (Except.ok.inj hrest).symm
        | cons next rest =>
          obtain ⟨_, henter, -⟩ := followTo_cons_eq_ok_iff.1 hrest
          exact absurd rfl (h.enter henter).1
      · rw [h.noLink] at hlink
        cases hlink
    · -- At any other location the same link leads on as before, or none does.
      rw [h.links heq] at hrest
      rcases hrest with ⟨hlink, hrest⟩ | ⟨target, hlink, hrest⟩
      · exact (ih hrest).imp_left fun hrest => ⟨ahead, hbefore, .inl ⟨hlink, hrest⟩⟩
      · exact (hjump _ _ _ hrest).imp_left fun hrest =>
          ⟨ahead, hbefore, .inr ⟨target, hlink, hrest⟩⟩

/-- Where segments lead after a file has been put at a location, they led before, or they lead to
the file. -/
private theorem Placed.follow (h : Placed d d' loc bytes) (n : Nat) (at_ : Location)
    (segments : List String) (l : Location) (hfollow : d'.follow n at_ segments = .ok l) :
    d.follow n at_ segments = .ok l ∨ l = loc := by
  -- The jump of the next number of links is what has been followed with this one.
  induction n generalizing at_ l segments with
  | zero => exact h.followTo (by rintro _ _ _ ⟨⟩) hfollow
  | succ n ih => exact h.followTo ih hfollow

/-- Segments that come after others are followed after them, if this is so where links lead on. The
property is what becomes of the segments that come after. -/
private theorem exists_followTo_of_append
    {jump : Location → List String → Except Fault Location} {at_ l : Location}
    {front back : List String} {P : Location → Prop}
    (hjump : ∀ at_ front, jump at_ (front ++ back) = .ok l →
      ∃ mid, jump at_ front = .ok mid ∧ P mid)
    (hend : ∀ mid, d.followTo jump mid back = .ok l → P mid)
    (h : d.followTo jump at_ (front ++ back) = .ok l) :
    ∃ mid, d.followTo jump at_ front = .ok mid ∧ P mid := by
  induction front generalizing at_ with
  | nil => exact ⟨at_, rfl, hend at_ h⟩
  | cons segment front ih =>
    simp only [followTo_cons_eq_ok_iff]
    rw [List.cons_append] at h
    obtain ⟨ahead, hahead, ⟨hlink, hrest⟩ | ⟨target, hlink, hrest⟩⟩ := followTo_cons_eq_ok_iff.1 h
    · obtain ⟨mid, hmid, hP⟩ := ih hrest
      exact ⟨mid, ⟨ahead, hahead, .inl ⟨hlink, hmid⟩⟩, hP⟩
    · -- A link puts its own segments first, and those that come after stay at the end.
      rw [← List.append_assoc] at hrest
      obtain ⟨mid, hmid, hP⟩ := hjump _ _ hrest
      exact ⟨mid, ⟨ahead, hahead, .inr ⟨target, hlink, hmid⟩⟩, hP⟩

/-- Segments that come after others lead on from where these lead. -/
private theorem exists_follow_of_append (n : Nat) (at_ l : Location)
    (front back : List String) (h : d.follow n at_ (front ++ back) = .ok l) :
    ∃ mid, d.follow n at_ front = .ok mid ∧ ∃ m, d.follow m mid back = .ok l := by
  induction n generalizing at_ front with
  | zero =>
    -- Without links left nothing jumps.
    exact exists_followTo_of_append (by rintro _ _ ⟨⟩) (fun mid hend => ⟨0, hend⟩) h
  | succ n ih =>
    exact exists_followTo_of_append (fun at_ front => ih at_ front)
      (fun mid hend => ⟨n + 1, hend⟩) h

/-- A name at which there is no link leads to its location. -/
private theorem followTo_single {jump : Location → List String → Except Fault Location}
    {at_ l ahead : Location} {name : String} (henter : d.volume.enter at_ name = .ok ahead)
    (hlink : d.links.get? ahead = none) (h : d.followTo jump at_ [name] = .ok l) : l = ahead := by
  obtain ⟨ahead', hahead, ⟨-, hrest⟩ | ⟨target, hlink', -⟩⟩ := followTo_cons_eq_ok_iff.1 h
  · cases henter.symm.trans hahead
    exact (Except.ok.inj hrest).symm
  · cases henter.symm.trans hahead
    rw [hlink] at hlink'
    cases hlink'

/-- Once a file has been put at the location that a path names, the path leads there or nowhere. -/
private theorem eq_of_resolve (hentry : d.entry p = .ok loc) (h : Placed d d' loc bytes)
    {l : Location} (hresolve : d'.resolve p = .ok l) : l = loc := by
  obtain ⟨⟨⟩, hcheck, hresolve⟩ := Except.bind_eq_ok_iff.1 hresolve
  obtain ⟨l', hfollow, hresolve⟩ := Except.bind_eq_ok_iff.1 hresolve
  obtain ⟨-, hl⟩ := Except.ite_error_eq_ok_iff.1 hresolve
  cases hl
  unfold entry at hentry
  split at hentry
  · next name hlast hslash =>
    obtain ⟨front, hfront⟩ := List.getLast?_eq_some_iff.1 hlast
    obtain ⟨⟨⟩, -, hentry⟩ := Except.bind_eq_ok_iff.1 hentry
    obtain ⟨around, haround, henter⟩ := Except.bind_eq_ok_iff.1 hentry
    rw [hfront, List.dropLast_concat] at haround
    rw [hfront] at hfollow
    obtain ⟨mid, hmid, m, hlast⟩ := exists_follow_of_append _ _ _ _ _ hfollow
    -- However many links are left, the last name is entered from where the others lead.
    have hname : ∃ ahead, d'.volume.enter mid name = .ok ahead := by
      cases m with
      | zero => exact (followTo_cons_eq_ok_iff.1 hlast).imp fun _ h => h.1
      | succ m => exact (followTo_cons_eq_ok_iff.1 hlast).imp fun _ h => h.1
    obtain ⟨ahead, hahead⟩ := hname
    obtain ⟨hne, hbefore⟩ := h.enter hahead
    -- The folder around the file is found as before, as it is not the file.
    have heq : mid = around := by
      rcases h.follow _ _ _ _ hmid with hmid | hmid
      · exact Except.ok.inj (hmid.symm.trans haround)
      · exact absurd hmid hne
    subst heq
    cases hbefore.symm.trans henter
    cases m with
    | zero => exact followTo_single hahead h.noLink hlast
    | succ m => exact followTo_single hahead h.noLink hlast
  · obtain ⟨⟨⟩, -, hentry⟩ := Except.bind_eq_ok_iff.1 hentry
    obtain ⟨l'', hfollow', hentry⟩ := Except.bind_eq_ok_iff.1 hentry
    obtain ⟨-, hl⟩ := Except.ite_error_eq_ok_iff.1 hentry
    cases hl
    -- Where the path ends in a slash or in no name it is followed to its end both times.
    rcases h.follow _ _ _ _ hfollow with hfollow | hfollow
    · exact Except.ok.inj (hfollow.symm.trans hfollow')
    · exact hfollow

/-- What is read where bytes have been saved are these bytes. -/
private theorem contents_save (hsave : FileSystem.save d p bytes = .ok d') (ticket : Nat)
    {read : ByteArray}
    (hread : FileSystem.contents (FileSystem.dropStaged d' ticket) p = .ok read) :
    read = bytes := by
  obtain ⟨loc, hentry, hput⟩ := Except.bind_eq_ok_iff.1 hsave
  obtain ⟨notFolder, noLink, file, elsewhere, links⟩ := placed_putFileAt hput
  -- What is staged plays no part in where a path leads.
  have hplaced : Placed d (FileSystem.dropStaged d' ticket) loc bytes :=
    ⟨notFolder, noLink, file, elsewhere, links⟩
  obtain ⟨l, hresolve, hread⟩ := Except.bind_eq_ok_iff.1 hread
  cases eq_of_resolve hentry hplaced hresolve
  unfold Volume.contentsAt at hread
  split at hread
  · exact nomatch hread
  · split at hread
    · next stored hfile =>
      cases hread
      exact hplaced.file hfile
    · exact nomatch hread

/-- What is sure of a task by itself: the bytes that it has staged are its own, and so are those
that it reads back. -/
def Owns (t : WriteTask) : WriteTask.Stage × Disk → Prop
  | (.waiting, _) | (.prepared, _) => True
  | (.staged, d) => ∃ folder, FileSystem.staged? d t.ticket = some ⟨folder, t.bytes⟩
  | (.placed, d) => ∀ {read}, FileSystem.contents d t.target = .ok read → read = t.bytes
  | (.ended result, _) => ∀ {read}, result = .ok read → read = t.bytes

/-- It stays sure when the task takes its next step. -/
private theorem owns_step {t : WriteTask} {x : WriteTask.Stage × Disk} (h : Owns t x) :
    Owns t (t.step x) := by
  obtain ⟨stage, d⟩ := x
  cases stage with
  | waiting =>
    change Owns t (t.prepare d)
    unfold WriteTask.prepare
    split
    · trivial
    · exact fun hread => nomatch hread
  | prepared =>
    change Owns t (t.stage d)
    unfold WriteTask.stage
    split
    · split
      · exact ⟨_, (Table.get?_insert ..).trans (if_pos rfl)⟩
      · exact fun hread => nomatch hread
    · exact fun hread => nomatch hread
  | staged =>
    -- It is the own bytes that have been staged, so that they are the ones that are saved.
    obtain ⟨folder, hstaged⟩ := h
    change Owns t (t.place d)
    unfold WriteTask.place
    rw [hstaged]
    simp only
    split
    · next d' hsave => exact contents_save hsave t.ticket
    · exact fun hread => nomatch hread
  | placed => exact h
  | ended result => exact h

/-- On a disk, too, what a task reads back is what it was to write. -/
theorem eq_of_run (t : WriteTask) (d : Disk) {read : ByteArray} (h : (t.run d).1 = .ok read) :
    read = t.bytes := by
  have howns (n : Nat) : Owns t (Nat.repeat t.step n (.waiting, d)) := by
    induction n with
    | zero => trivial
    | succ n ih => exact owns_step ih
  have hlast := howns WriteTask.stepCount
  rw [WriteTask.run_eq] at h
  -- After all its steps the task has ended, and the claim on its end is the one wanted.
  generalize Nat.repeat t.step WriteTask.stepCount (.waiting, d) = last at hlast h
  obtain ⟨stage, d'⟩ := last
  cases stage with
  | ended result => exact hlast h
  | _ => exact nomatch h

end Disk

end Scorecard
