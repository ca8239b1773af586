import Scorecard.Proofs.TaskIsolation
import Scorecard.Proofs.Index
import Scorecard.Proofs.Writing

/-!
# Tasks that differ in their bytes

Which bytes a task is to write makes no difference to how far it comes. Two tasks with the same
ticket and the same target that start on the same volume keep abreast of each other step by step:
they meet the same faults, and what they leave differs at most in the file at the target.

The tasks of writing an index under two stamps are such tasks, so that the stamp decides neither
whether the index is written nor what the manifest says of it.

* `WriteTask.Twins`: tasks that differ in their bytes only.
* `WriteTask.Abreast`: tasks that have come equally far, `WriteTask.Abreast.step`: and go on so.
* `WriteTask.run_twins`: both fail in the same way, or both write their bytes.
* `Store.indexTwins_finish`: an index under two stamps.
-/

namespace Scorecard.WriteTask

open Volume

variable {t u : WriteTask} {v w : Volume}

/-- Two tasks with the same ticket and the same target. -/
structure Twins (t u : WriteTask) : Prop where
  ticket : u.ticket = t.ticket
  target : u.target = t.target

/-- Each of two volumes has the bytes of its task at the target; otherwise they are the same. -/
structure Delivered (t u : WriteTask) (v w : Volume) : Prop where
  contents : v.contents t.target = .ok t.bytes
  contents' : w.contents u.target = .ok u.bytes
  elsewhere : ∀ {loc}, loc ≠ t.target.location → w.get? loc = v.get? loc
  staged : w.staged = v.staged

/-- Two tasks that have come equally far. -/
inductive Abreast (t u : WriteTask) : Stage × Volume → Stage × Volume → Prop
  | waiting (v : Volume) : Abreast t u (.waiting, v) (.waiting, v)
  | prepared (v : Volume) : Abreast t u (.prepared, v) (.prepared, v)
  | staged (v : Volume) (folder : Location) :
    Abreast t u (.staged, v.addStaged t.ticket ⟨folder, t.bytes⟩)
      (.staged, v.addStaged u.ticket ⟨folder, u.bytes⟩)
  | placed {v w : Volume} (h : Delivered t u v w) : Abreast t u (.placed, v) (.placed, w)
  | failed (fault : Fault) (v : Volume) :
    Abreast t u (.ended (.error fault), v) (.ended (.error fault), v)
  | written {v w : Volume} (h : Delivered t u v w) :
    Abreast t u (.ended (.ok t.bytes), v) (.ended (.ok u.bytes), w)

/-- Whether bytes can be saved does not depend on the bytes. -/
private theorem save_twin {a c : Volume} {p : Path} (hget : ∀ loc, c.get? loc = a.get? loc)
    (hresolve : c.resolve p = a.resolve p) (bytes bytes' : ByteArray) :
    (∃ fault, a.save p bytes = .error fault ∧ c.save p bytes' = .error fault) ∨
      ∃ a' c', a.save p bytes = .ok a' ∧ c.save p bytes' = .ok c' ∧
        ∀ loc ≠ p.location, c'.get? loc = a'.get? loc := by
  unfold save
  rw [hresolve]
  cases hlead : a.resolve p with
  | error fault => exact .inl ⟨fault, rfl, rfl⟩
  | ok loc =>
    obtain ⟨rfl, hfolder⟩ := resolve_eq_ok hlead
    change (∃ fault, a.putFileAt p.location bytes = .error fault ∧
        c.putFileAt p.location bytes' = .error fault) ∨
      ∃ a' c', a.putFileAt p.location bytes = .ok a' ∧ c.putFileAt p.location bytes' = .ok c' ∧ _
    -- What decides is whether a folder is in the place of the file.
    have hsame : c.isFolder p.location = a.isFolder p.location := isFolder_congr (hget _)
    cases hfree : a.isFolder p.location with
    | true =>
      rw [hfree] at hsame
      refine .inl ⟨.isFolder, ?_, ?_⟩
      · rw [putFileAt, if_pos hfree]
      · rw [putFileAt, if_pos hsame]
    | false =>
      rw [hfree] at hsame
      have hfolder' : c.isFolder p.location.dropLast = true := by
        rw [isFolder_congr (hget _)]
        exact hfolder
      obtain ⟨a', hput, -, hget'⟩ := exists_putFileAt hfolder hfree bytes
      obtain ⟨c', hput', -, hget''⟩ := exists_putFileAt hfolder' hsame bytes'
      refine .inr ⟨a', c', hput, hput', fun loc hne => ?_⟩
      rw [hget', hget'', if_neg hne, if_neg hne, hget]

/-! ### Steps and runs -/

/-- Twins find or make the same folders. -/
private theorem Twins.prepare (h : Twins t u) (v : Volume) :
    Abreast t u (t.prepare v) (u.prepare v) := by
  have hfolder : u.folder = t.folder := by
    unfold folder
    rw [h.target]
  rw [WriteTask.prepare_eq, WriteTask.prepare_eq, hfolder]
  split
  · exact .prepared _
  · exact .failed _ _

/-- Twins stage their files in the same folder. -/
private theorem Twins.stage (h : Twins t u) (v : Volume) :
    Abreast t u (t.stage v) (u.stage v) := by
  have hfolder : u.folder = t.folder := by
    unfold folder
    rw [h.target]
  rw [WriteTask.stage_eq, WriteTask.stage_eq, hfolder]
  split
  · split
    · exact .staged _ _
    · exact .failed _ _
  · exact .failed _ _

/-- Twins place their files, or both fail to. -/
private theorem Twins.place (h : Twins t u) (v : Volume) (folder : Location) :
    Abreast t u (t.place (v.addStaged t.ticket ⟨folder, t.bytes⟩))
      (u.place (v.addStaged u.ticket ⟨folder, u.bytes⟩)) := by
  set a := v.addStaged t.ticket ⟨folder, t.bytes⟩ with ha
  set c := v.addStaged u.ticket ⟨folder, u.bytes⟩ with hc
  -- Each task finds its own bytes under its ticket.
  have hstaged : a.staged.get? t.ticket = some ⟨folder, t.bytes⟩ := by
    rw [ha, get?_staged_addStaged, if_pos rfl]
  have hstaged' : c.staged.get? u.ticket = some ⟨folder, u.bytes⟩ := by
    rw [hc, get?_staged_addStaged, if_pos rfl]
  -- Under the ticket, which is the same, nothing is left on either side.
  have hdropped : c.staged.erase u.ticket = a.staged.erase t.ticket := by
    rw [ha, hc, h.ticket]
    change ((v.addStaged t.ticket _).dropStaged t.ticket).staged
      = ((v.addStaged t.ticket _).dropStaged t.ticket).staged
    rw [dropStaged_addStaged, dropStaged_addStaged]
  rw [WriteTask.place_eq, WriteTask.place_eq, hstaged, hstaged']
  simp only
  -- What is staged has no part in saving.
  rcases save_twin (a := a) (c := c) (p := t.target) (fun _ => rfl) rfl t.bytes u.bytes with
    ⟨fault, hfault, hfault'⟩ | ⟨a', c', hsave, hsave', helsewhere⟩
  · rw [← h.target] at hfault'
    rw [hfault, hfault']
    simp only
    have hsame : c.dropStaged u.ticket = a.dropStaged t.ticket := Volume.ext rfl hdropped
    rw [hsame]
    exact .failed _ _
  · rw [← h.target] at hsave'
    rw [hsave, hsave']
    simp only
    have hread := contents_save hsave
    have hread' := contents_save hsave'
    refine .placed ⟨hread, hread', fun {loc} => helsewhere loc, ?_⟩
    change c'.staged.erase _ = a'.staged.erase _
    rw [(save_eq_ok hsave').2.2, (save_eq_ok hsave).2.2]
    exact hdropped

/-- Two tasks that have come equally far go on so. -/
theorem Abreast.step (h : Twins t u) {x y : Stage × Volume} (hxy : Abreast t u x y) :
    Abreast t u (t.step x) (u.step y) := by
  cases hxy with
  | waiting v => exact h.prepare v
  | prepared v => exact h.stage v
  | staged v folder => exact h.place v folder
  | @placed v w hdelivered =>
    change Abreast t u (.ended (v.contents t.target), v) (.ended (w.contents u.target), w)
    rw [hdelivered.contents, hdelivered.contents']
    exact .written hdelivered
  | failed fault v => exact .failed fault v
  | written hdelivered => exact .written hdelivered

/-- Two tasks that start on the same volume come equally far. -/
private theorem Twins.abreast (h : Twins t u) (v : Volume) (n : Nat) :
    Abreast t u (Nat.repeat t.step n (.waiting, v)) (Nat.repeat u.step n (.waiting, v)) := by
  induction n with
  | zero => exact .waiting v
  | succ n ih => exact ih.step h

/-- A task that takes all its steps comes to its end. -/
private theorem exists_ended (t : WriteTask) (v : Volume) :
    ∃ result, (Nat.repeat t.step stepCount (.waiting, v)).1 = .ended result := by
  obtain ⟨result, hstage⟩ :=
    (Progress.complete_single t).exists_ended (i := 0) (t := t) rfl (.start v)
  rw [Progress.run_replicate (i := 0) (t := t) rfl] at hstage
  simp only [Function.update_self] at hstage
  exact ⟨result, hstage⟩

/-- Of two tasks that differ in their bytes only, both fail in the same way and leave the same
volume, or both write their bytes. -/
theorem run_twins (h : Twins t u) (v : Volume) :
    (∃ fault, (t.run v).1 = .error fault ∧ u.run v = t.run v) ∨
      ((t.run v).1 = .ok t.bytes ∧ (u.run v).1 = .ok u.bytes ∧
        Delivered t u (t.run v).2 (u.run v).2) := by
  have habreast := h.abreast v stepCount
  -- After all steps only the two kinds of end are left.
  obtain ⟨result, hended⟩ := exists_ended t v
  rw [run_eq, run_eq]
  generalize Nat.repeat t.step stepCount (.waiting, v) = x at habreast hended
  generalize Nat.repeat u.step stepCount (.waiting, v) = y at habreast
  cases habreast with
  | failed fault v => exact .inl ⟨fault, rfl, rfl⟩
  | written hdelivered => exact .inr ⟨rfl, rfl, hdelivered⟩
  | _ => exact nomatch hended

end Scorecard.WriteTask

/-! ### An index under two stamps -/

namespace Scorecard.Store

open Volume

variable {s : Store} {stamp stamp' : Stamp} {v w : Volume}

/-- What two attempts leave that differ in their indexes only: either none of these has come to its
place and both leave the same volume, or both have. -/
structure IndexTwins (s : Store) (ix ix' : Index) (a b : Manifest × Volume) : Prop where
  manifest : b.1 = a.1
  elsewhere : ∀ {loc}, loc ≠ s.indexPath.location → b.2.get? loc = a.2.get? loc
  staged : b.2.staged = a.2.staged
  index : (a.1.indexPath = none ∧ b.2 = a.2) ∨
    ((settleIndex ix s.indexPath (.ok ix.bytes) = .ok () → a.1.indexPath = some s.indexPath) ∧
      a.2.contents s.indexPath = .ok ix.bytes ∧ b.2.contents s.indexPath = .ok ix'.bytes)

/-- The tasks of writing the index under two stamps differ in their bytes only. -/
private theorem twins_indexTask (s : Store) (stamp stamp' : Stamp) (items : List Evidence)
    (settled : List Settled) :
    WriteTask.Twins (s.indexTask stamp items settled) (s.indexTask stamp' items settled) := by
  constructor
  · simp only [indexTask]
  · simp only [indexTask]

/-- What is made of an index that has been read back does not depend on its stamp. -/
private theorem settleIndex_indexOf (hstamp : stamp.Legible) (hstamp' : stamp'.Legible)
    (settled : List Settled) (p : Path) :
    settleIndex (indexOf stamp' settled) p (.ok (indexOf stamp' settled).bytes)
      = settleIndex (indexOf stamp settled) p (.ok (indexOf stamp settled).bytes) := by
  rw [indexOf_stamp stamp stamp', indexOf_stamp stamp stamp]
  -- The number of entries alone decides, and it is the same.
  rw [settleIndex_of_legible hstamp', settleIndex_of_legible hstamp]
  rfl

/-- Once the items are settled, the index comes to its place under one stamp if and only if it does
under another one. The second attempt may start on another volume, as long as the task of the first
one would do the same there. -/
theorem indexTwins_finish (hstamp : stamp.Legible) (hstamp' : stamp'.Legible)
    (items : List Evidence) (settled : List Settled)
    (hw : (s.indexTask stamp items settled).run w = (s.indexTask stamp items settled).run v) :
    s.IndexTwins (indexOf stamp settled) (indexOf stamp' settled)
      ((s.finish stamp items settled v).manifest s, (s.finish stamp items settled v).volume)
      ((s.finish stamp' items settled w).manifest s, (s.finish stamp' items settled w).volume) := by
  have htwins := s.twins_indexTask stamp stamp' items settled
  -- Both tasks are compared on the second volume, where the first one would do the same.
  have hruns := WriteTask.run_twins htwins w
  rw [hw] at hruns
  simp only [manifest_finish, volume_finish]
  generalize (s.indexTask stamp items settled).run v = a at hruns ⊢
  generalize (s.indexTask stamp' items settled).run w = b at hruns ⊢
  rcases hruns with ⟨fault, hfault, rfl⟩ | ⟨hresult, hresult', hdelivered⟩
  · -- An index that has not been written is named by its fault alone.
    have hfailed (ix : Index) :
        settleIndex ix s.indexPath (.error fault) = .error (.io fault) := rfl
    rw [hfault, hfailed, hfailed]
    exact ⟨rfl, fun _ => rfl, rfl, .inl ⟨rfl, rfl⟩⟩
  · have hcontents := hdelivered.contents
    have hcontents' := hdelivered.contents'
    rw [target_indexTask, bytes_indexTask] at hcontents hcontents'
    rw [hresult, hresult', bytes_indexTask, bytes_indexTask,
      settleIndex_indexOf hstamp hstamp']
    refine ⟨rfl, fun {loc} hne => ?_, hdelivered.staged,
      .inr ⟨fun hwritten => by rw [hwritten]; rfl, hcontents, hcontents'⟩⟩
    rw [← target_indexTask s stamp items settled] at hne
    exact hdelivered.elsewhere hne

end Scorecard.Store
