import Scorecard.Proofs.TaskIsolation
import Scorecard.Proofs.Leftovers

/-!
# Records are read back

What stands in the file of an item is the item: its texts with all that had to be escaped in them,
and its payload, however it is nested, as far as a reader follows. Nothing is lost in a number, as
long as there are only integers. So an item whose file can be placed is kept, with the digest of
the file, and the file holds its record; and nothing but a fault of the volume keeps an item from
being kept.

* `Json.WithoutReals`: a document has no numbers but integers.
* `WriteTask.Places`: the file of a task comes to its target.
* `Store.settles_record`: what becomes of an item, and what its file holds.
-/

namespace Scorecard

/-! ### Documents without real numbers -/

namespace Json

mutual

/-- All numbers of the document are integers of 64 bits. -/
def WithoutReals : Json → Prop
  | num (.real _) => False
  | arr items => ItemsWithoutReals items
  | obj members => MembersWithoutReals members
  | _ => True

/-- All numbers of the items are. -/
def ItemsWithoutReals : List Json → Prop
  | [] => True
  | v :: rest => WithoutReals v ∧ ItemsWithoutReals rest

/-- All numbers of the members are. -/
def MembersWithoutReals : List (String × Json) → Prop
  | [] => True
  | (_, v) :: rest => WithoutReals v ∧ MembersWithoutReals rest

end

mutual

/-- Integers are read as they have been written. -/
theorem WithoutReals.legible {v : Json} (h : v.WithoutReals) : v.Legible := by
  cases v with
  | num n =>
    cases n with
    | int n fits => exact Number.legible_int n fits
    | real x => exact h.elim
  | arr items => exact ItemsWithoutReals.legible h
  | obj members => exact MembersWithoutReals.legible h
  | null => trivial
  | bool b => trivial
  | str s => trivial

/-- Items without real numbers can be read back. -/
private theorem ItemsWithoutReals.legible {items : List Json} (h : ItemsWithoutReals items) :
    LegibleItems items := by
  cases items with
  | nil => trivial
  | cons v rest => exact ⟨WithoutReals.legible h.1, ItemsWithoutReals.legible h.2⟩

/-- Members without real numbers can be read back. -/
private theorem MembersWithoutReals.legible {members : List (String × Json)}
    (h : MembersWithoutReals members) : LegibleMembers members := by
  cases members with
  | nil => trivial
  | cons m rest => exact ⟨WithoutReals.legible h.1, MembersWithoutReals.legible h.2⟩

end

end Json

/-! ### Placing a file -/

namespace WriteTask

variable {t : WriteTask} {v : Volume}

/-- The file comes to its target: the folder around it is there or can be made, the file is staged
in it, and takes its place. -/
def Places (t : WriteTask) (v : Volume) : Prop := (t.alone v 3).1 = .placed

theorem Stage.rank_eq_three_iff {stage : Stage} : stage.rank = 3 ↔ stage = .placed := by
  cases stage with
  | placed => simp [Stage.rank]
  | _ => simp [Stage.rank, stepCount]

instance (t : WriteTask) (v : Volume) : Decidable (t.Places v) :=
  decidable_of_iff ((t.alone v 3).1.rank = 3) Stage.rank_eq_three_iff

/-- A task on a volume of its own spares its target until it places its file. -/
private theorem sparing_alone (t : WriteTask) (v : Volume) (n : Nat) :
    t.Sparing v (t.alone v n).2 (t.alone v n).1 := by
  induction n with
  | zero => rfl
  | succ n ih => exact ih.step

/-- On a volume of its own a task takes one step after another. -/
private theorem alone_succ (t : WriteTask) (v : Volume) (n : Nat) :
    t.alone v (n + 1) = t.step (t.alone v n) := rfl

/-- A task that takes all its steps has the volume for itself. -/
private theorem run_eq_alone (t : WriteTask) (v : Volume) :
    t.run v = ((t.alone v stepCount).1.result, (t.alone v stepCount).2) := by
  unfold alone
  exact run_eq t v

/-- What has been placed can be read, and is what was to be written. -/
theorem Places.run (h : t.Places v) :
    (t.run v).1 = .ok t.bytes ∧ (t.run v).2.contents t.target = .ok t.bytes := by
  -- Three steps lead to the placing; the fourth one is left.
  have hsparing := sparing_alone t v 3
  obtain ⟨-, hspec⟩ := t.run_spec v
  have hlast : t.alone v stepCount = t.step (t.alone v 3) := t.alone_succ v 3
  unfold Places at h
  rw [run_eq_alone, hlast] at hspec ⊢
  generalize t.alone v 3 = before at h hsparing hspec ⊢
  obtain ⟨stage, v'⟩ := before
  cases h
  -- The last step reads what has been placed.
  obtain ⟨bytes, hbytes⟩ := hsparing
  obtain ⟨rfl, hcontents⟩ := hspec hbytes
  exact ⟨hbytes, hcontents⟩

end WriteTask

/-! ### Records -/

namespace EvidenceRecord

/-- The record with its payload as a map. -/
def canonical (r : EvidenceRecord) : EvidenceRecord := { r with payload := r.payload.canonical }

theorem canonical_eq_self {r : EvidenceRecord} (h : r.payload.canonical = r.payload) :
    r.canonical = r := by
  unfold canonical
  rw [h]

/-- A record without real numbers is read from its file. -/
theorem ofBytes_of_withoutReals {r : EvidenceRecord} (hreals : r.payload.WithoutReals)
    (hdepth : r.payload.depth < Json.maxDepth) :
    Decode.ofBytes decode r.bytes = .ok r.canonical := by
  rw [ofBytes_bytes hdepth, Json.reread_eq_self _ hreals.legible]
  rfl

theorem ofFile_eq_ok {v : Volume} {p : Path} {bytes : ByteArray} {r : EvidenceRecord}
    (h : v.contents p = .ok bytes) (hrecord : Decode.ofBytes decode bytes = .ok r) :
    ofFile v p = .ok r := by
  unfold ofFile
  rw [h]
  exact Except.mapError_eq_ok_iff.2 hrecord

end EvidenceRecord

namespace Store

variable {e : Evidence} {t : Target}

/-- A file that has been read back as it was written holds the record, and its item is kept. -/
theorem settleItem_of_bytes (hdepth : e.payload.depth < Json.maxDepth) (t : Target) :
    settleItem e t (EvidenceRecord.ofEvidence e).bytes (.ok (EvidenceRecord.ofEvidence e).bytes)
      = .ok ⟨t, Sha256.hex (EvidenceRecord.ofEvidence e).bytes⟩ := by
  -- A record that is not too deep is read back, so that the item is kept.
  obtain ⟨kept, hkept⟩ := (exists_settleItem_iff e t rfl).2 (e.readsBack_iff.2 hdepth)
  obtain ⟨readBack, hread, -, heq⟩ := settleItem_eq_ok hkept
  rw [hkept, heq, Except.ok.inj hread]

/-- Only a fault of the volume can keep an item from being kept whose payload is not too deep. -/
theorem exists_fault_of_writeItem (hdepth : e.payload.depth < Json.maxDepth) {v : Volume}
    {ticket : Nat} {error : StoreError}
    (h : (writeItem v ticket e (.ok t)).1.result = .error error) : ∃ fault, error = .io fault := by
  obtain ⟨-, hspec⟩ := (itemTask ticket e t).run_spec v
  rw [writeItem_ok] at h
  rw [bytes_itemTask] at hspec
  cases hrun : ((itemTask ticket e t).run v).1 with
  | error fault =>
    rw [hrun] at h
    exact ⟨fault, (Except.error.inj h).symm⟩
  | ok readBack =>
    -- What has been read back is the record, and passes all checks.
    obtain ⟨heq, -⟩ := hspec hrun
    rw [hrun, heq] at h
    exact nomatch (settleItem_of_bytes hdepth t).symm.trans h

/-- Whatever an item without real numbers holds, as long as its payload is nested at most 126 deep:
only a fault of the volume can keep it from being kept. If its file comes to its target, it is kept
with the digest of the file, and from the file its record is read, with the payload as a map. -/
theorem settles_record (hreals : e.payload.WithoutReals) (hdepth : e.payload.depth ≤ 126)
    (v : Volume) (ticket : Nat) (t : Target) :
    let bytes := (EvidenceRecord.ofEvidence e).bytes
    let o := writeItem v ticket e (.ok t)
    (∀ error, o.1.result = .error error → ∃ fault, error = .io fault) ∧
    ((itemTask ticket e t).Places v →
      o.1.result = .ok ⟨t, Sha256.hex bytes⟩ ∧ o.2.contents t.path = .ok bytes ∧
      EvidenceRecord.ofFile o.2 t.path = .ok (EvidenceRecord.ofEvidence e).canonical ∧
      (e.payload.canonical = e.payload →
        EvidenceRecord.ofFile o.2 t.path = .ok (EvidenceRecord.ofEvidence e))) := by
  intro bytes o
  have hroom : e.payload.depth < Json.maxDepth := Nat.lt_succ_of_le hdepth
  have hrecord : Decode.ofBytes EvidenceRecord.decode bytes
      = .ok (EvidenceRecord.ofEvidence e).canonical :=
    EvidenceRecord.ofBytes_of_withoutReals hreals hroom
  have hkept : settleItem e t bytes (.ok bytes) = .ok ⟨t, Sha256.hex bytes⟩ :=
    settleItem_of_bytes hroom t
  have hbytes : (EvidenceRecord.ofEvidence e).bytes = bytes := rfl
  have ho : o = writeItem v ticket e (.ok t) := rfl
  -- The bytes play no part from here on, and unfolding them would take long.
  clear_value bytes o
  refine ⟨fun error herror => ?_, fun hplaces => ?_⟩
  · rw [ho] at herror
    exact exists_fault_of_writeItem hroom herror
  · obtain ⟨hrun, hcontents⟩ := hplaces.run
    rw [bytes_itemTask, hbytes] at hrun hcontents
    rw [target_itemTask] at hcontents
    have hfile := EvidenceRecord.ofFile_eq_ok hcontents hrecord
    rw [writeItem_ok, hbytes, hrun, hkept] at ho
    generalize ((itemTask ticket e t).run v).2 = after at ho hcontents hfile
    subst ho
    refine ⟨rfl, hcontents, hfile, fun hmap => ?_⟩
    rw [EvidenceRecord.canonical_eq_self hmap] at hfile
    exact hfile

/-- An item with quotes, backslashes, control characters and letters beyond ASCII in its texts, and
with the greatest and the least integer in its payload. -/
private def awkward : Evidence where
  id := "quote\"\\-01"
  criterionId := "übung\t☃"
  dimension := .testing
  confidence := .low
  summary := "line\nbreak\x00\x1b 𝄞"
  payload := .obj [("found", .arr [.null, .bool true, .num (.int (-0x8000000000000000) (by decide)),
    .num (.int 0xFFFFFFFFFFFFFFFF (by decide)), .obj [("\"", .str "\\ \x07 é")], .arr []])]
  suggestedPath := ⟨"testing/a.json"⟩

/-- A place for its file. -/
private def shelf : Target := ⟨["testing", "a.json"], ⟨"out/testing/a.json"⟩⟩

/-- On an empty volume the item is kept, and its record is read back. -/
theorem settles_record_awkward :
    (awkward.payload.WithoutReals ∧ awkward.payload.depth ≤ 126 ∧
      (itemTask 0 awkward shelf).Places .empty) ∧
    (writeItem Volume.empty 0 awkward (.ok shelf)).1.result
      = .ok ⟨shelf, Sha256.hex (EvidenceRecord.ofEvidence awkward).bytes⟩ ∧
    EvidenceRecord.ofFile (writeItem Volume.empty 0 awkward (.ok shelf)).2 shelf.path
      = .ok (EvidenceRecord.ofEvidence awkward) := by
  have hreals : awkward.payload.WithoutReals := by
    simp [awkward, Json.WithoutReals, Json.ItemsWithoutReals, Json.MembersWithoutReals]
  have hdepth : awkward.payload.depth ≤ 126 := by
    simp [awkward, Json.depth, Json.depthOfItems, Json.depthOfMembers]
  have hmap : awkward.payload.canonical = awkward.payload := by
    simp only [awkward, Json.canonical, Json.canonicalItems, Json.canonicalMembers,
      Json.canonicalInto]
    rfl
  have hplaces : (itemTask 0 awkward shelf).Places .empty := by decide +kernel
  obtain ⟨-, hkept⟩ := settles_record hreals hdepth .empty 0 shelf
  obtain ⟨hresult, -, -, hrecord⟩ := hkept hplaces
  exact ⟨⟨hreals, hdepth, hplaces⟩, hresult, hrecord hmap⟩

end Store

end Scorecard
