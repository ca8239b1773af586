import Scorecard.Proofs.Table
import Scorecard.Proofs.Trace

/-!
# References with and without a place

An outcome refers to evidence by ids, some of them more than once, and a manifest has places for
ids, whether anything refers to them or not. A score has the places of the ids that are in both, and
that of the index. The references without a place are dropped one by one, in the order of the
outcome: the event on them has them all, and the warning and the count have their number.

* `Outcome.missing`: the references without a place.
* `Manifest.Notes`: the line on references dropped.
* `Outcome.Reconciled`: the parts of a score and of the journal agree on the references.
* `Rubric.publish_reconciles`: those of every score do.
-/

namespace Scorecard

/-- The references that a manifest has no place for, criterion by criterion. -/
def Outcome.missing (o : Outcome) (m : Manifest) : List String :=
  o.criteria.flatMap fun a => a.evidenceIds.filter fun id => (m.get? id).isNone

/-- The line on references dropped, of which there may be none where the manifest has nothing. -/
inductive Manifest.Notes (m : Manifest) (n : Nat) : String → Prop
  | empty (h : ∀ k, m.get? k = none) :
    Notes m n ("evidence manifest is empty; " ++ toString n ++ " evidence reference(s) dropped")
  | dropped (h : ∃ k p, m.get? k = some p) (hn : 0 < n) :
    Notes m n
      (toString n ++ " evidence reference(s) dropped: not present in the evidence manifest")

/-- The parts of a score and what has been added to the journal agree on the references. -/
structure Outcome.Reconciled (o : Outcome) (m : Manifest) (out : ScoreOutput) (j j' : Journal) :
    Prop where
  places : ∀ k p, out.evidencePaths.get? k = some p ↔
    m.get? k = some p ∧ ((∃ a ∈ o.criteria, k ∈ a.evidenceIds) ∨ k = Manifest.indexKey)
  either : ∀ id ∈ o.references, Xor (id ∈ out.evidencePaths.keys) (id ∈ o.missing m)
  noted : (∀ k, m.get? k = none) ∨ o.missing m ≠ [] →
    ∃ line, out.warnings = m.warnings ++ [line] ∧ m.Notes (o.missing m).length line
  silent : (∃ k p, m.get? k = some p) → o.missing m = [] → out.warnings = m.warnings
  /-- The event that a score has been published comes last. -/
  reported : j'.events = j.events
    ++ (if o.missing m = [] then [] else [.referencesDropped (o.missing m)]) ++ [out.event]
  counted : j'.counters = { j.counters with
    referencesDropped := j.counters.referencesDropped + .ofNat (o.missing m).length }

namespace Outcome

variable {o : Outcome} {m : Manifest}

theorem dropped_eq_missing (o : Outcome) (m : Manifest) : o.dropped m = o.missing m :=
  List.filter_flatMap

theorem mem_references_iff {id : String} :
    id ∈ o.references ↔ ∃ a ∈ o.criteria, id ∈ a.evidenceIds :=
  List.mem_flatMap

theorem mem_missing_iff {id : String} :
    id ∈ o.missing m ↔ id ∈ o.references ∧ m.get? id = none := by
  rw [← dropped_eq_missing, dropped, List.mem_filter, Option.isNone_iff_eq_none]

end Outcome

namespace Manifest

variable {m : Manifest}

theorem isEmpty_iff : m.isEmpty = true ↔ ∀ k, m.get? k = none :=
  Table.isEmpty_iff

theorem isEmpty_eq_false_iff : m.isEmpty = false ↔ ∃ k p, m.get? k = some p := by
  rw [← Bool.not_eq_true, isEmpty_iff]
  simp only [not_forall, Option.ne_none_iff_exists']

end Manifest

namespace Outcome

variable {o : Outcome} {m : Manifest}

/-- The line is there where the manifest has nothing or something is missing. -/
private theorem notes_dropWarning (h : (∀ k, m.get? k = none) ∨ o.missing m ≠ []) :
    ∃ line, o.dropWarning m = [line] ∧ m.Notes (o.missing m).length line := by
  rw [← Manifest.isEmpty_iff] at h
  unfold dropWarning
  rw [dropped_eq_missing]
  -- An empty manifest has a line even where nothing is dropped.
  cases hempty : m.isEmpty with
  | true => exact ⟨_, rfl, .empty (Manifest.isEmpty_iff.1 hempty)⟩
  | false =>
    have hpos : 0 < (o.missing m).length :=
      List.length_pos_iff.2 (h.resolve_left (ne_true_of_eq_false hempty))
    refine ⟨_, ?_, .dropped (Manifest.isEmpty_eq_false_iff.1 hempty) hpos⟩
    rw [if_neg Bool.false_ne_true, if_pos hpos]

/-- There is no warning where nothing is missing and the manifest is not empty. -/
private theorem dropWarning_eq_nil (hsome : ∃ k p, m.get? k = some p) (hnone : o.missing m = []) :
    o.dropWarning m = [] := by
  unfold dropWarning
  rw [dropped_eq_missing, hnone, Manifest.isEmpty_eq_false_iff.2 hsome]
  rfl

/-- The references are counted where they are reported, and nothing else is counted. -/
private theorem Fits.reported_and_counted {r : Rubric} (h : o.Fits r) (m : Manifest)
    (j : Journal) :
    ((r.publish o m).journal j).events
        = j.events ++ (o.dropEvents m ++ [(r.score o m).event]) ∧
      ((r.publish o m).journal j).counters
        = { j.counters with
            referencesDropped := j.counters.referencesDropped + .ofNat (o.missing m).length } := by
  -- Publishing comes to its events; the counters grow by what these say.
  have hjournal : (r.publish o m).journal j = _ := congrArg Prod.snd (h.comesTo_publish m j)
  rw [hjournal]
  constructor
  · unfold Journal.events Journal.extend
    rw [List.map_append, List.map_map]
    congr 1
    exact List.map_id _
  · change Counters.grown _ _ = _
    rw [← dropped_eq_missing]
    unfold dropEvents ScoreOutput.event
    -- There is an event on references only if some are dropped, and none counts as none.
    split
    · next hnone =>
      rw [hnone]
      simp [Counters.grown, Event.occurrences, Event.name?, Event.fields, Event.dropped]
    · simp [Counters.grown, Event.occurrences, Event.name?, Event.fields, Event.dropped]

end Outcome

namespace Rubric

/-- Whatever an outcome refers to and whatever a manifest has, a score has the places of what is in
both and of the index, every other reference is dropped, and the warnings, the event and the count
say which and how many. -/
theorem publish_reconciles {r : Rubric} {o : Outcome} {m : Manifest} {j : Journal}
    {out : ScoreOutput} (h : (r.publish o m).result j = .ok out) :
    o.Reconciled m out j ((r.publish o m).journal j) := by
  obtain ⟨hfits, rfl⟩ := publish_eq_ok_iff.1 h
  have hplaces (k : String) : (r.score o m).evidencePaths.get? k = _ := o.get?_paths m k
  obtain ⟨hreported, hcounted⟩ := hfits.reported_and_counted m j
  constructor
  · intro k p
    rw [hplaces, Option.ite_none_right_eq_some, Outcome.mem_references_iff, and_comm]
  · intro id hid
    rw [Table.mem_keys_iff, hplaces, if_pos (.inl hid), Outcome.mem_missing_iff, and_iff_right hid]
    -- A reference has a place or is missing, and never both.
    cases m.get? id with
    | none => simp
    | some p => simp
  · intro hnoted
    obtain ⟨line, hline, hnotes⟩ := Outcome.notes_dropWarning hnoted
    refine ⟨line, ?_, hnotes⟩
    rw [← hline]
    rfl
  · intro hsome hnone
    change m.warnings ++ o.dropWarning m = m.warnings
    rw [Outcome.dropWarning_eq_nil hsome hnone, List.append_nil]
  · rw [hreported, ← List.append_assoc, ← Outcome.dropped_eq_missing]
    rfl
  · exact hcounted

/-- Where all eight criteria refer twice to an item of their own and once to a lost one, and the
manifest has the item of one criterion, one that no criterion refers to and the index, twenty-two
references are dropped. -/
theorem publish_reconciles_standard :
    let o := Outcome.ofCriteria (standard.criteria.map fun c => c.graded .met [c.id, c.id, "lost"])
      standard.totalPoints
    let m : Manifest := {
      entries := .ofList [
        ("lint_clean", ⟨"evidence/lint_clean.json"⟩),
        ("other", ⟨"evidence/other.json"⟩),
        (Manifest.indexKey, ⟨"evidence/index.json"⟩)]
      indexPath := some ⟨"evidence/index.json"⟩
      omitted := []
      warnings := ["slow disk"] }
    ∃ out, (standard.publish o m).result .empty = .ok out ∧
      o.Reconciled m out .empty ((standard.publish o m).journal .empty) ∧
      (o.missing m).length = 22 ∧ out.evidencePaths.keys = [Manifest.indexKey, "lint_clean"] := by
  intro o m
  have hgrades : o.Grades standard :=
    standard.grades_ofCriteria (fun _ => .met) fun c => [c.id, c.id, "lost"]
  have hpublish := (hgrades.fits (issues_eq_nil_iff.1 issues_standard)).result_publish m .empty
  exact ⟨_, hpublish, publish_reconciles hpublish, by decide +kernel, by decide +kernel⟩

end Rubric

end Scorecard
