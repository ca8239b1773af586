import Mathlib.Data.List.Count
import Scorecard.Evaluation.Basic
import Scorecard.Proofs.Lists

/-!
# References counted

The counts are collected along the list of all references, and each of these changes the count of
its own id only. So an id has the number of its references as its count, and none if there are no
references to it. The items are then looked up until one is found that is not referred to once.

* `Outcome.get?_tally`: the counts are the numbers of occurrences.
* `Outcome.Misrefers`: what is wrong with the references to an item.
* `Outcome.RepeatsWithin`, `Outcome.RepeatsAcross`: the ways to refer to an id more than once.
* `Outcome.checkReferences_reports_first`: the check reports the first item that is not referred
  to once.
-/

namespace Scorecard

namespace Outcome

variable {o : Outcome} {e : Evidence} {error : EvaluationError} {id : String}

/-! ### The counts -/

/-- Counting on from some counts adds the number of occurrences of each id; ids that occur nowhere
keep the count they had, or none. -/
private theorem get?_foldl_tally (ids : List String) (counts : Table String Nat) (id : String) :
    (ids.foldl (fun counts id => counts.insert id ((counts.get? id).getD 0 + 1)) counts).get? id
      = if ids.count id = 0 then counts.get? id
        else some ((counts.get? id).getD 0 + ids.count id) := by
  -- The counts grow with every id, so that they are generalised.
  induction ids generalizing counts with
  | nil => rfl
  | cons head ids ih =>
    rw [List.foldl_cons, ih, Table.get?_insert, List.count_cons]
    by_cases hhead : id = head
    · subst hhead
      -- This occurrence may be the last one.
      by_cases hids : ids.count id = 0
      · simp [hids]
      · simp [hids, Nat.add_assoc, Nat.add_comm 1]
    · have hne : (head == id) = false := beq_eq_false_iff_ne.2 fun h => hhead h.symm
      simp [hhead, hne]

/-- The counts are the numbers of occurrences. -/
theorem get?_tally (o : Outcome) (id : String) :
    o.tally.get? id
      = if o.references.count id = 0 then none else some (o.references.count id) := by
  unfold tally
  rw [get?_foldl_tally, Table.get?_empty, Option.getD_none, Nat.zero_add]

/-! ### One item -/

/-- What is wrong with the references to an item: there are none, or more than one. -/
inductive Misrefers (o : Outcome) (e : Evidence) : EvaluationError → Prop
  | orphan (h : o.references.count e.id = 0) : o.Misrefers e (.orphanEvidence e.id)
  | repeated (h : 2 ≤ o.references.count e.id) : o.Misrefers e (.repeatedReference e.id)

theorem referenceError?_eq_some_iff :
    e.referenceError? o.tally = some error ↔ o.Misrefers e error := by
  constructor
  · intro h
    unfold Evidence.referenceError? at h
    rw [get?_tally] at h
    -- An id without references has no count at all, which is another case than a count of one.
    by_cases hnone : o.references.count e.id = 0
    · rw [if_pos hnone] at h
      cases h
      exact .orphan hnone
    · rw [if_neg hnone] at h
      obtain ⟨hmany, herror⟩ := (Option.ite_none_right_eq_some ..).1 h
      cases herror
      exact .repeated hmany
  · rintro (h | h)
    · simp [Evidence.referenceError?, get?_tally, h]
    · have hsome : o.references.count e.id ≠ 0 := by omega
      have hmany : 1 < o.references.count e.id := h
      simp [Evidence.referenceError?, get?_tally, hsome, hmany]

theorem referenceError?_eq_none_iff :
    e.referenceError? o.tally = none ↔ o.references.count e.id = 1 := by
  rw [Option.eq_none_iff_forall_not_mem]
  constructor
  · intro h
    -- Neither none nor several: the count is one.
    by_contra hne
    rcases Nat.lt_or_ge (o.references.count e.id) 1 with hlt | hge
    · exact h _ (referenceError?_eq_some_iff.2 (.orphan (Nat.lt_one_iff.1 hlt)))
    · exact h _ (referenceError?_eq_some_iff.2 (.repeated (by omega)))
  · rintro hone error herror
    rcases referenceError?_eq_some_iff.1 herror with h | h <;> omega

/-! ### Repeated references -/

/-- A criterion refers to `id` more than once. -/
def RepeatsWithin (o : Outcome) (id : String) : Prop :=
  ∃ c ∈ o.criteria, 2 ≤ c.evidenceIds.count id

/-- Several criteria refer to `id`. -/
def RepeatsAcross (o : Outcome) (id : String) : Prop :=
  ∃ front c back, o.criteria = front ++ c :: back ∧ id ∈ c.evidenceIds ∧
    ∃ c' ∈ back, id ∈ c'.evidenceIds

theorem two_le_count_references_iff :
    2 ≤ o.references.count id ↔ o.RepeatsWithin id ∨ o.RepeatsAcross id :=
  List.two_le_count_flatMap_iff ..

/-! ### The check -/

theorem checkReferences_eq_ok_iff {evidence : List Evidence} :
    o.checkReferences evidence = .ok () ↔ ∀ e ∈ evidence, o.references.count e.id = 1 := by
  have hiff : o.checkReferences evidence = .ok ()
      ↔ evidence.findSome? (Evidence.referenceError? o.tally) = none := by
    unfold checkReferences
    cases evidence.findSome? (Evidence.referenceError? o.tally) <;> simp
  rw [hiff, List.findSome?_eq_none_iff]
  exact forall₂_congr fun e _ => referenceError?_eq_none_iff

theorem checkReferences_eq_error_iff {evidence : List Evidence} :
    o.checkReferences evidence = .error error ↔ ∃ front e back,
      evidence = front ++ e :: back ∧ (∀ e' ∈ front, o.references.count e'.id = 1) ∧
        o.Misrefers e error := by
  have hiff : o.checkReferences evidence = .error error
      ↔ evidence.findSome? (Evidence.referenceError? o.tally) = some error := by
    unfold checkReferences
    cases evidence.findSome? (Evidence.referenceError? o.tally) <;> simp
  -- The item that is reported is the first with an error, as those before it have none.
  rw [hiff, List.findSome?_eq_some_iff]
  refine exists₃_congr fun front e back => and_congr_right fun _ => ?_
  rw [referenceError?_eq_some_iff, and_comm]
  exact and_congr_left fun _ => forall₂_congr fun e' _ => referenceError?_eq_none_iff

/-- The check accepts a list of items if each of them is referred to once. Otherwise it is about the
first item for which this fails: an orphan without references, or one with several of them, in one
criterion or in different ones. -/
theorem checkReferences_reports_first (o : Outcome) (evidence : List Evidence) :
    (o.checkReferences evidence = .ok () ↔ ∀ e ∈ evidence, o.references.count e.id = 1) ∧
    (∀ error, o.checkReferences evidence = .error error ↔ ∃ front e back,
      evidence = front ++ e :: back ∧ (∀ e' ∈ front, o.references.count e'.id = 1) ∧
        o.Misrefers e error) ∧
    ∀ id, 2 ≤ o.references.count id ↔ o.RepeatsWithin id ∨ o.RepeatsAcross id :=
  ⟨checkReferences_eq_ok_iff, fun _ => checkReferences_eq_error_iff,
    fun _ => two_le_count_references_iff⟩

end Outcome

end Scorecard
