import Scorecard.Proofs.Publish
import Scorecard.Proofs.Table

/-!
# Points by dimension

The outcomes are collected one after another in a table that lists the dimensions of the rubric from
the start. Each outcome goes to its own dimension, so that a dimension ends with what comes of its
outcomes alone, recorded in their order; and as long as the outcomes belong to dimensions of the
rubric, none is added to the table.

* `Breakdown.recordAll`: outcomes recorded one after another.
* `Breakdown.get?_foldl_collect`: a dimension that is listed collects its own outcomes.
* `Rubric.entries_breakdowns`: what is published of all dimensions.
-/

namespace Scorecard

/-! ### Recording outcomes -/

/-- All statuses. -/
def Status.all : List Status := [met, partly, unmet]

namespace Breakdown

/-- The ids of the criteria with a status. -/
def ids (b : Breakdown) : Status → List String
  | .met => b.met
  | .partly => b.partly
  | .unmet => b.unmet

/-- The number of criteria with a status. -/
def count (b : Breakdown) : Status → Nat
  | .met => b.metCount
  | .partly => b.partialCount
  | .unmet => b.unmetCount

/-- Adds the outcomes for several criteria. -/
def recordAll (b : Breakdown) (as : List CriterionOutcome) : Breakdown :=
  as.foldl (fun b a => b.record a.criterionId a.status a.score) b

/-- Recording a criterion adds its score, and leaves the maximum as it is. -/
private theorem score_record (b : Breakdown) (id : String) (status : Status) (score : Float) :
    (b.record id status score).score = b.score + score ∧
      (b.record id status score).max = b.max := by
  cases status <;> exact ⟨rfl, rfl⟩

theorem score_recordAll (b : Breakdown) (as : List CriterionOutcome) :
    (b.recordAll as).score = (as.map (·.score)).foldl (· + ·) b.score ∧
      (b.recordAll as).max = b.max := by
  -- The sum goes on from the score that has been reached, so that the breakdown is generalised.
  induction as generalizing b with
  | nil => exact ⟨rfl, rfl⟩
  | cons a as ih =>
    obtain ⟨hscore, hmax⟩ := b.score_record a.criterionId a.status a.score
    obtain ⟨hscores, hmaxs⟩ := ih (b.record a.criterionId a.status a.score)
    rw [hscore] at hscores
    exact ⟨hscores, hmaxs.trans hmax⟩

/-- A criterion is listed, and counted, under its own status. -/
private theorem ids_record (b : Breakdown) (id : String) (status s : Status) (score : Float) :
    (b.record id status score).ids s = b.ids s ++ (if status = s then [id] else []) ∧
      (b.record id status score).count s = b.count s + (if status = s then 1 else 0) := by
  cases status <;> cases s <;> simp [record, ids, count]

/-- Under each status the ids of its criteria are added in their order, and as many are counted. -/
theorem ids_recordAll (b : Breakdown) (as : List CriterionOutcome) (s : Status) :
    (b.recordAll as).ids s = b.ids s ++ (as.filter (·.status = s)).map (·.criterionId) ∧
      (b.recordAll as).count s = b.count s + (as.filter (·.status = s)).length := by
  induction as generalizing b with
  | nil => simp [recordAll]
  | cons a as ih =>
    obtain ⟨hids, hcount⟩ := b.ids_record a.criterionId a.status s a.score
    obtain ⟨hidsAll, hcountAll⟩ := ih (b.record a.criterionId a.status a.score)
    rw [hids] at hidsAll
    rw [hcount] at hcountAll
    rw [List.filter_cons]
    -- The head is listed under one status only.
    by_cases hs : a.status = s
    · rw [if_pos hs, List.append_assoc] at hidsAll
      rw [if_pos hs, Nat.add_right_comm] at hcountAll
      rw [if_pos (decide_eq_true hs)]
      exact ⟨hidsAll, hcountAll⟩
    · rw [if_neg hs, List.append_nil] at hidsAll
      rw [if_neg hs] at hcountAll
      rw [if_neg (by simpa using hs)]
      exact ⟨hidsAll, hcountAll⟩

/-! ### Collecting outcomes -/

variable {t : Table Dimension Breakdown} {d : Dimension}

/-- A dimension that is listed collects its own outcomes. -/
theorem get?_foldl_collect {b : Breakdown} (as : List CriterionOutcome)
    (h : t.get? d = some b) :
    (as.foldl collect t).get? d = some (b.recordAll (as.filter (·.dimension = d))) := by
  induction as generalizing t b with
  | nil => exact h
  | cons a as ih =>
    rw [List.foldl_cons, List.filter_cons]
    -- The head goes to this dimension, or it leaves the entry as it is.
    by_cases hd : a.dimension = d
    · have hnext : (collect t a).get? d = some (b.record a.criterionId a.status a.score) := by
        unfold collect
        rw [Table.get?_insert, if_pos hd.symm, hd, h]
        rfl
      rw [ih hnext, if_pos (decide_eq_true hd)]
      rfl
    · have hnext : (collect t a).get? d = some b := by
        unfold collect
        rw [Table.get?_insert, if_neg (Ne.symm hd), h]
      rw [ih hnext, if_neg (by simpa using hd)]

/-- A dimension without outcomes is not listed if it has not been. -/
private theorem get?_foldl_collect_of_none {as : List CriterionOutcome} (h : t.get? d = none)
    (has : ∀ a ∈ as, a.dimension ≠ d) : (as.foldl collect t).get? d = none := by
  induction as generalizing t with
  | nil => exact h
  | cons a as ih =>
    obtain ⟨ha, hrest⟩ := List.forall_mem_cons.1 has
    refine ih ?_ hrest
    unfold collect
    rw [Table.get?_insert, if_neg (Ne.symm ha), h]

end Breakdown

/-! ### All dimensions -/

namespace Rubric

variable {r : Rubric} {o : Outcome} {d : Dimension}

theorem mem_dimensions_iff : d ∈ r.dimensions ↔ ∃ c ∈ r.criteria, c.dimension = d := by
  have hall : d ∈ Dimension.all := by
    cases d <;> decide
  unfold dimensions
  simp [hall]

/-- The dimensions stand in their order. -/
theorem ascending_dimensions (r : Rubric) : r.dimensions.Pairwise (· < ·) := by
  have hall : Dimension.all.Pairwise (· < ·) := by decide
  exact hall.filter _

theorem nodup_dimensions (r : Rubric) : r.dimensions.Nodup :=
  List.Nodup.filter _ (by decide : Dimension.all.Nodup)

/-- The dimensions of the rubric before any outcome has been collected. -/
def blankBreakdowns (r : Rubric) : Table Dimension Breakdown :=
  .ofList (r.dimensions.map fun d => (d, .empty (r.weight d)))

theorem get?_blankBreakdowns (r : Rubric) (d : Dimension) :
    r.blankBreakdowns.get? d
      = if d ∈ r.dimensions then some (Breakdown.empty (r.weight d)) else none := by
  -- The dimensions are listed once, so that each has the entry that is made for it.
  have hkeys : ((r.dimensions.map fun d => (d, Breakdown.empty (r.weight d))).map (·.1)).Nodup := by
    rw [List.map_map]
    exact r.nodup_dimensions.map fun _ _ h => h
  unfold blankBreakdowns
  split
  · next hd => exact Table.get?_ofList_of_nodup hkeys (List.mem_map.2 ⟨d, hd, rfl⟩)
  · next hd =>
    refine Option.eq_none_iff_forall_ne_some.2 fun b hb => hd ?_
    obtain ⟨d', hd', heq⟩ := List.mem_map.1 (Table.mem_of_get?_ofList hb)
    rw [← (Prod.mk.inj heq).1]
    exact hd'

/-- What comes of the outcomes of one dimension. -/
def breakdown (r : Rubric) (o : Outcome) (d : Dimension) : Breakdown :=
  ((Breakdown.empty (r.weight d)).recordAll (o.criteria.filter (·.dimension = d))).withPercentage

/-- Under each status a dimension lists its outcomes with that status, and counts them. -/
theorem ids_breakdown (r : Rubric) (o : Outcome) (d : Dimension) (s : Status) :
    (r.breakdown o d).ids s
        = ((o.criteria.filter (·.dimension = d)).filter (·.status = s)).map (·.criterionId) ∧
      (r.breakdown o d).count s = ((r.breakdown o d).ids s).length := by
  obtain ⟨hids, hcount⟩ := Breakdown.ids_recordAll (.empty (r.weight d))
    (o.criteria.filter (·.dimension = d)) s
  have hlist : (r.breakdown o d).ids s
      = ((o.criteria.filter (·.dimension = d)).filter (·.status = s)).map (·.criterionId) := by
    -- The percentage that is added at the end is in none of the lists.
    cases s <;> exact hids
  refine ⟨hlist, ?_⟩
  rw [hlist, List.length_map]
  cases s <;> exact hcount.trans (Nat.zero_add _)

/-- Outcomes of the rubric's dimensions leave its dimensions listed, and no other. -/
theorem get?_breakdowns (h : ∀ a ∈ o.criteria, a.dimension ∈ r.dimensions) (d : Dimension) :
    (r.breakdowns o).get? d = if d ∈ r.dimensions then some (r.breakdown o d) else none := by
  change ((o.criteria.foldl Breakdown.collect r.blankBreakdowns).map _).get? d = _
  rw [Table.get?_map]
  have hblank := r.get?_blankBreakdowns d
  split
  · next hd =>
    rw [if_pos hd] at hblank
    rw [Breakdown.get?_foldl_collect o.criteria hblank]
    rfl
  · next hd =>
    rw [if_neg hd] at hblank
    -- A dimension that is not in the rubric has no outcomes.
    have hother : ∀ a ∈ o.criteria, a.dimension ≠ d := fun a ha heq => hd (heq ▸ h a ha)
    rw [Breakdown.get?_foldl_collect_of_none hblank hother]
    rfl

/-- What is published of the dimensions, one after another. -/
theorem entries_breakdowns (h : ∀ a ∈ o.criteria, a.dimension ∈ r.dimensions) :
    (r.breakdowns o).entries = r.dimensions.map fun d => (d, r.breakdown o d) := by
  have hascending : (r.dimensions.map fun d => (d, r.breakdown o d)).Pairwise
      (fun e e' => e.1 < e'.1) :=
    List.pairwise_map.2 r.ascending_dimensions
  -- Tables are the same if every key has the same entry, and the order of the keys is theirs.
  have htable : r.breakdowns o = ⟨_, hascending⟩ := by
    refine Table.ext_get? fun d => Option.ext fun b => ?_
    rw [get?_breakdowns h, ← Table.mem_entries_iff, Option.ite_none_right_eq_some, List.mem_map]
    constructor
    · rintro ⟨hd, hb⟩
      exact ⟨d, hd, congrArg (d, ·) (Option.some_inj.1 hb)⟩
    · rintro ⟨d', hd', heq⟩
      cases heq
      exact ⟨hd', rfl⟩
  rw [htable]

end Rubric

end Scorecard
