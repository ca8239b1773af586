import Scorecard.Proofs.Grading
import Scorecard.Proofs.Lists

/-!
# Every criterion in one place

An outcome that fits a rubric has one item for each criterion, in the same dimension. So each
criterion stands in one list of one dimension of what is published, and in no other: in the
dimension that it belongs to, under the status it has got.

* `Breakdown.Covers`: what is published of a dimension is what comes of its criteria.
* `Rubric.Partitioned`: the criteria are spread over the dimensions, each of them once.
* `Rubric.publish_partitions`: those of a score are, and no dimension had to be added for it.
-/

namespace Scorecard

variable {r : Rubric} {o : Outcome}

/-! ### The criteria of a dimension -/

namespace Rubric

/-- The ids of a dimension's criteria with a status, in the order of the rubric. -/
def idsOf (r : Rubric) (o : Outcome) (d : Dimension) (s : Status) : List String :=
  ((r.criteria.zip o.criteria).filter fun ca => ca.1.dimension = d ∧ ca.2.status = s).map (·.1.id)

/-- The scores of a dimension's criteria, in the order of the rubric. -/
def scoresOf (r : Rubric) (o : Outcome) (d : Dimension) : List Float :=
  ((r.criteria.zip o.criteria).filter fun ca => ca.1.dimension = d).map (·.2.score)

end Rubric

/-- What is published of a dimension is what comes of its criteria. -/
structure Breakdown.Covers (b : Breakdown) (r : Rubric) (o : Outcome) (d : Dimension) : Prop where
  ids : ∀ s, b.ids s = r.idsOf o d s
  count : ∀ s, b.count s = (b.ids s).length
  max : b.max = r.weight d
  score : b.score = (r.scoresOf o d).foldl (· + ·) 0
  percentage : b.percentage = Points.percentage b.score b.max

/-- The criteria of a rubric are spread over its dimensions, each of them once. -/
structure Rubric.Partitioned (r : Rubric) (o : Outcome) (t : Table Dimension Breakdown) :
    Prop where
  listed : ∀ d, (∃ b, t.get? d = some b) ↔ ∃ c ∈ r.criteria, c.dimension = d
  covers : ∀ d b, t.get? d = some b → b.Covers r o d
  /-- The lists of all dimensions have the criteria, none of them missing and none twice. -/
  once : (t.entries.flatMap fun e => Status.all.flatMap e.2.ids).Perm (r.criteria.map (·.id))
  total : t.sum (fun b => b.metCount + b.partialCount + b.unmetCount) = r.criteria.length

/-! ### Outcomes that fit -/

namespace Outcome.Fits

/-- The items of an outcome belong to dimensions of the rubric. -/
theorem mem_dimensions (h : o.Fits r) {a : CriterionOutcome} (ha : a ∈ o.criteria) :
    a.dimension ∈ r.dimensions := by
  obtain ⟨c, hc, hagrees⟩ := h.criteria.exists_of_mem_right ha
  exact Rubric.mem_dimensions_iff.2 ⟨c, hc, hagrees.dimension⟩

/-- The ids in an outcome are those of the criteria. -/
theorem map_criterionId (h : o.Fits r) :
    o.criteria.map (·.criterionId) = r.criteria.map (·.id) := by
  have hids : List.Forall₂ (· = ·) (r.criteria.map (·.id)) (o.criteria.map (·.criterionId)) := by
    rw [List.forall₂_map_left_iff, List.forall₂_map_right_iff]
    exact h.criteria.imp fun _ _ hagrees => hagrees.id
  rw [List.forall₂_eq_eq_eq] at hids
  exact hids.symm

/-- The ids listed under a status are those of the criteria of the dimension that have it. -/
private theorem idsOf_eq (h : o.Fits r) (d : Dimension) (s : Status) :
    r.idsOf o d s
      = ((o.criteria.filter (·.dimension = d)).filter (·.status = s)).map (·.criterionId) := by
  rw [List.filter_filter]
  -- A criterion and its outcome have the same dimension and the same id.
  refine h.criteria.map_filter_zip (fun c a hagrees => ?_) fun c a hagrees => hagrees.id
  rw [hagrees.dimension, Bool.decide_and, Bool.and_comm]

/-- The scores of a dimension are those of its criteria. -/
private theorem scoresOf_eq (h : o.Fits r) (d : Dimension) :
    r.scoresOf o d = (o.criteria.filter (·.dimension = d)).map (·.score) := by
  refine h.criteria.map_filter_zip (fun c a hagrees => ?_) fun _ _ _ => rfl
  rw [hagrees.dimension]

/-- What comes of the items of a dimension is what comes of its criteria. -/
theorem covers_breakdown (h : o.Fits r) (d : Dimension) : (r.breakdown o d).Covers r o d := by
  obtain ⟨hscore, hmax⟩ := Breakdown.score_recordAll (.empty (r.weight d))
    (o.criteria.filter (·.dimension = d))
  refine ⟨fun s => ?_, fun s => (r.ids_breakdown o d s).2, hmax, ?_, rfl⟩
  · rw [idsOf_eq h]
    exact (r.ids_breakdown o d s).1
  · rw [scoresOf_eq h]
    exact hscore

/-- The lists of a dimension have the ids of its items, each of them once. -/
private theorem flatMap_ids_perm (r : Rubric) (o : Outcome) (d : Dimension) :
    (Status.all.flatMap (r.breakdown o d).ids).Perm
      ((o.criteria.filter (·.dimension = d)).map (·.criterionId)) := by
  have hstatus : ∀ s, s ∈ Status.all := by
    intro s
    cases s <;> decide
  have hids : Status.all.flatMap (r.breakdown o d).ids
      = (Status.all.flatMap fun s =>
          (o.criteria.filter (·.dimension = d)).filter (·.status = s)).map (·.criterionId) := by
    rw [List.map_flatMap]
    exact List.flatMap_congr fun s _ => (r.ids_breakdown o d s).1
  -- Every item has one status, so that it stands in one of the lists.
  rw [hids]
  exact (List.flatMap_filter_perm CriterionOutcome.status (by decide)
    fun a _ => hstatus a.status).map _

/-- The lists of all dimensions have the ids of the criteria, each of them once. -/
private theorem lists_perm (h : o.Fits r) :
    ((r.breakdowns o).entries.flatMap fun e => Status.all.flatMap e.2.ids).Perm
      (r.criteria.map (·.id)) := by
  rw [Rubric.entries_breakdowns fun _ => h.mem_dimensions, List.flatMap_map,
    ← h.map_criterionId]
  -- First the lists of each dimension, then all dimensions.
  refine (List.Perm.flatMap_left _ fun d _ => flatMap_ids_perm r o d).trans ?_
  rw [← List.map_flatMap]
  exact (List.flatMap_filter_perm CriterionOutcome.dimension r.nodup_dimensions
    fun _ => h.mem_dimensions).map _

/-- The criteria are spread over the dimensions, each of them once. -/
theorem partitioned (h : o.Fits r) : r.Partitioned o (r.breakdowns o) := by
  have hget (d : Dimension) := Rubric.get?_breakdowns (fun _ => h.mem_dimensions) d
  have hcovers : ∀ d b, (r.breakdowns o).get? d = some b → b.Covers r o d := by
    intro d b hb
    rw [hget, Option.ite_none_right_eq_some] at hb
    obtain ⟨-, heq⟩ := hb
    rw [← Option.some_inj.1 heq]
    exact h.covers_breakdown d
  refine ⟨fun d => ?_, hcovers, h.lists_perm, ?_⟩
  · rw [← Rubric.mem_dimensions_iff, hget]
    simp
  · -- The counts are the lengths of the lists, and the lists have all criteria.
    have hlength := h.lists_perm.length_eq
    rw [List.length_flatMap, List.length_map] at hlength
    rw [← hlength]
    unfold Table.sum Table.values
    rw [List.map_map]
    refine congrArg List.sum (List.map_congr_left fun e he => ?_)
    have hcount := (hcovers e.1 e.2 ((Table.mem_entries_iff _ _ _).1 he)).count
    simp [Status.all, ← hcount, Breakdown.count, Nat.add_assoc]

/-- Whatever has been collected, the next item finds its dimension listed with its weight. -/
theorem get?_foldl_collect (h : o.Fits r) {front : List CriterionOutcome} {a : CriterionOutcome}
    {back : List CriterionOutcome} (hsplit : o.criteria = front ++ a :: back) :
    ∃ b, (front.foldl Breakdown.collect r.blankBreakdowns).get? a.dimension = some b ∧
      b.max = r.weight a.dimension := by
  have hmem : a ∈ o.criteria := by
    rw [hsplit]
    exact List.mem_append_right _ List.mem_cons_self
  -- The dimension is listed from the start, and recording keeps its weight.
  have hblank := r.get?_blankBreakdowns a.dimension
  rw [if_pos (h.mem_dimensions hmem)] at hblank
  exact ⟨_, Breakdown.get?_foldl_collect front hblank, (Breakdown.score_recordAll _ _).2⟩

end Outcome.Fits

/-! ### Scores -/

namespace Rubric

/-- What is published of the dimensions has every criterion in one list of one dimension, under its
status and in the order of the rubric, with the points and the scores of just those criteria. While
the outcome is collected, no item meets a dimension that is not listed with its weight. -/
theorem publish_partitions {m : Manifest} {j : Journal} {out : ScoreOutput}
    (h : (r.publish o m).result j = .ok out) :
    r.Partitioned o out.breakdowns ∧
    out.breakdowns
        = (o.criteria.foldl Breakdown.collect r.blankBreakdowns).map Breakdown.withPercentage ∧
    ∀ front a back, o.criteria = front ++ a :: back →
      ∃ b, (front.foldl Breakdown.collect r.blankBreakdowns).get? a.dimension = some b ∧
        b.max = r.weight a.dimension := by
  obtain ⟨hfits, rfl⟩ := publish_eq_ok_iff.1 h
  exact ⟨hfits.partitioned, rfl, fun _ _ _ hsplit => hfits.get?_foldl_collect hsplit⟩

/-- Where all criteria of the standard rubric but those worth ten points are met, two of those on
quality stand in one list and the third one in another. -/
theorem publish_partitions_standard :
    let o := standard.graded fun c => if c.maxPoints = 10 then .unmet else .met
    ∃ out, (standard.publish o .empty).result .empty = .ok out ∧
      standard.Partitioned o out.breakdowns ∧
      standard.idsOf o .codeQuality .met = ["lint_clean", "build_passes"] ∧
      standard.idsOf o .codeQuality .unmet = ["dependencies_secure"] := by
  intro o
  have hfits : o.Fits standard :=
    (standard.grades_graded _).fits (issues_eq_nil_iff.1 issues_standard)
  have hpublish := hfits.result_publish .empty .empty
  exact ⟨_, hpublish, (publish_partitions hpublish).1, by decide +kernel, by decide +kernel⟩

end Rubric

end Scorecard
