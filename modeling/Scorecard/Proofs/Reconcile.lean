import Scorecard.Proofs.Engine
import Scorecard.Proofs.Writing

/-!
# What a run says of its evidence

The evaluator, the store and the publisher each speak of the evidence of a run: the evaluator refers
to it, the store says what it has kept and left out, and the publisher keeps the references that the
store can back. They agree whatever the store has been able to write, as the items have different
ids, all of them are referred to, and none has the key of the index.

* `Outcome.get?_paths`: the places published of an outcome.
* `Store.dropped_eq_omitted`: the references dropped are the items left out.
* `Report.Reconciled`: the parts of a report agree.
* `Engine.reconciled_of_outcome`: the parts of every report agree.
-/

namespace Scorecard

/-! ### Places published -/

namespace Outcome

/-- One reference adds its own place, if the manifest has it, and nothing else. -/
private theorem get?_keep (m : Manifest) (paths : Table String Path) (id k : String) :
    (keep m paths id).get? k
      = if k = id then (m.get? k).or (paths.get? k) else paths.get? k := by
  unfold keep
  cases hget : m.get? id with
  | none =>
    by_cases hk : k = id
    · rw [if_pos hk, hk, hget, Option.none_or]
    · rw [if_neg hk]
  | some p =>
    simp only
    rw [Table.get?_insert]
    by_cases hk : k = id
    · rw [if_pos hk, if_pos hk, hk, hget, Option.some_or]
    · rw [if_neg hk, if_neg hk]

/-- Among ids that are gone through, each is kept at the place that the manifest has for it. -/
private theorem get?_foldl_keep (m : Manifest) (ids : List String) (paths : Table String Path)
    (k : String) :
    (ids.foldl (keep m) paths).get? k
      = if k ∈ ids then (m.get? k).or (paths.get? k) else paths.get? k := by
  induction ids generalizing paths with
  | nil => rfl
  | cons id ids ih =>
    rw [List.foldl_cons, ih, get?_keep]
    by_cases hk : k = id
    · -- A second reference to the same item finds the same place.
      by_cases hmem : k ∈ ids
      · rw [if_pos hmem, if_pos hk, if_pos (List.mem_cons_of_mem _ hmem), ← Option.or_assoc,
          Option.or_self]
      · rw [if_neg hmem, if_pos hk, if_pos (List.mem_cons.2 (.inl hk))]
    · rw [if_neg hk]
      simp only [List.mem_cons, hk, false_or]

/-- The places published are those that the manifest has for the evidence referred to and for the
index. -/
theorem get?_paths (o : Outcome) (m : Manifest) (k : String) :
    (o.paths m).get? k
      = if k ∈ o.references ∨ k = Manifest.indexKey then m.get? k else none := by
  unfold paths
  rw [get?_foldl_keep]
  simp only [List.mem_append, List.mem_singleton, Table.get?_empty, Option.or_none]

/-- Where a manifest names nothing else, all that it names is published. -/
theorem paths_eq_entries {o : Outcome} {m : Manifest}
    (h : ∀ {k p}, m.get? k = some p → k ∈ o.references ∨ k = Manifest.indexKey) :
    o.paths m = m.entries := by
  apply Table.ext_get?
  intro k
  rw [get?_paths]
  change _ = m.get? k
  cases hget : m.get? k with
  | none => exact ite_self none
  | some p => rw [if_pos (h hget)]

end Outcome

/-! ### Items kept and left out -/

namespace Store

variable {s : Store} {o : Written Volume}

/-- An item is not left out if and only if it has been kept. -/
private theorem omission?_eq_none_iff {settled : Settled} :
    omission? settled = none ↔ ∃ kept, settled.result = .ok kept := by
  unfold omission?
  cases settled.result with
  | error error => simp
  | ok kept => simp

/-- A test that holds of the items left out picks out their ids, in their order. -/
private theorem filter_ids {settleds : List Settled} {missing : String → Bool}
    (h : ∀ settled ∈ settleds, missing settled.item.id = (omission? settled).isSome) :
    (settleds.map (·.item.id)).filter missing = (settleds.filterMap omission?).map (·.id) := by
  induction settleds with
  | nil => rfl
  | cons settled rest ih =>
    obtain ⟨hfirst, hrest⟩ := List.forall_mem_cons.1 h
    rw [List.map_cons, List.filter_cons, hfirst, ih hrest, List.filterMap_cons]
    unfold omission?
    cases settled.result with
    | error error => rfl
    | ok kept => rfl

/-- The ids of the items left out are those that the manifest does not name, in their order. -/
theorem dropped_eq_omitted (hnodup : (o.settled.map (·.item.id)).Nodup)
    (hid : ∀ settled ∈ o.settled, settled.item.id ≠ Manifest.indexKey) :
    (o.settled.map (·.item.id)).filter (fun id => ((o.manifest s).get? id).isNone)
      = (o.manifest s).omitted.map (·.id) := by
  rw [omitted_manifest]
  apply filter_ids
  intro settled hmem
  -- With different ids, an item is missing from the manifest if it has been left out itself.
  have hiff := exists_get?_manifest_iff (s := s) hnodup hmem (hid settled hmem)
  rw [← omission?_eq_none_iff, ← Option.isSome_iff_exists] at hiff
  rw [Bool.eq_iff_iff, Option.isNone_iff_eq_none, ← Option.not_isSome_iff_eq_none, hiff,
    Option.isSome_iff_ne_none]

end Store

/-! ### Reports -/

/-- The parts of a report agree: the places published are those of the manifest, every item is
either published or left out, the references dropped are the items left out, and the warnings are
those of the manifest and one that counts them. -/
structure Report.Reconciled (report : Report) : Prop where
  paths : report.output.evidencePaths = report.manifest.entries
  either : ∀ e ∈ report.evaluation.evidence,
    Xor (report.output.evidencePaths.contains e.id = true)
      (e.id ∈ report.manifest.omitted.map (·.id))
  dropped : report.evaluation.outcome.dropped report.manifest
    = report.manifest.omitted.map (·.id)
  warnings : report.output.warnings = report.manifest.warnings ++
    if report.manifest.isEmpty then
      ["evidence manifest is empty; " ++ toString report.manifest.omitted.length
        ++ " evidence reference(s) dropped"]
    else if report.manifest.omitted = [] then []
    else
      [toString report.manifest.omitted.length
        ++ " evidence reference(s) dropped: not present in the evidence manifest"]

/-- The ways in which a store keeps items: one after another, or several at a time. -/
inductive Store.Keeps (s : Store) (stamp : Stamp) : (List Evidence → Filed Manifest) → Prop
  | inOrder : Keeps s stamp (s.persist stamp)
  | inTurns (turns : List Evidence → List Nat) : Keeps s stamp (s.persistInTurns stamp turns)

/-- Whatever the way, what comes out is what comes of writing in turns. -/
theorem Store.Keeps.exists_result {s : Store} {stamp : Stamp}
    {keep : List Evidence → Filed Manifest} (h : s.Keeps stamp keep) (items : List Evidence)
    (v : Volume) (j : Journal) :
    ∃ turns, (keep items).result v j = ((s.writeInTurns stamp items turns v).manifest s,
      (s.writeInTurns stamp items turns v).volume) := by
  cases h with
  | inOrder =>
    refine ⟨Progress.inOrder 0 items.length, ?_⟩
    rw [result_persist, write_eq_writeInTurns]
  | inTurns turns => exact ⟨turns items, result_persistInTurns s stamp turns items v j⟩

section

variable {e : Evaluator} {r : Rubric} {s : Snapshot} {language : String} {ds : List Decided}
  {o : Store.Written Volume}

/-- An evaluation refers to its evidence, in its order. -/
theorem Evaluator.Settles.references_assemble (h : e.Settles r s language ds) :
    (assemble r ds).outcome.references = (assemble r ds).evidence.map (·.id) :=
  h.decided.references

/-- No item of an evaluation has the key of the index for its id. -/
theorem Evaluator.Settles.id_ne_indexKey (h : e.Settles r s language ds) {item : Evidence}
    (hitem : item ∈ (assemble r ds).evidence) : item.id ≠ Manifest.indexKey := by
  -- An identity has a hyphen, which the key of the index has not.
  obtain ⟨c, -, n, hn⟩ := h.decided.exists_makeId hitem
  rw [hn]
  exact Evidence.makeId_ne_indexKey c.id n

/-- The references that an evaluation loses are the items that the store has left out. -/
theorem Evaluator.Settles.dropped_eq_omitted (h : e.Settles r s language ds) (st : Store)
    (hitems : o.settled.map (·.item) = (assemble r ds).evidence) :
    (assemble r ds).outcome.dropped (o.manifest st) = (o.manifest st).omitted.map (·.id) := by
  have hids : o.settled.map (·.item.id) = (assemble r ds).evidence.map (·.id) := by
    rw [← hitems, List.map_map]
    rfl
  have hnodup : (o.settled.map (·.item.id)).Nodup := by
    rw [hids]
    exact h.decided.nodup_ids h.valid.distinct
  have hindex : ∀ settled ∈ o.settled, settled.item.id ≠ Manifest.indexKey := fun settled hmem =>
    h.id_ne_indexKey (hitems ▸ List.mem_map_of_mem hmem)
  unfold Outcome.dropped
  rw [h.references_assemble, ← hids]
  exact Store.dropped_eq_omitted hnodup hindex

/-- The places published of an evaluation are those that the store has filed. -/
theorem Evaluator.Settles.paths_eq_entries (h : e.Settles r s language ds) (st : Store)
    (hitems : o.settled.map (·.item) = (assemble r ds).evidence) :
    (assemble r ds).outcome.paths (o.manifest st) = (o.manifest st).entries := by
  apply Outcome.paths_eq_entries
  intro k p hget
  -- What the manifest names is the index or an item, and all items are referred to.
  rcases Store.of_get?_manifest hget with ⟨-, hk, -⟩ | ⟨settled, hmem, -, -, rfl, -⟩
  · exact .inr hk
  · left
    have hitem : settled.item ∈ (assemble r ds).evidence := hitems ▸ List.mem_map_of_mem hmem
    rw [h.references_assemble]
    exact List.mem_map_of_mem hitem

/-- What has been settled by an evaluation is reconciled with what a store has written. -/
theorem Evaluator.Settles.reconciled (h : e.Settles r s language ds) (st : Store)
    (hitems : o.settled.map (·.item) = (assemble r ds).evidence) :
    Report.Reconciled ⟨assemble r ds, o.manifest st,
      r.score (assemble r ds).outcome (o.manifest st)⟩ := by
  have hdropped := h.dropped_eq_omitted st hitems
  have hpaths := h.paths_eq_entries st hitems
  refine ⟨hpaths, fun item hitem => ?_, hdropped, ?_⟩
  · change Xor (((assemble r ds).outcome.paths (o.manifest st)).contains item.id = true) _
    -- An item is left out if and only if the manifest does not name it.
    have hiff : item.id ∈ (o.manifest st).omitted.map (·.id)
        ↔ ((o.manifest st).get? item.id).isNone = true := by
      rw [← hdropped, Outcome.dropped, List.mem_filter, h.references_assemble]
      exact and_iff_right (List.mem_map_of_mem hitem)
    rw [hpaths, hiff]
    unfold Table.contains Manifest.get?
    cases (o.manifest st).entries.get? item.id with
    | none => exact .inr ⟨rfl, Bool.false_ne_true⟩
    | some p => exact .inl ⟨rfl, Bool.false_ne_true⟩
  · change (o.manifest st).warnings ++ (assemble r ds).outcome.dropWarning (o.manifest st) = _
    unfold Outcome.dropWarning
    rw [hdropped, List.length_map]
    simp only [List.length_pos_iff, ite_not]

end

namespace Engine

/-- In every report of a run that keeps its evidence in a store, the publisher agrees with the
store, whatever the store has been able to write. -/
theorem reconciled_of_outcome {E : Engine} {st : Store} {stamp : Stamp} {r : Rubric}
    {s : Snapshot} {v v' : Volume} {j : Journal} {keep : List Evidence → Filed Manifest}
    {report : Report} (hkeep : st.Keeps stamp keep)
    (h : E.outcome keep r s v j = (.ok report, v')) : report.Reconciled := by
  cases hresult : (E.evaluator.evaluate r s s.language).result j with
  | error error =>
    rw [outcome_of_error hresult] at h
    exact nomatch h
  | ok ev =>
    obtain ⟨ds, hsettles, rfl⟩ := Evaluator.evaluate_eq_ok_iff.1 hresult
    -- The store gives the manifest that the outcome is published with.
    obtain ⟨m, v'', j₁, j₂, hrun, houtcome⟩ := outcome_of_ok keep hresult v j
    obtain ⟨turns, hturns⟩ := hkeep.exists_result (Evaluator.assemble r ds).evidence v j₁
    have hm : (m, v'') = _ := (congrArg Prod.fst hrun).symm.trans hturns
    rw [houtcome] at h
    cases h
    rw [(Prod.mk.inj hm).1]
    apply hsettles.reconciled
    unfold Store.writeInTurns
    rw [Store.settled_finish]
    exact Store.items_settled st _ _

/-- A rubric with one criterion about the code and one about the tests. -/
private def codeAndTests : Rubric :=
  ⟨"1", .empty, [⟨"lint", .codeQuality, 60, "lint_issues", none, .empty, .empty⟩,
    ⟨"build", .testing, 40, "build_success", none, .empty, .empty⟩], []⟩

/-- A volume on which a file stands where the evidence about the tests would have its folder. -/
private def squattedVolume : Volume :=
  (Volume.empty.addFolder [] "evidence").putFile ["evidence"] "testing" .empty

/-- Whether a store leaves out the item of an evaluation that has a number. -/
private def leavesOut (st : Store) (stamp : Stamp) (v : Volume) (i : Nat) :
    Except EvaluationError Evaluation → Bool
  | .ok ev => ((st.write stamp ev.evidence v).settled[i]?.bind Store.omission?).isSome
  | .error _ => false

/-- A run whose store leaves out an item gives a report all the same. -/
private theorem exists_outcome_of_leavesOut {E : Engine} {st : Store} {stamp : Stamp} {r : Rubric}
    {s : Snapshot} {v : Volume} {i : Nat}
    (h : leavesOut st stamp v i ((E.evaluator.evaluate r s s.language).result .empty) = true) :
    ∃ report v', E.outcome (st.persist stamp) r s v .empty = (.ok report, v') ∧
      report.manifest.omitted ≠ [] := by
  cases hev : (E.evaluator.evaluate r s s.language).result .empty with
  | error error =>
    rw [hev] at h
    exact nomatch h
  | ok ev =>
    rw [hev] at h
    obtain ⟨o, ho⟩ := Option.isSome_iff_exists.1 h
    obtain ⟨settled, hget, homission⟩ := Option.bind_eq_some_iff.1 ho
    obtain ⟨m, v', j₁, j₂, hrun, houtcome⟩ := outcome_of_ok (st.persist stamp) hev v .empty
    refine ⟨_, v', houtcome, ?_⟩
    -- The manifest of the report is that of the store, and the item is among those left out.
    have hm : (m, v') = _ :=
      (congrArg Prod.fst hrun).symm.trans (Store.result_persist st stamp ev.evidence v j₁)
    change m.omitted ≠ []
    rw [(Prod.mk.inj hm).1, Store.omitted_manifest]
    exact List.ne_nil_of_mem (List.mem_filterMap.2 ⟨settled, List.mem_of_getElem? hget, homission⟩)

/-- The report on a repository of which nothing is known agrees with a store that cannot keep all
of its evidence. -/
theorem reconciled_on_squatted :
    let st := Store.ofRoot ⟨"evidence"⟩
    let stamp : Stamp := ⟨.nil, ⟨"1970-01-01T00:00:00Z"⟩⟩
    ∃ report v', st.Keeps stamp (st.persist stamp) ∧
      (Engine.mk .standard .builtin).outcome (st.persist stamp) codeAndTests (.bare "Rust")
        squattedVolume .empty = (.ok report, v') ∧
      report.Reconciled ∧ report.evaluation.outcome.dropped report.manifest ≠ [] := by
  intro st stamp
  have hleft : leavesOut (.ofRoot ⟨"evidence"⟩) ⟨.nil, ⟨"1970-01-01T00:00:00Z"⟩⟩ squattedVolume 1
      (((Engine.mk .standard .builtin).evaluator.evaluate codeAndTests (.bare "Rust")
        (Snapshot.bare "Rust").language).result .empty) = true := by decide +kernel
  obtain ⟨report, v', houtcome, homitted⟩ := exists_outcome_of_leavesOut hleft
  have hreconciled := reconciled_of_outcome .inOrder houtcome
  refine ⟨report, v', .inOrder, houtcome, hreconciled, ?_⟩
  rw [hreconciled.dropped, ne_eq, List.map_eq_nil_iff]
  exact homitted

end Engine

end Scorecard
