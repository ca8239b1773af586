import Scorecard.Proofs.Accounts
import Scorecard.Proofs.Failing
import Scorecard.Proofs.Reconcile

/-!
# The events of a run

A run that is refused reports nothing, and one that is stopped by a criterion reports the criteria
before that one. Otherwise it reports all criteria, what has become of every item, what has become
of the index, the references dropped, if there are any, the score, and at last the counts. What is
reported of the items is what the manifest says of them. The counts go with the events: every
criterion and every item is counted once, where it is reported.

* `Store.Keeps.comesTo`, `Outcome.Fits.comesTo_publish`: what a store and the publisher report.
* `Engine.Traced`: the events of a run, one after another.
* `Engine.run_reports`: every run reports these events, and counts them.
-/

namespace Scorecard

/-! ### Events on items and on the index -/

/-- The event that reports what became of an item. -/
def Settled.event (x : Settled) : Event :=
  match x.result with
  | .ok kept => .evidencePersisted x.item.id kept.target.path kept.digest
  | .error error => .evidenceOmitted x.item.id error.message

namespace Manifest

/-- What an event says of an item is what the manifest says: the item is kept, with the digest of
its record, or it is left out. -/
inductive Tells (m : Manifest) (item : Evidence) : Event → Prop
  | persisted {path : Path} (h : m.get? item.id = some path) :
    Tells m item
      (.evidencePersisted item.id path (Sha256.hex (EvidenceRecord.ofEvidence item).bytes))
  | omitted {reason : String} (h : ⟨item.id, reason⟩ ∈ m.omitted) :
    Tells m item (.evidenceOmitted item.id reason)

/-- What an event says of an index with some entries is what the manifest says. -/
inductive TellsIndex (m : Manifest) (entries : Nat) : Event → Prop
  | written {path : Path} (h : m.indexPath = some path) :
    TellsIndex m entries (.indexWritten path entries)
  | failed {reason : String} (h : m.indexPath = none)
    (hwarning : "evidence index not written: " ++ reason ∈ m.warnings) :
    TellsIndex m entries (.indexFailed reason)

/-- Every item is reported once, as kept or as left out. -/
theorem occurrences_of_tells {m : Manifest} {items : List Evidence} {events : List Event}
    (h : List.Forall₂ m.Tells items events) :
    Event.occurrences "evidence.persisted" events + Event.occurrences "evidence.omitted" events
      = items.length := by
  induction h with
  | nil => rfl
  | cons hhead _ ih =>
    rw [List.length_cons, ← ih]
    cases hhead with
    | persisted => simp [Event.occurrences, Event.name?, Event.fields]; omega
    | omitted => simp [Event.occurrences, Event.name?, Event.fields]; omega

end Manifest

namespace Store

variable {s : Store} {stamp : Stamp} {items : List Evidence}

/-- The event that reports what became of the index. -/
def Written.indexEvent (s : Store) (o : Written Volume) : Event :=
  match o.indexResult with
  | .ok () => .indexWritten s.indexPath o.index.totalEntries
  | .error error => .indexFailed error.message

/-- All that is reported of an attempt to keep items. -/
def Written.events (s : Store) (o : Written Volume) : List Event :=
  o.settled.map Settled.event ++ [o.indexEvent s]

/-- What became of an item is one event. -/
private theorem comesTo_reportItem (x : Settled) : (reportItem x).ComesTo () [x.event] := by
  unfold reportItem Settled.event
  cases x.result with
  | ok kept =>
    exact Logged.comesTo_emit_count fun c => by
      simp [Counters.grown, Event.occurrences, Event.name?, Event.fields, Event.dropped]
  | error error =>
    exact Logged.comesTo_emit_count fun c => by
      simp [Counters.grown, Event.occurrences, Event.name?, Event.fields, Event.dropped]

/-- What became of the index is one event. -/
private theorem comesTo_reportIndex (s : Store) (o : Written Volume) :
    (s.reportIndex o.index o.indexResult).ComesTo () [o.indexEvent s] := by
  unfold reportIndex Written.indexEvent
  cases o.indexResult with
  | ok => exact Logged.comesTo_emit rfl rfl
  | error error => exact Logged.comesTo_emit rfl rfl

theorem comesTo_report (s : Store) (o : Written Volume) : (s.report o).ComesTo () (o.events s) :=
  (Logged.comesTo_forM comesTo_reportItem o.settled).bind (comesTo_reportIndex s o)

/-- Whatever the way of keeping items, what is reported is what comes of writing in turns. -/
theorem Keeps.comesTo {keep : List Evidence → Filed Manifest} (h : s.Keeps stamp keep)
    (items : List Evidence) (v : Volume) :
    ∃ turns, ((keep items).run v).ComesTo
      ((s.writeInTurns stamp items turns v).manifest s, (s.writeInTurns stamp items turns v).volume)
      ((s.writeInTurns stamp items turns v).events s) := by
  cases h with
  | inOrder =>
    refine ⟨Progress.inOrder 0 items.length, fun j => ?_⟩
    rw [run_persist, write_eq_writeInTurns, comesTo_report]
  | inTurns turns =>
    refine ⟨turns items, fun j => ?_⟩
    rw [run_persistInTurns, comesTo_report]

/-- The events on items tell what the manifest says of them. -/
private theorem tells_settled (s : Store) (stamp : Stamp) (turns : List Nat) (v : Volume)
    (hids : ∀ e ∈ items, e.id ≠ Manifest.indexKey) :
    let o := s.writeInTurns stamp items turns v
    List.Forall₂ (o.manifest s).Tells items (o.settled.map Settled.event) := by
  intro o
  have hitems : o.settled.map (·.item) = items := s.items_writeInTurns stamp items turns v
  have htells : ∀ x ∈ o.settled, (o.manifest s).Tells x.item x.event := by
    intro x hx
    unfold Settled.event
    cases hresult : x.result with
    | ok kept =>
      -- The record has been read back, so that the digest is that of its bytes.
      obtain ⟨-, hdigest, -, -⟩ := of_kept hx hresult
      simp only
      rw [hdigest]
      exact .persisted (get?_manifest_of_kept hx hresult
        (hids _ (hitems ▸ List.mem_map_of_mem hx)))
    | error error =>
      refine .omitted ?_
      rw [omitted_manifest]
      refine List.mem_filterMap.2 ⟨x, hx, ?_⟩
      unfold omission?
      rw [hresult]
  rw [← hitems, List.forall₂_map_left_iff, List.forall₂_map_right_iff, List.forall₂_same]
  exact htells

/-- There are as many events on items kept as there are such items. -/
private theorem occurrences_persisted (settled : List Settled) :
    Event.occurrences "evidence.persisted" (settled.map Settled.event)
      = settled.countP (·.result.isOk) := by
  unfold Event.occurrences
  rw [List.countP_map]
  refine List.countP_congr fun x _ => ?_
  change decide (x.event.name? = some "evidence.persisted") = true ↔ _
  unfold Settled.event
  cases x.result with
  | ok kept => simp [Event.name?, Event.fields, Except.isOk, Except.toBool]
  | error error => simp [Event.name?, Event.fields, Except.isOk, Except.toBool]

/-- The event on the index tells what the manifest says of it. -/
private theorem tellsIndex_indexEvent (s : Store) (stamp : Stamp) (items : List Evidence)
    (turns : List Nat) (v : Volume) :
    let o := s.writeInTurns stamp items turns v
    (o.manifest s).TellsIndex
      (Event.occurrences "evidence.persisted" (o.settled.map Settled.event)) (o.indexEvent s) := by
  intro o
  have hindex : o.index = indexOf stamp o.settled := by
    unfold o writeInTurns
    rw [index_finish, settled_finish]
  -- The index has one entry for each item that is reported as kept.
  have hentries : o.index.totalEntries
      = Event.occurrences "evidence.persisted" (o.settled.map Settled.event) := by
    rw [hindex, totalEntries_indexOf, occurrences_persisted]
  unfold Written.indexEvent Written.manifest
  rw [← hentries]
  cases o.indexResult with
  | ok => exact .written rfl
  | error error => exact .failed rfl (List.mem_append_right _ (List.mem_singleton.2 rfl))

end Store

/-! ### Events of the publisher -/

/-- The event that reports the references dropped, if there are any. -/
def Outcome.dropEvents (o : Outcome) (m : Manifest) : List Event :=
  if o.dropped m = [] then [] else [.referencesDropped (o.dropped m)]

/-- The event that reports a score. -/
def ScoreOutput.event (out : ScoreOutput) : Event :=
  .scorePublished out.totalScore out.percentage out.grade out.evidencePaths.size

/-- References that are dropped are one event, if there are any. -/
private theorem Outcome.comesTo_reportDropped (o : Outcome) (m : Manifest) :
    (o.reportDropped m).ComesTo () (o.dropEvents m) := by
  unfold reportDropped dropEvents
  cases o.dropped m with
  | nil => exact Logged.comesTo_pure ()
  | cons id ids =>
    exact Logged.comesTo_emit_count fun c => by
      simp [Counters.grown, Event.occurrences, Event.name?, Event.fields, Event.dropped]

/-- What is reported of an outcome that fits. -/
theorem Outcome.Fits.comesTo_publish {o : Outcome} {r : Rubric} (h : o.Fits r) (m : Manifest) :
    (r.publish o m).ComesTo (.ok (r.score o m)) (o.dropEvents m ++ [(r.score o m).event]) := by
  unfold Rubric.publish
  rw [Rubric.outcomeError?_eq_none_iff.2 h]
  exact Attempt.ComesTo.lift_bind (o.comesTo_reportDropped m)
    (.report_bind (Logged.comesTo_emit rfl rfl)
      (Attempt.comesTo_pure _))

/-! ### Events of a run -/

/-- The event that reports the verdict on a criterion. -/
def Evaluator.TellsVerdict (e : Evaluator) (s : Snapshot) (language : String) (c : Criterion)
    (event : Event) : Prop :=
  ∃ v, e.Decides s language c v ∧
    event = .criterionEvaluated c.id c.dimension v.status (v.status.points c.maxPoints)
      v.evidence.length

/-- The events on decisions tell the verdicts on the criteria, one by one. -/
private theorem Evaluator.DecidesAll.tellsVerdict {e : Evaluator} {s : Snapshot}
    {language : String} {cs : List Criterion} {ds : List Decided}
    (h : e.DecidesAll s language cs ds) :
    List.Forall₂ (e.TellsVerdict s language) cs (ds.map Decided.event) := by
  refine List.forall₂_map_right_iff.2 (h.imp ?_)
  rintro c d ⟨v, hv, rfl⟩
  have hlength : (Evidence.ofDrafts c.id c.dimension v.evidence).length = v.evidence.length := by
    rw [Evidence.ofDrafts, List.length_map, List.length_zipIdx]
  exact ⟨v, hv, congrArg (Event.criterionEvaluated _ _ _ _) hlength⟩

namespace Engine

variable {E : Engine} {st : Store} {stamp : Stamp} {keep : List Evidence → Filed Manifest}
  {r : Rubric} {s : Snapshot} {v v' : Volume} {j : Journal}
  {x : Attempt EvaluationError Evaluation} {missing? : Option String} {events : List Event}

/-- The references that a run has dropped. -/
def dropped : Except Failure Report → List String
  | .ok report => report.evaluation.outcome.dropped report.manifest
  | .error _ => []

/-- What a run reports before the counts, where it comes to its end: its start, the verdicts, the
end of the evaluation, what became of the items and of the index, the references dropped, and the
score. -/
def body (e : Evaluator) (r : Rubric) (s : Snapshot) (report : Report) (verdicts items : List Event)
    (index : Event) : List Event :=
  (e.started r s.language :: verdicts ++ [Evaluator.finished report.evaluation]) ++
    ((items ++ [index]) ++
      (report.evaluation.outcome.dropEvents report.manifest ++ [report.output.event]))

/-- The events of a run that starts with some counts; `missing?` tells why there are no workers, if
there are none. -/
inductive Traced (E : Engine) (missing? : Option String) (r : Rubric) (s : Snapshot)
    (counters : Counters) : Except Failure Report → List Event → Prop
  | refused {failure : Failure} (h : r.issues E.registry ≠ [] ∨ s.flaw? ≠ none) :
    Traced E missing? r s counters (.error failure) []
  | unmanned {reason : String} (hadmits : E.evaluator.Admits r s)
    (h : missing? = some reason) :
    Traced E missing? r s counters (.error (.evaluation (.noWorkers reason)))
      [E.evaluator.started r s.language]
  | stopped {front back : List Criterion} {c : Criterion} {error : EvaluationError}
    {verdicts : List Event} (hadmits : E.evaluator.Admits r s) (hmanned : missing? = none)
    (hcriteria : r.criteria = front ++ c :: back)
    (hfront : List.Forall₂ (E.evaluator.TellsVerdict s (Text.normal s.language)) front verdicts)
    (hfails : E.evaluator.Fails s (Text.normal s.language) c error) :
    Traced E missing? r s counters (.error (.evaluation error))
      (E.evaluator.started r s.language :: verdicts)
  | finished {report : Report} {verdicts items : List Event} {index : Event}
    (hadmits : E.evaluator.Admits r s) (hmanned : missing? = none)
    (hverdicts : List.Forall₂ (E.evaluator.TellsVerdict s (Text.normal s.language)) r.criteria
      verdicts)
    (hitems : List.Forall₂ report.manifest.Tells report.evaluation.evidence items)
    (hindex : report.manifest.TellsIndex (Event.occurrences "evidence.persisted" items) index) :
    Traced E missing? r s counters (.ok report)
      (body E.evaluator r s report verdicts items index ++
        [.countersFlushed (counters.grown (body E.evaluator r s report verdicts items index))])

/-- What a run leaves in the journal: its events, in a span of its own, and the counts that have
grown with them. -/
structure Reports (E : Engine) (missing? : Option String) (r : Rubric) (s : Snapshot) (j : Journal)
    (events : List Event) (after : (Except Failure Report × Volume) × Journal) : Prop where
  traced : E.Traced missing? r s j.counters after.1.1 events
  entries : after.2.entries = j.entries ++ events.map (⟨·, j.spans ++ [⟨s.normalLanguage⟩]⟩)
  spans : after.2.spans = j.spans
  criteria : after.2.counters.criteriaEvaluated
    = j.counters.criteriaEvaluated + .ofNat (Event.occurrences "criterion.evaluated" events)
  persisted : after.2.counters.evidencePersisted
    = j.counters.evidencePersisted + .ofNat (Event.occurrences "evidence.persisted" events)
  omitted : after.2.counters.evidenceOmitted
    = j.counters.evidenceOmitted + .ofNat (Event.occurrences "evidence.omitted" events)
  dropped : after.2.counters.referencesDropped
    = j.counters.referencesDropped + .ofNat (dropped after.1.1).length
  /-- Every item is counted, as kept or as left out. -/
  items : ∀ report, after.1.1 = .ok report →
    Event.occurrences "evidence.persisted" events + Event.occurrences "evidence.omitted" events
      = report.evaluation.evidence.length

/-! ### Counts of events -/

/-- An event on references that are dropped is no other event. -/
private theorem occurrences_dropEvents (o : Outcome) (m : Manifest) {name : String}
    (hname : name ≠ "publish.references_dropped") :
    Event.occurrences name (o.dropEvents m) = 0 := by
  apply Event.occurrences_eq_zero
  unfold Outcome.dropEvents
  split
  · exact fun _ hmem => absurd hmem List.not_mem_nil
  · intro event hmem heq
    rw [List.mem_singleton.1 hmem] at heq
    exact hname (Option.some.inj heq).symm

/-- The event on references that are dropped names them all. -/
private theorem dropped_dropEvents (o : Outcome) (m : Manifest) :
    (o.dropEvents m).flatMap Event.dropped = o.dropped m := by
  unfold Outcome.dropEvents
  split
  · next h => rw [h]; rfl
  · exact List.append_nil _

/-- Events on items name no references that are dropped. -/
private theorem dropped_of_tells {m : Manifest} {items : List Evidence}
    (h : List.Forall₂ m.Tells items events) : events.flatMap Event.dropped = [] := by
  -- Each item is told by one event, which is about it alone.
  induction h with
  | nil => rfl
  | cons hhead _ ih =>
    rw [List.flatMap_cons, ih]
    cases hhead with
    | persisted => rfl
    | omitted => rfl

/-- Events on verdicts do not concern evidence. -/
private theorem withoutEvidence_verdicts {e : Evaluator} {language : String} {cs : List Criterion}
    (h : List.Forall₂ (e.TellsVerdict s language) cs events) :
    ∀ event ∈ events, event.concernsEvidence = false := by
  induction h with
  | nil => exact fun _ hmem => absurd hmem List.not_mem_nil
  | cons hhead _ ih =>
    obtain ⟨v, -, rfl⟩ := hhead
    exact List.forall_mem_cons.2 ⟨rfl, ih⟩

/-- Of the events of a run that comes to its end, only those on the items are about items, and only
one is about references. -/
private theorem counts_body {e : Evaluator} {report : Report} {verdicts items : List Event}
    {index : Event} {n : Nat} (counters : Counters)
    (hverdicts : List.Forall₂ (e.TellsVerdict s (Text.normal s.language)) r.criteria verdicts)
    (hitems : List.Forall₂ report.manifest.Tells report.evaluation.evidence items)
    (hindex : report.manifest.TellsIndex n index) :
    let events := body e r s report verdicts items index ++ [.countersFlushed counters]
    Event.occurrences "evidence.persisted" events
        = Event.occurrences "evidence.persisted" items ∧
      Event.occurrences "evidence.omitted" events = Event.occurrences "evidence.omitted" items ∧
      events.flatMap Event.dropped = report.evaluation.outcome.dropped report.manifest := by
  intro events
  -- In front of the items and behind them, no event is about evidence but that on references.
  have hfront : Event.WithoutEvidence
      (e.started r s.language :: verdicts ++ [Evaluator.finished report.evaluation]) :=
    Event.withoutEvidence <| List.forall_mem_append.2
      ⟨List.forall_mem_cons.2 ⟨rfl, withoutEvidence_verdicts hverdicts⟩,
        List.forall_mem_singleton.2 rfl⟩
  have hindex : Event.WithoutEvidence [index] :=
    Event.withoutEvidence <| List.forall_mem_singleton.2 <| by
      cases hindex with
      | written => rfl
      | failed => rfl
  have hback : Event.WithoutEvidence [report.output.event, .countersFlushed counters] :=
    Event.withoutEvidence <| List.forall_mem_cons.2 ⟨rfl, List.forall_mem_singleton.2 rfl⟩
  have hevents : events
      = (e.started r s.language :: verdicts ++ [Evaluator.finished report.evaluation]) ++ items
        ++ [index] ++ report.evaluation.outcome.dropEvents report.manifest
        ++ [report.output.event, .countersFlushed counters] := by
    simp [events, body]
  rw [hevents]
  refine ⟨?_, ?_, ?_⟩
  · simp only [Event.occurrences_append, hfront.persisted, hindex.persisted, hback.persisted,
      occurrences_dropEvents _ _ (show "evidence.persisted" ≠ _ by decide), Nat.zero_add,
      Nat.add_zero]
  · simp only [Event.occurrences_append, hfront.omitted, hindex.omitted, hback.omitted,
      occurrences_dropEvents _ _ (show "evidence.omitted" ≠ _ by decide), Nat.zero_add,
      Nat.add_zero]
  · simp only [List.flatMap_append, hfront.dropped, hindex.dropped, hback.dropped,
      dropped_of_tells hitems, dropped_dropEvents, List.nil_append, List.append_nil]

/-- The events name the references that are dropped, and count all items of the evidence. -/
private theorem Traced.counts {counters : Counters} {result : Except Failure Report}
    (h : E.Traced missing? r s counters result events) :
    events.flatMap Event.dropped = dropped result ∧
      ∀ report, result = .ok report →
        Event.occurrences "evidence.persisted" events + Event.occurrences "evidence.omitted" events
          = report.evaluation.evidence.length := by
  cases h with
  | refused | unmanned => exact ⟨rfl, fun _ hok => nomatch hok⟩
  | stopped _ _ _ hfront =>
    refine ⟨?_, fun _ hok => nomatch hok⟩
    exact (Event.withoutEvidence
      (List.forall_mem_cons.2 ⟨rfl, withoutEvidence_verdicts hfront⟩)).dropped
  | finished _ _ hverdicts hitems hindex =>
    -- Only the events on items count here, and there is one for each item.
    obtain ⟨hpersisted, homitted, hdropped⟩ := counts_body _ hverdicts hitems hindex
    refine ⟨hdropped, fun report hok => ?_⟩
    rw [hpersisted, homitted, ← Except.ok.inj hok]
    exact Manifest.occurrences_of_tells hitems

/-- Events that trace what has happened, written between the opening and the closing, report it. -/
private theorem reports_of_traced {after : (Except Failure Report × Volume) × Journal}
    (htraced : E.Traced missing? r s j.counters after.1.1 events)
    (hjournal : after.2 = closed j ((opened s j).extend events)) :
    E.Reports missing? r s j events after := by
  obtain ⟨hdropped, hitems⟩ := htraced.counts
  -- Opening and closing the span leaves the counts alone.
  have hcounters : after.2.counters = j.counters.grown events := congrArg Journal.counters hjournal
  refine ⟨htraced, ?_, ?_, ?_, ?_, ?_, ?_, hitems⟩
  · rw [hjournal]
    rfl
  · rw [hjournal]
    rfl
  · rw [hcounters]
    rfl
  · rw [hcounters]
    rfl
  · rw [hcounters]
    rfl
  · rw [hcounters, ← hdropped]
    rfl

/-- A run whose parts come to their ends reports what they report, one after another, and the counts
at last. -/
private theorem conduct_of_comesTo {ev : Evaluation} {m : Manifest} {output : ScoreOutput}
    {evaluated kept published : List Event} (hx : x.ComesTo (.ok ev) evaluated)
    (hkeep : ((keep ev.evidence).run v).ComesTo (m, v') kept)
    (hpublish : (r.publish ev.outcome m).ComesTo (.ok output) published) :
    let body := evaluated ++ (kept ++ published)
    (conduct x keep r s v).run j = ((.ok ⟨ev, m, output⟩, v'),
      closed j ((opened s j).extend (body ++ [.countersFlushed (j.counters.grown body)]))) := by
  intro body
  rw [conduct_of_ok (hx _) (hkeep _) (hpublish _), Journal.extend_extend, Journal.extend_extend]
  -- What is flushed are the counts after all that has been reported before.
  change (_, closed j (((opened s j).extend body).push (.countersFlushed (j.counters.grown body))))
    = _
  rw [Journal.push_eq_extend rfl rfl, Journal.extend_extend]

/-- Whatever course the evaluation takes, what is done about it is reported. -/
private theorem exists_reports_conduct {result : Except EvaluationError Evaluation}
    {events : List Event} (hkeep : st.Keeps stamp keep)
    (hcourse : E.evaluator.Course missing? r s s.language result events)
    (hx : x.ComesTo result events) :
    ∃ events, E.Reports missing? r s j events ((conduct x keep r s v).run j) := by
  -- A run that fails reports no more than its evaluation.
  have hfails {error : EvaluationError} (hx : x.ComesTo (.error error) events)
      (htraced : E.Traced missing? r s j.counters (.error (.evaluation error)) events) :
      ∃ events, E.Reports missing? r s j events ((conduct x keep r s v).run j) := by
    rw [conduct_of_error (hx (opened s j))]
    exact ⟨events, reports_of_traced htraced rfl⟩
  cases hcourse with
  | refusedRubric h hne => exact hfails hx (.refused (.inl (h ▸ hne)))
  | refusedSnapshot hrubric h =>
    refine hfails hx (.refused (.inr ?_))
    rw [h]
    exact Option.some_ne_none _
  | unmanned hadmits h => exact hfails hx (.unmanned hadmits h)
  | stopped hadmits hmanned hcriteria hfront hfailing =>
    exact hfails hx (.stopped hadmits hmanned hcriteria hfront.tellsVerdict hfailing)
  | @settled ds hmanned hsettles =>
    have hadmits : E.evaluator.Admits r s :=
      ⟨Rubric.issues_eq_nil_iff.2 hsettles.valid, hsettles.flawless⟩
    -- No item of an evaluation has the key of the index for its id.
    have hids : ∀ item ∈ (Evaluator.assemble r ds).evidence, item.id ≠ Manifest.indexKey :=
      fun _ => hsettles.id_ne_indexKey
    -- Otherwise the store goes on where the evaluation has ended, and then the publisher.
    obtain ⟨turns, hkept⟩ := hkeep.comesTo (Evaluator.assemble r ds).evidence v
    have hitems := st.tells_settled stamp turns v hids
    have hindex := st.tellsIndex_indexEvent stamp (Evaluator.assemble r ds).evidence turns v
    generalize st.writeInTurns stamp (Evaluator.assemble r ds).evidence turns v = o
      at hkept hitems hindex
    have hpublish := hsettles.fits.comesTo_publish (o.manifest st)
    rw [conduct_of_comesTo hx hkept hpublish]
    exact ⟨_, reports_of_traced
      (.finished hadmits hmanned hsettles.decided.tellsVerdict hitems hindex) rfl⟩

/-- Every run reports its events one after another, in a span of its own, and counts what it
reports. It does so whether the criteria are judged one after another or by a crew, and in whatever
way a store keeps the evidence. -/
theorem run_reports (E : Engine) {st : Store} {stamp : Stamp}
    {keep : List Evidence → Filed Manifest} (hkeep : st.Keeps stamp keep) (r : Rubric)
    (s : Snapshot) (v : Volume) (j : Journal) :
    (∃ events, E.Reports none r s j events ((E.run keep r s v).run j)) ∧
      ∀ crew : Crew, E.evaluator.Manned crew r s s.language →
        ∃ events, E.Reports crew.missing? r s j events ((E.runWith crew keep r s v).run j) := by
  constructor
  · obtain ⟨result, events, hcourse, hx⟩ := E.evaluator.exists_course r s s.language
    exact exists_reports_conduct hkeep hcourse hx
  · intro crew hmanned
    obtain ⟨result, events, hcourse, hx⟩ := Evaluator.exists_course_with hmanned
    exact exists_reports_conduct hkeep hcourse hx

/-- A repository of which nothing is known is graded by a crew of four, and the evidence is kept in
the engine's own store. -/
theorem run_reports_for_standard :
    let E : Engine := ⟨.standard, .builtin⟩
    let stamp : Stamp := ⟨.nil, ⟨"1970-01-01T00:00:00Z"⟩⟩
    let keep := E.store.persist stamp
    E.store.Keeps stamp keep ∧
      (∃ events, E.Reports none .standard (.bare "Rust") .empty events
        ((E.run keep .standard (.bare "Rust") .empty).run .empty)) ∧
      ∃ order, E.evaluator.Manned (.turns order) .standard (.bare "Rust") "Rust" ∧
        ∃ events, E.Reports none .standard (.bare "Rust") .empty events
          ((E.runWith (.turns order) keep .standard (.bare "Rust") .empty).run .empty) := by
  intro E stamp keep
  have hkeep : E.store.Keeps stamp keep := .inOrder
  obtain ⟨hrun, hcrew⟩ := run_reports E hkeep .standard (.bare "Rust") .empty .empty
  have hworkers : 0 < E.evaluator.workers := by decide
  obtain ⟨order, horder⟩ := Crew.exists_finishes hworkers
    (E.evaluator.decide (.bare "Rust") (Text.normal "Rust")) Rubric.standard.criteria
  exact ⟨hkeep, hrun, order, horder, hcrew (.turns order) horder⟩

end Engine

end Scorecard
