import Scorecard.Proofs.Journal

/-!
# What work reports

Most work that writes to a journal comes to the same result whatever stands there already, and
reports the same events. The running counts go with the events: what is counted can be read off
their names, so that a journal after some work is the journal before it and the events.

* `Event.name?`, `Event.occurrences`: the names of events, and how often one occurs.
* `Event.WithoutEvidence`: events that are neither about items nor about references.
* `Counters.grown`: the counts once events have been counted.
* `Journal.extend`: a journal with more events.
* `Logged.ComesTo`, `Attempt.ComesTo`: what comes out of work, and what it reports.
-/

namespace Scorecard

/-! ### Events -/

namespace Event

/-- The name under which an event is reported. -/
def name? (e : Event) : Option String :=
  match e.fields.lookup "event" with
  | some (.text name) => some name
  | _ => none

/-- How many events are reported under a name. -/
def occurrences (name : String) (events : List Event) : Nat :=
  events.countP (·.name? = some name)

/-- The references whose loss an event reports. -/
def dropped : Event → List String
  | .referencesDropped ids => ids
  | _ => []

/-- Whether an event is about an item or about references. -/
def concernsEvidence : Event → Bool
  | .evidencePersisted .. => true
  | .evidenceOmitted .. => true
  | .referencesDropped .. => true
  | _ => false

/-- No item and no reference is counted with the events. -/
structure WithoutEvidence (events : List Event) : Prop where
  persisted : occurrences "evidence.persisted" events = 0
  omitted : occurrences "evidence.omitted" events = 0
  dropped : events.flatMap Event.dropped = []

theorem occurrences_append (name : String) (events events' : List Event) :
    occurrences name (events ++ events') = occurrences name events + occurrences name events' :=
  List.countP_append

theorem occurrences_eq_zero {name : String} {events : List Event}
    (h : ∀ e ∈ events, e.name? ≠ some name) : occurrences name events = 0 :=
  List.countP_eq_zero.2 fun e he => by simpa using h e he

theorem withoutEvidence {events : List Event} (h : ∀ e ∈ events, e.concernsEvidence = false) :
    WithoutEvidence events := by
  have hone (e : Event) (he : e.concernsEvidence = false) :
      e.name? ≠ some "evidence.persisted" ∧ e.name? ≠ some "evidence.omitted" ∧ e.dropped = [] := by
    cases e with
    | evidencePersisted | evidenceOmitted | referencesDropped => exact Bool.noConfusion he
    -- Two kinds of events have no name, and the others have another one.
    | rubricLoaded criteria version =>
      have hname : (rubricLoaded criteria version).name? = none := rfl
      simp [hname, dropped]
    | countersFlushed counters =>
      have hname : (countersFlushed counters).name? = none := rfl
      simp [hname, dropped]
    | _ => simp [name?, fields, dropped]
  exact ⟨occurrences_eq_zero fun e he => (hone e (h e he)).1,
    occurrences_eq_zero fun e he => (hone e (h e he)).2.1,
    List.flatMap_eq_nil_iff.2 fun e he => (hone e (h e he)).2.2⟩

end Event

/-! ### Counts -/

namespace Counters

/-- The counts once events have been counted: criteria and items by the names of the events, and
the references dropped one by one. -/
def grown (c : Counters) (events : List Event) : Counters where
  criteriaEvaluated :=
    c.criteriaEvaluated + .ofNat (Event.occurrences "criterion.evaluated" events)
  evidencePersisted :=
    c.evidencePersisted + .ofNat (Event.occurrences "evidence.persisted" events)
  evidenceOmitted := c.evidenceOmitted + .ofNat (Event.occurrences "evidence.omitted" events)
  referencesDropped := c.referencesDropped + .ofNat (events.flatMap Event.dropped).length

theorem grown_of_uncounted {events : List Event}
    (hcriteria : Event.occurrences "criterion.evaluated" events = 0)
    (hevidence : Event.WithoutEvidence events) (c : Counters) : c.grown events = c := by
  -- Every count grows by nothing.
  unfold grown
  rw [hcriteria, hevidence.persisted, hevidence.omitted, hevidence.dropped]
  simp

@[simp] theorem grown_nil (c : Counters) : c.grown [] = c :=
  grown_of_uncounted rfl ⟨rfl, rfl, rfl⟩ c

theorem grown_grown (c : Counters) (events events' : List Event) :
    (c.grown events).grown events' = c.grown (events ++ events') := by
  simp only [grown, Event.occurrences_append, List.flatMap_append, List.length_append,
    UInt64.ofNat_add, UInt64.add_assoc]

end Counters

/-! ### Journals -/

namespace Journal

/-- The journal with more events, each of them counted. -/
def extend (j : Journal) (events : List Event) : Journal :=
  { j with
    entries := j.entries ++ events.map (⟨·, j.spans⟩)
    counters := j.counters.grown events }

@[simp] theorem extend_nil (j : Journal) : j.extend [] = j := by
  simp [extend]

theorem extend_extend (j : Journal) (events events' : List Event) :
    (j.extend events).extend events' = j.extend (events ++ events') := by
  simp only [extend, List.map_append, List.append_assoc, Counters.grown_grown]

theorem push_eq_extend {e : Event} (hcriteria : Event.occurrences "criterion.evaluated" [e] = 0)
    (hevidence : e.concernsEvidence = false) (j : Journal) : j.push e = j.extend [e] := by
  -- The counts stay as they are: there is nothing to be counted.
  have hcounters : j.counters.grown [e] = j.counters :=
    Counters.grown_of_uncounted hcriteria
      (Event.withoutEvidence (List.forall_mem_singleton.2 hevidence)) _
  unfold push extend
  rw [hcounters]
  rfl

end Journal

/-! ### Work that comes to a result -/

/-- Whatever stands in the journal, the work comes to `a` and reports the events. -/
def Logged.ComesTo {α : Type} (x : Logged α) (a : α) (events : List Event) : Prop :=
  ∀ j, x.run j = (a, j.extend events)

namespace Logged

variable {α β : Type} {a : α} {b : β} {events events' : List Event}

theorem comesTo_pure (a : α) : ComesTo (pure a) a [] := by
  intro j
  rw [Journal.extend_nil]
  rfl

theorem ComesTo.bind {x : Logged α} {f : α → Logged β} (hx : x.ComesTo a events)
    (hf : (f a).ComesTo b events') : ComesTo (x >>= f) b (events ++ events') := by
  intro j
  rw [Logged.run_bind (hx j), hf, Journal.extend_extend]

theorem comesTo_emit {e : Event} (hcriteria : Event.occurrences "criterion.evaluated" [e] = 0)
    (hevidence : e.concernsEvidence = false) : (Journal.emit e).ComesTo () [e] := fun j => by
  change ((), j.push e) = _
  rw [Journal.push_eq_extend hcriteria hevidence]

/-- An event that counts is reported and counted. -/
theorem comesTo_emit_count {e : Event} {change : Counters → Counters}
    (h : ∀ c, Counters.grown c [e] = change c) :
    Logged.ComesTo (do Journal.emit e; Journal.count change) () [e] := by
  intro j
  change ((), { j.push e with counters := change j.counters }) = _
  rw [← h]
  rfl

/-- Each item of a list is reported by one event. -/
theorem comesTo_forM {f : α → Logged Unit} {event : α → Event}
    (h : ∀ a, (f a).ComesTo () [event a]) (as : List α) :
    ComesTo (as.forM f) () (as.map event) := by
  induction as with
  | nil => exact comesTo_pure ()
  | cons a as ih => exact (h a).bind ih

end Logged

/-! ### Attempts that come to a result -/

/-- Whatever stands in the journal, the attempt ends in the result and reports the events. -/
def Attempt.ComesTo {ε α : Type} (x : Attempt ε α) (result : Except ε α)
    (events : List Event) : Prop := Logged.ComesTo x.run result events

namespace Attempt

variable {ε α β : Type} {events events' : List Event}

theorem comesTo_pure (a : α) : ComesTo (pure a : Attempt ε α) (.ok a) [] :=
  Logged.comesTo_pure _

theorem comesTo_throw (error : ε) : ComesTo (throw error : Attempt ε α) (.error error) [] :=
  Logged.comesTo_pure _

theorem ComesTo.bind {x : Attempt ε α} {f : α → Attempt ε β} {a : α} {result : Except ε β}
    (hx : x.ComesTo (.ok a) events) (hf : (f a).ComesTo result events') :
    ComesTo (x >>= f) result (events ++ events') := by
  unfold ComesTo
  rw [ExceptT.run_bind]
  exact Logged.ComesTo.bind hx hf

/-- An attempt that fails does not go on. -/
theorem ComesTo.bind_error {x : Attempt ε α} {error : ε} (hx : x.ComesTo (.error error) events)
    (f : α → Attempt ε β) : ComesTo (x >>= f) (.error error) events := by
  unfold ComesTo
  rw [ExceptT.run_bind, ← List.append_nil events]
  exact Logged.ComesTo.bind hx (Logged.comesTo_pure _)

theorem ComesTo.map {x : Attempt ε α} {result : Except ε α} (hx : x.ComesTo result events)
    (f : α → β) : ComesTo (do return f (← x)) (result.map f) events := by
  cases result with
  | error error => exact hx.bind_error _
  | ok a =>
    rw [← List.append_nil events]
    exact hx.bind (comesTo_pure (f a))

theorem ComesTo.ofExcept_bind {f : α → Attempt ε β} {a : α} {result : Except ε β}
    (hf : (f a).ComesTo result events) : ComesTo (ofExcept (.ok a) >>= f) result events :=
  hf

theorem comesTo_ofExcept_error_bind (error : ε) (f : α → Attempt ε β) :
    ComesTo (ofExcept (.error error) >>= f) (.error error) [] :=
  (comesTo_throw error).bind_error f

/-- Something is reported first. -/
theorem ComesTo.lift_bind {x : Logged Unit} {f : Unit → Attempt ε β} {result : Except ε β}
    (hx : x.ComesTo () events) (hf : (f ()).ComesTo result events') :
    ComesTo ((liftM x : Attempt ε Unit) >>= f) result (events ++ events') := by
  intro j
  change (f (x.run j).1).run.run (x.run j).2 = _
  rw [hx j]
  -- What follows starts with the journal in which this has been reported.
  have hrest : (f ()).run.run (j.extend events) = _ := hf (j.extend events)
  rw [Journal.extend_extend] at hrest
  exact hrest

theorem ComesTo.report_bind {x : Logged Unit} {f : Unit → Attempt ε β} {result : Except ε β}
    {event : Event} (hx : x.ComesTo () [event]) (hf : (f ()).ComesTo result events) :
    ComesTo ((liftM x : Attempt ε Unit) >>= f) result (event :: events) :=
  lift_bind hx hf

theorem ComesTo.result {x : Attempt ε α} {result : Except ε α} (h : x.ComesTo result events)
    (j : Journal) : x.result j = result := by
  unfold Attempt.result
  rw [h j]

theorem ComesTo.steady {x : Attempt ε α} {result : Except ε α} (h : x.ComesTo result events) :
    x.Steady := fun j j' => (h.result j).trans (h.result j').symm

end Attempt

end Scorecard
