import Scorecard.Journal.Event

/-!
# The journal

A journal collects the events of a run in their order, each with the spans that were open,
and keeps the running counts.

* `Journal.emit`: adds an event.
* `Journal.within`: does something inside a span.
-/

namespace Scorecard

/-- A stretch of work on one language's repository. -/
structure Span where
  language : String
  deriving DecidableEq, Repr

/-- The name of every span. -/
def Span.name : String := "gradewise.run"

/-- An event with the spans that were open, the outermost first. -/
structure Journal.Entry where
  event : Event
  spans : List Span
  deriving DecidableEq

/-- The events of a run, the running counts and the open spans. -/
structure Journal where
  entries : List Journal.Entry
  counters : Counters
  spans : List Span
  deriving DecidableEq

/-- Work that writes to a journal. -/
abbrev Logged (α : Type) := StateM Journal α

/-- Work that writes to a journal and may fail; what it has written stays written. -/
abbrev Attempt (ε α : Type) := ExceptT ε (StateM Journal) α

/-- A result that is at hand, without a word to the journal. -/
def Attempt.ofExcept {ε α : Type} (result : Except ε α) : Attempt ε α := ExceptT.mk (pure result)

namespace Journal

/-- The journal in which nothing has happened. -/
def empty : Journal := ⟨[], .zero, []⟩

/-- The events in their order. -/
def events (j : Journal) : List Event := j.entries.map (·.event)

/-- The journal with one more event. -/
def push (j : Journal) (e : Event) : Journal :=
  { j with entries := j.entries ++ [⟨e, j.spans⟩] }

/-- Adds an event. -/
def emit (e : Event) : Logged Unit := modify (·.push e)

/-- Changes the running counts. -/
def count (change : Counters → Counters) : Logged Unit :=
  modify fun j => { j with counters := change j.counters }

/-- Counts one more criterion evaluated. -/
def countCriterion : Logged Unit :=
  count fun c => { c with criteriaEvaluated := c.criteriaEvaluated + 1 }

/-- Counts one more evidence item kept. -/
def countPersisted : Logged Unit :=
  count fun c => { c with evidencePersisted := c.evidencePersisted + 1 }

/-- Counts one more evidence item left out. -/
def countOmitted : Logged Unit :=
  count fun c => { c with evidenceOmitted := c.evidenceOmitted + 1 }

/-- Counts `n` more references dropped. -/
def countDropped (n : UInt64) : Logged Unit :=
  count fun c => { c with referencesDropped := c.referencesDropped + n }

/-- Sets all counts to zero. -/
def reset : Logged Unit := count fun _ => .zero

/-- Reports the running counts. -/
def flush : Logged Unit := do
  emit (.countersFlushed (← get).counters)

/-- Does something inside a span. -/
def within {α : Type} (s : Span) (work : Logged α) : Logged α := do
  let outer := (← get).spans
  modify fun j => { j with spans := outer ++ [s] }
  let a ← work
  modify fun j => { j with spans := outer }
  return a

end Journal

end Scorecard
