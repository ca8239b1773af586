import Scorecard.Journal.Basic

/-!
# Results of attempts

An attempt writes to the journal on its way to a result, and what it has written is handed on.

* `Logged.run_bind`, `Journal.run_within`: work after other work, and work inside a span.
* `Attempt.result`, `Attempt.journal`: what comes out, and what has been written until then.
* `Attempt.Steady`: what comes out does not depend on what has been written before.
-/

namespace Scorecard

/-! ### Work after work -/

/-- What is done first hands its result and its journal on. -/
theorem Logged.run_bind {α β : Type} {x : Logged α} {f : α → Logged β} {a : α} {j j' : Journal}
    (h : x.run j = (a, j')) : (x >>= f).run j = (f a).run j' := by
  rw [StateT.run_bind, h]
  rfl

/-- Work inside a span leaves the spans as they have been. -/
theorem Journal.run_within {α : Type} {s : Span} {work : Logged α} {a : α} {j j' : Journal}
    (h : work.run { j with spans := j.spans ++ [s] } = (a, j')) :
    (within s work).run j = (a, { j' with spans := j.spans }) := by
  have hwork : (within s work).run j
      = (fun (p : α × Journal) => (p.1, { p.2 with spans := j.spans }))
          (work.run { j with spans := j.spans ++ [s] }) := rfl
  rw [hwork, h]

/-! ### Results -/

namespace Attempt

variable {ε α : Type}

/-- What comes out of an attempt that starts with a journal. -/
def result (x : Attempt ε α) (j : Journal) : Except ε α := (x.run.run j).1

/-- The journal after an attempt. -/
def journal (x : Attempt ε α) (j : Journal) : Journal := (x.run.run j).2

/-- What comes out does not depend on what has been written before. -/
def Steady (x : Attempt ε α) : Prop := ∀ j j', x.result j = x.result j'

end Attempt

end Scorecard
