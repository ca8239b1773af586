import Mathlib.Logic.Basic

/-!
# Results of steps

A step after another one gives a value only if both do, a step for each item of a list succeeds if
all of them do, and changing what is said of a failure makes no difference to the values.

* `Except.bind_eq_ok_iff`, `Except.map_eq_ok_iff`, `Except.mapError_eq_ok_iff`.
* `Except.bind_eq_error_iff`, `Except.mapError_eq_error_iff`: where a failure comes from.
* `Except.ite_error_eq_ok_iff`, `Except.ite_error_eq_error_iff`, `Option.ite_some_eq_none_iff`,
  `Option.ite_some_or`: a check before other steps.
* `Except.forM_eq_ok_iff`.
-/

namespace Except

variable {ε δ α β : Type}

theorem bind_eq_ok_iff {x : Except ε α} {f : α → Except ε β} {b : β} :
    x >>= f = .ok b ↔ ∃ a, x = .ok a ∧ f a = .ok b := by
  cases x with
  | error e => simp [Bind.bind, Except.bind]
  | ok a => simp [Bind.bind, Except.bind]

/-- A step fails or leads on to a step that does. -/
theorem bind_eq_error_iff {x : Except ε α} {f : α → Except ε β} {e : ε} :
    x >>= f = .error e ↔ x = .error e ∨ ∃ a, x = .ok a ∧ f a = .error e := by
  cases x with
  | error e' => simp [Bind.bind, Except.bind]
  | ok a => simp [Bind.bind, Except.bind]

theorem map_eq_ok_iff {x : Except ε α} {f : α → β} {b : β} :
    f <$> x = .ok b ↔ ∃ a, x = .ok a ∧ f a = b := by
  cases x with
  | error e => simp [Functor.map, Except.map]
  | ok a => simp [Functor.map, Except.map]

theorem mapError_eq_ok_iff {x : Except ε α} {f : ε → δ} {a : α} :
    x.mapError f = .ok a ↔ x = .ok a := by
  cases x with
  | error e =>
    constructor
    · intro h
      cases h
    · intro h
      cases h
  | ok a' =>
    change Except.ok a' = Except.ok a ↔ _
    rw [Except.ok.injEq, Except.ok.injEq]

theorem mapError_eq_error_iff {x : Except ε α} {f : ε → δ} {d : δ} :
    x.mapError f = .error d ↔ ∃ e, x = .error e ∧ f e = d := by
  cases x with
  | error e =>
    change Except.error (f e) = Except.error d ↔ _
    simp
  | ok a =>
    constructor
    · intro h
      cases h
    · rintro ⟨e, h, -⟩
      cases h

/-- A check lets the rest be tried. -/
theorem ite_error_eq_ok_iff {p : Prop} [Decidable p] {e : ε} {x : Except ε α} {a : α} :
    (if p then .error e else x) = .ok a ↔ ¬ p ∧ x = .ok a := by
  by_cases h : p
  · rw [if_pos h]
    simp [h]
  · rw [if_neg h]
    simp [h]

/-- The first check that is not passed gives the error. -/
theorem ite_error_eq_error_iff {p : Prop} [Decidable p] {e e' : ε} {x : Except ε α} :
    (if p then .error e else x) = .error e' ↔ (p ∧ e = e') ∨ (¬ p ∧ x = .error e') := by
  by_cases h : p
  · rw [if_pos h]
    simp [h]
  · rw [if_neg h]
    simp [h]

theorem forM_eq_ok_iff {xs : List α} {f : α → Except ε Unit} :
    forM xs f = .ok () ↔ ∀ x ∈ xs, f x = .ok () := by
  induction xs with
  | nil => simp [pure, Except.pure]
  | cons x xs ih =>
    rw [List.forM_cons, bind_eq_ok_iff, List.forall_mem_cons, ← ih]
    constructor
    · rintro ⟨⟨⟩, hx, hxs⟩
      exact ⟨hx, hxs⟩
    · rintro ⟨hx, hxs⟩
      exact ⟨(), hx, hxs⟩

end Except

/-- A check lets the rest be tried, where the first error found is given back. -/
theorem Option.ite_some_eq_none_iff {α : Type} {p : Prop} [Decidable p] {e : α} {x : Option α} :
    (if p then some e else x) = none ↔ ¬ p ∧ x = none := by
  by_cases h : p
  · rw [if_pos h]
    simp [h]
  · rw [if_neg h]
    simp [h]

/-- What a check says, or else what the rest says. -/
theorem Option.ite_some_or {α : Type} {p : Prop} [Decidable p] {e : α} {x : Option α} :
    (if p then some e else none).or x = if p then some e else x := by
  by_cases h : p
  · rw [if_pos h, if_pos h, Option.some_or]
  · rw [if_neg h, if_neg h, Option.none_or]
