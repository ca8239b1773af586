import Scorecard.Proofs.Rubric

/-!
# Parameters by language

What a rule is given for a language are the criterion's own parameters, with the overrides for the
language's normal form in front of them. A rubric without issues has been looked at for the
languages written in it only, yet no language that a caller can name leads to parameters that have
not been tried: a spelling finds what stands under its normal form, which is one of the keys looked
at or none. What stands under a key that is not in normal form is neither tried nor ever found.

* `Criterion.get?_effectiveParams`: one parameter for a language.
* `Criterion.effectiveParams_insert`: keys that are not in normal form do not matter.
* `Rubric.accepts_every_language`: the rules take the parameters for every language.
-/

namespace Scorecard

namespace Criterion

/-! ### One parameter -/

/-- The value that the overrides for a language in normal form give to a parameter. -/
def special? (c : Criterion) (language name : String) : Option Json :=
  (c.overrides.get? language).bind (·.get? name)

/-- A parameter has the value of the overrides if they have one, and its own value otherwise. -/
theorem get?_effectiveParams (c : Criterion) (language name : String) :
    (c.effectiveParams language).get? name
      = (c.special? (Text.normal language) name).or (c.params.get? name) := by
  unfold effectiveParams special?
  cases c.overrides.get? (Text.normal language) with
  | none => rfl
  | some special => exact c.params.get?_override special name

/-! ### Keys -/

/-- No language looks up a key that is not in normal form. -/
theorem effectiveParams_insert (c : Criterion) {key : String} (hkey : Text.normal key ≠ key)
    (special : Params) (language : String) :
    ({ c with overrides := c.overrides.insert key special }).effectiveParams language
      = c.effectiveParams language := by
  -- The key that is looked up is in normal form, and this one is not.
  have hne : Text.normal language ≠ key := by
    rintro rfl
    exact hkey (Text.normal_normal language)
  unfold effectiveParams
  simp only
  rw [Table.get?_insert, if_neg hne]

end Criterion

/-! ### Rubrics without issues -/

/-- The rule of each criterion takes the parameters for every language, in whatever case and between
whatever blanks it is written, and whatever else stands under keys that are not in normal form. -/
theorem Rubric.accepts_every_language {registry : Registry} {r : Rubric} {c : Criterion}
    (h : r.issues registry = []) (hc : c ∈ r.criteria) :
    ∃ rule, registry.get? c.rule = some rule ∧
      (∀ language, rule.validate (c.effectiveParams language) = .ok ()) ∧
      ∀ key, Text.normal key ≠ key → ∀ special language,
        ({ c with overrides := c.overrides.insert key special }).effectiveParams language
          = c.effectiveParams language := by
  -- Without issues the criterion is valid, for the languages that are written in it.
  obtain ⟨rule, hrule, haccepts⟩ := ((Rubric.issues_eq_nil_iff.1 h).criteria c hc).rule
  exact ⟨rule, hrule, haccepts.effectiveParams,
    fun _ hkey special language => c.effectiveParams_insert hkey special language⟩

/-- A criterion with fewer warnings allowed for Rust, and with something that is no number under a
key that is not in normal form. -/
private def Criterion.misspelt : Criterion where
  id := "lint"
  dimension := .codeQuality
  maxPoints := 100
  rule := "lint_issues"
  description := none
  params := .ofList [("max_issues", .ofNat 5)]
  overrides := .ofList [
    ("Python", .ofList [("max_issues", .str "many")]),
    ("rust", .ofList [("max_issues", .ofNat 0)])]

/-- The rubric of that criterion. -/
private def Rubric.misspelt : Rubric := ⟨"1", .empty, [.misspelt], []⟩

/-- The rule would not take what stands under the odd key, and takes what every language finds. -/
theorem Rubric.accepts_every_language_misspelt :
    let c := Criterion.misspelt
    (Rubric.misspelt.issues .builtin = [] ∧ c ∈ Rubric.misspelt.criteria ∧
      Text.normal " RUST\n" = "rust" ∧ Text.normal "Python" ≠ "Python") ∧
    ∃ rule, Registry.builtin.get? "lint_issues" = some rule ∧
      (∀ special ∈ c.overrides.get? "Python", rule.validate (c.params.override special) ≠ .ok ()) ∧
      (∀ language, rule.validate (c.effectiveParams language) = .ok ()) ∧
      ∀ key, Text.normal key ≠ key → ∀ special language,
        ({ c with overrides := c.overrides.insert key special }).effectiveParams language
          = c.effectiveParams language := by
  intro c
  have hissues : Rubric.misspelt.issues .builtin = [] := by decide +kernel
  have hc : c ∈ Rubric.misspelt.criteria := List.mem_cons_self
  obtain ⟨rule, hrule, haccepts⟩ := Rubric.accepts_every_language hissues hc
  have hbuiltin : Registry.builtin.get? "lint_issues" = some Rule.Lint.rule.toRule := rfl
  refine ⟨⟨hissues, hc, by decide +kernel, by decide +kernel⟩, rule, hrule, ?_, haccepts⟩
  -- Now the rule is known, and its check can be run on the odd parameters.
  cases hbuiltin.symm.trans hrule
  intro special hspecial
  cases hspecial
  decide +kernel

end Scorecard
