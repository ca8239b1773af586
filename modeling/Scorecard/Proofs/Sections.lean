import Scorecard.Proofs.Lists
import Scorecard.Proofs.Normal
import Scorecard.Proofs.Verdict

/-!
# Required sections of a README

The required sections are sorted into those with a heading and those without, and what becomes of a
README is a matter of their numbers. A heading and a section only meet in their normal forms, and
any heading may be the one for a section; so neither the order of the headings nor their number nor
the spelling of either side makes a difference to the status.

* `Readme.Sections.Sorted`, `Readme.Sections.Judged`: what is found and what comes of it.
* `Readme.Sections.Respelt`, `Readme.RespeltHeadings`: other spellings of the same.
* `Readme.judge_sorts_sections`: how the rule judges every README, under every spelling.
-/

namespace Scorecard

namespace Rule.Readme

open Text

variable {c : Criterion.Context} {s s' : Snapshot} {p p' : Sections}
  {r r' : DocumentationReport} {headings headings' : List String} {name name' : String}

/-! ### Sorting the sections -/

/-- The normal form of some heading has that of the section in it. -/
def HasHeading (headings : List String) (name : String) : Prop :=
  ∃ h ∈ headings, (normal name).toList <:+: (normal h).toList

theorem covers_eq_true_iff : covers headings name = true ↔ HasHeading headings name := by
  unfold covers HasHeading
  rw [List.any_eq_true]
  exact exists_congr fun h => and_congr_right fun _ => occurs_iff

namespace Sections

/-- The required sections are divided into those with a heading and those without, each of them
listed as often as it is required and in the order in which it is. -/
structure Sorted (p : Sections) (headings found missing : List String) : Prop where
  found_sublist : found.Sublist p.required
  missing_sublist : missing.Sublist p.required
  perm : (found ++ missing).Perm p.required
  found_iff : ∀ name ∈ p.required, name ∈ found ↔ HasHeading headings name
  missing_iff : ∀ name ∈ p.required, name ∈ missing ↔ ¬ HasHeading headings name

/-- A README is judged by the sections found and those missing, and the evidence tells them. -/
structure Judged (p : Sections) (r : DocumentationReport) (found missing : List String)
    (v : Verdict) : Prop where
  sorted : p.Sorted r.readmeSections found missing
  told : ∃ d, v.evidence = [d] ∧ d.payload = .obj [
    ("found", .ofList .str found),
    ("missing", .ofList .str missing),
    ("partial_min_sections", .ofOption .ofNat p.partialMin),
    ("sections", .ofList .str r.readmeSections)]
  met_iff : v.status = .met ↔ missing = []
  partly_iff : v.status = .partly ↔
    missing ≠ [] ∧ ∃ n, p.partialMin = some n ∧ n ≤ found.length
  unmet_iff : v.status = .unmet ↔
    missing ≠ [] ∧ ∀ n, p.partialMin = some n → found.length < n

end Sections

theorem sorted_found_missing (r : DocumentationReport) (p : Sections) :
    p.Sorted r.readmeSections (found r p) (missing r p) where
  found_sublist := List.filter_sublist
  missing_sublist := List.filter_sublist
  perm := List.filter_append_perm _ _
  found_iff name hname := by
    rw [found, List.mem_filter, covers_eq_true_iff, and_iff_right hname]
  missing_iff name hname := by
    rw [missing, List.mem_filter, Bool.not_eq_true', ← Bool.not_eq_true, covers_eq_true_iff,
      and_iff_right hname]

theorem status_eq_met_iff : status r p = .met ↔ missing r p = [] := by
  unfold status
  rw [Status.ofTests_eq_met_iff, List.isEmpty_iff]

/-- The test for a part is passed if there is a number of sections for it and as many are found. -/
private theorem partialTest_iff :
    p.partialMin.map (fun n => Decidable.decide (n ≤ (found r p).length)) = some true
      ↔ ∃ n, p.partialMin = some n ∧ n ≤ (found r p).length := by
  rw [Option.map_eq_some_iff]
  exact exists_congr fun n => and_congr_right fun _ => decide_eq_true_iff

theorem status_eq_partly_iff :
    status r p = .partly ↔
      missing r p ≠ [] ∧ ∃ n, p.partialMin = some n ∧ n ≤ (found r p).length := by
  unfold status
  rw [Status.ofTests_eq_partly_iff, partialTest_iff, ne_eq, List.isEmpty_iff]

theorem status_eq_unmet_iff :
    status r p = .unmet ↔
      missing r p ≠ [] ∧ ∀ n, p.partialMin = some n → (found r p).length < n := by
  unfold status
  rw [Status.ofTests_eq_unmet_iff, partialTest_iff, ne_eq, List.isEmpty_iff]
  simp only [not_exists, not_and, Nat.not_le]

theorem decide_of_present (hr : s.documentation = some r) (hpresent : r.readmePresent = true) :
    decide c s p = .ofStatus c (status r p) [draft r p] := by
  unfold decide
  rw [hr]
  exact if_pos hpresent

theorem judged_of_present (hr : s.documentation = some r) (hpresent : r.readmePresent = true) :
    p.Judged r (found r p) (missing r p) (decide c s p) := by
  rw [decide_of_present hr hpresent]
  exact ⟨sorted_found_missing r p, ⟨draft r p, rfl, rfl⟩, status_eq_met_iff, status_eq_partly_iff,
    status_eq_unmet_iff⟩

theorem status_of_absent (hr : s.documentation = some r) (hpresent : r.readmePresent = false) :
    (decide c s p).status = .unmet := by
  unfold decide
  rw [hr]
  simp only [hpresent, Bool.false_eq_true, ↓reduceIte]
  rfl

/-! ### Other spellings -/

/-- The same number of sections is enough, and each section has another spelling. -/
structure Sections.Respelt (p p' : Sections) : Prop where
  required : List.Forall₂ Text.Respelt p.required p'.required
  partialMin : p'.partialMin = p.partialMin

/-- Both sides have a README or none, and each heading on one side is spelt on the other side too,
in any place and any number of times. -/
structure RespeltHeadings (r r' : DocumentationReport) : Prop where
  present : r'.readmePresent = r.readmePresent
  forth : ∀ h ∈ r.readmeSections, ∃ h' ∈ r'.readmeSections, Text.Respelt h h'
  back : ∀ h' ∈ r'.readmeSections, ∃ h ∈ r.readmeSections, Text.Respelt h h'

/-- A heading for a section is one for it in every spelling of both. -/
theorem HasHeading.of_respelt (h : HasHeading headings name) (hname : normal name = normal name')
    (hheadings : ∀ h ∈ headings, ∃ h' ∈ headings', normal h = normal h') :
    HasHeading headings' name' := by
  obtain ⟨heading, hmem, hoccurs⟩ := h
  obtain ⟨heading', hmem', hheading⟩ := hheadings heading hmem
  exact ⟨heading', hmem', by rwa [← hname, ← hheading]⟩

theorem covers_eq_of_respelt (h : RespeltHeadings r r') (hname : Text.Respelt name name') :
    covers r.readmeSections name = covers r'.readmeSections name' := by
  rw [Bool.eq_iff_iff, covers_eq_true_iff, covers_eq_true_iff]
  have hname := respelt_iff.1 hname
  -- Either direction finds the heading in its other spelling on the other side.
  constructor
  · refine fun hcovers => hcovers.of_respelt hname fun heading hmem => ?_
    obtain ⟨heading', hmem', hheading⟩ := h.forth heading hmem
    exact ⟨heading', hmem', respelt_iff.1 hheading⟩
  · refine fun hcovers => hcovers.of_respelt hname.symm fun heading' hmem' => ?_
    obtain ⟨heading, hmem, hheading⟩ := h.back heading' hmem'
    exact ⟨heading, hmem, (respelt_iff.1 hheading).symm⟩

/-- As many sections are found and as many are missing. -/
theorem length_eq_of_respelt (hp : p.Respelt p') (hr : RespeltHeadings r r') :
    (found r p).length = (found r' p').length ∧ (missing r p).length = (missing r' p').length := by
  have hcovers (name name') (hname : Text.Respelt name name') :=
    covers_eq_of_respelt hr hname
  -- What is missing is found by the opposite test.
  have hothers (name name') (hname : Text.Respelt name name') :=
    congrArg (! ·) (covers_eq_of_respelt hr hname)
  exact ⟨(hp.required.filter_of_eq hcovers).length_eq, (hp.required.filter_of_eq hothers).length_eq⟩

theorem status_eq_of_respelt (hp : p.Respelt p') (hr : RespeltHeadings r r') :
    status r' p' = status r p := by
  obtain ⟨hfound, hmissing⟩ := length_eq_of_respelt hp hr
  have hempty : (missing r' p').isEmpty = (missing r p).isEmpty := by
    rw [Bool.eq_iff_iff, List.isEmpty_iff_length_eq_zero, List.isEmpty_iff_length_eq_zero, hmissing]
  unfold status
  rw [hempty, hp.partialMin, hfound]

/-- A section without a name is none in any spelling, and the numbers of sections are the same. -/
theorem Sections.Respelt.check_eq (hp : p.Respelt p') (hcheck : p.check = .ok ()) :
    p'.check = .ok () := by
  have hany : p.required.any isBlankText = p'.required.any isBlankText :=
    hp.required.any_eq fun _ _ hname => hname.isBlankText_eq
  unfold check at hcheck ⊢
  rw [← hany, hp.partialMin, ← hp.required.length_eq]
  -- The check is gone through in its order: blank names first, then the number for a part.
  cases hblank : p.required.any isBlankText with
  | true =>
    rw [hblank] at hcheck
    exact nomatch hcheck
  | false =>
    rw [hblank] at hcheck
    rw [if_neg Bool.false_ne_true] at hcheck ⊢
    cases hpartial : p.partialMin with
    | none => rfl
    | some n =>
      rw [hpartial] at hcheck
      obtain ⟨henough, -⟩ := Except.ite_error_eq_ok_iff.1 hcheck
      exact if_neg henough

/-- The sections required by parameters that are accepted are sorted by the headings of a README,
and it is met if none is missing, partly met if enough are found for that, and unmet otherwise, as
it is where there is no README. Other spellings of the sections are accepted too, and with these and
with the headings spelt otherwise, in another order or several times, the status is the same. -/
theorem judge_sorts_sections (c : Criterion.Context) {s : Snapshot} {params : Params}
    {p : Sections} {r : DocumentationReport} (hp : rule.accept params = .ok p)
    (hr : s.documentation = some r) :
    ∃ v, rule.toRule.judge c s params = .ok v ∧
      (r.readmePresent = true → ∃ found missing, p.Judged r found missing v) ∧
      (r.readmePresent = false → v.status = .unmet) ∧
      ∀ s' params' p' r', rule.read params' = .ok p' → s'.documentation = some r' →
        p.Respelt p' → RespeltHeadings r r' →
        ∃ v', rule.toRule.judge c s' params' = .ok v' ∧ v'.status = v.status := by
  -- Parameters that are accepted are judged by what has been read of them.
  have hjudge (s : Snapshot) {params : Params} {p : Sections} (hp : rule.accept params = .ok p) :
      rule.toRule.judge c s params = .ok (decide c s p) := by
    simp only [TypedRule.toRule, hp]
    rfl
  refine ⟨_, hjudge s hp, fun hpresent => ⟨_, _, judged_of_present hr hpresent⟩,
    status_of_absent hr, fun s' params' p' r' hread hr' hsections hheadings => ?_⟩
  have hp' : rule.accept params' = .ok p' :=
    TypedRule.accept_of_read hread (hsections.check_eq (TypedRule.of_accept hp).2)
  refine ⟨_, hjudge s' hp', ?_⟩
  -- Both sides have a README or none, so that two of four cases are left.
  cases hpresent : r.readmePresent with
  | true =>
    rw [decide_of_present hr hpresent, decide_of_present hr' (hheadings.present.trans hpresent)]
    exact status_eq_of_respelt hsections hheadings
  | false =>
    rw [status_of_absent hr hpresent, status_of_absent hr' (hheadings.present.trans hpresent)]

/-- Parameters that require these sections. -/
private def requiring (names : List String) : Params :=
  .ofList [("partial_min_sections", .ofNat 1), ("required_sections", .ofList .str names)]

/-- A report of documentation with these headings. -/
private def documented (headings : List String) : DocumentationReport :=
  ⟨true, headings, 0, 0, false, false, false⟩

/-- One of two sections is found, and found again under another spelling of everything. -/
theorem judge_sorts_sections_respelt :
    let c : Criterion.Context := ⟨"readme", .documentation, 10, "rust"⟩
    let r := documented ["Setup", "How-to: usage"]
    let r' := documented [" HOW-TO: Usage\t", "setup", "SETUP "]
    ∃ v v', rule.toRule.judge c ⟨"rust", none, none, none, none, none, some r⟩
        (requiring ["Usage", "Licence"]) = .ok v ∧
      rule.toRule.judge c ⟨"rust", none, none, none, none, none, some r'⟩
        (requiring [" USAGE", "licence "]) = .ok v' ∧
      v.status = .partly ∧ v'.status = .partly := by
  intro c r r'
  have hp : rule.accept (requiring ["Usage", "Licence"]) = .ok ⟨["Usage", "Licence"], some 1⟩ := rfl
  have hp' : rule.read (requiring [" USAGE", "licence "])
      = .ok ⟨[" USAGE", "licence "], some 1⟩ := rfl
  have hsections : Sections.Respelt ⟨["Usage", "Licence"], some 1⟩
      ⟨[" USAGE", "licence "], some 1⟩ :=
    ⟨.cons (respelt_iff.2 (by decide +kernel)) (.cons (respelt_iff.2 (by decide +kernel)) .nil),
      rfl⟩
  have hheadings : RespeltHeadings r r' := by
    refine ⟨rfl, ?_, ?_⟩
    · simp only [respelt_iff]
      decide +kernel
    · simp only [respelt_iff]
      decide +kernel
  obtain ⟨v, hv, hjudged, -, hsame⟩ := judge_sorts_sections c
    (s := ⟨"rust", none, none, none, none, none, some r⟩) hp rfl
  obtain ⟨v', hv', hstatus⟩ := hsame ⟨"rust", none, none, none, none, none, some r'⟩ _ _ _ hp' rfl
    hsections hheadings
  -- One section is found, which is enough for a part, and one is missing.
  have hpartly : v.status = .partly := by
    obtain ⟨found, missing, hjudged⟩ := hjudged rfl
    have hfound : "Usage" ∈ found :=
      (hjudged.sorted.found_iff _ (by simp)).2 (covers_eq_true_iff.1 (by decide +kernel))
    have hmissing : "Licence" ∈ missing := by
      rw [hjudged.sorted.missing_iff _ (by simp), ← covers_eq_true_iff]
      decide +kernel
    exact hjudged.partly_iff.2
      ⟨List.ne_nil_of_mem hmissing, 1, rfl, List.length_pos_of_mem hfound⟩
  exact ⟨v, v', hv, hv', hpartly, hstatus.trans hpartly⟩

end Rule.Readme

end Scorecard
