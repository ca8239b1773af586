import Scorecard.Proofs.Partition
import Scorecard.Proofs.Reread
import Scorecard.Proofs.Volume
import Scorecard.Score.File

/-!
# Scores are read back

A score is written as one document: its dimensions by their names, the places of its evidence by
ids, and texts with whatever stands in them. Whoever reads the file gets the score that has been
written, but for its numbers, and these too where each of them is read as it has been printed. The
document holds all that the summary is made of, so that the summary of what is read is the one in
it.

* `ScoreOutput.numbers`: the numbers of a score; `ScoreOutput.reread`: the score as they are read.
* `ScoreOutput.ofFile_write`: what is read from the file of a score.
* `Rubric.publish_reads_back`: a published score is read back, with its summary.
-/

namespace Scorecard

open Decode

/-! ### Points of a dimension -/

namespace Breakdown

/-- The numbers of a dimension, other than counts. -/
def numbers (b : Breakdown) : List Float := [b.score, b.max, b.percentage]

/-- The points of a dimension with their numbers as they are read. -/
def reread (b : Breakdown) : Breakdown :=
  { b with
    score := Json.rereadFloat b.score
    max := Json.rereadFloat b.max
    percentage := Json.rereadFloat b.percentage }

theorem reread_eq_self {b : Breakdown} (h : ∀ x ∈ b.numbers, Json.rereadFloat x = x) :
    b.reread = b := by
  obtain ⟨hscore, hmax, hpercentage, -⟩ : _ ∧ _ ∧ _ ∧ _ := by
    simpa only [numbers, List.forall_mem_cons] using h
  unfold reread
  rw [hscore, hmax, hpercentage]

theorem rereads_toJson {b : Breakdown} (hfinite : ∀ x ∈ b.numbers, x.isFinite = true)
    (hcount : ∀ s, b.count s < UInt64.size) : decode.Rereads b.reread b.toJson := by
  -- The condition is asked of the three numbers of the dimension only.
  have hfloat {x : Float} (hx : x ∈ b.numbers) :
      Decode.float.Rereads (Json.rereadFloat x) (.ofFloat x) := .float (hfinite x hx)
  have hids (ids : List String) : (Decode.list Decode.string).Rereads ids (.ofList .str ids) :=
    .list fun id _ => .string id
  exact (Record.Rereads.make Breakdown.mk
    |>.required "score" (hfloat (by simp [numbers])) (by simp)
    |>.required "max" (hfloat (by simp [numbers])) (by simp)
    |>.required "percentage" (hfloat (by simp [numbers])) (by simp)
    |>.required "met_count" (.size (hcount .met)) (by simp)
    |>.required "partial_count" (.size (hcount .partly)) (by simp)
    |>.required "unmet_count" (.size (hcount .unmet)) (by simp)
    |>.required "met" (hids b.met) (by simp)
    |>.required "partial" (hids b.partly) (by simp)
    |>.required "unmet" (hids b.unmet) (by simp)).decode "DimensionBreakdown" false

end Breakdown

/-! ### Scores -/

namespace Letter

theorem variantNamed_name (g : Letter) : variantNamed variants g.name = .ok g := by
  cases g <;> rfl

end Letter

namespace ScoreOutput

variable {out : ScoreOutput}

/-- The numbers of a score, other than counts. -/
def numbers (out : ScoreOutput) : List Float :=
  [out.totalScore, out.maxScore, out.percentage]
    ++ out.breakdowns.entries.flatMap fun e => e.2.numbers

/-- The score with its numbers as they are read. -/
def reread (out : ScoreOutput) : ScoreOutput :=
  { out with
    totalScore := Json.rereadFloat out.totalScore
    maxScore := Json.rereadFloat out.maxScore
    percentage := Json.rereadFloat out.percentage
    breakdowns := out.breakdowns.map Breakdown.reread }

/-- What holds of all numbers of a score holds of those of each dimension. -/
private theorem forall_mem_numbers {P : Float → Prop} (h : ∀ x ∈ out.numbers, P x) :
    P out.totalScore ∧ P out.maxScore ∧ P out.percentage ∧
      ∀ e ∈ out.breakdowns.entries, ∀ x ∈ e.2.numbers, P x := by
  obtain ⟨hown, hrest⟩ := List.forall_mem_append.1 h
  simp only [List.forall_mem_cons] at hown
  exact ⟨hown.1, hown.2.1, hown.2.2.1,
    fun e he x hx => hrest x (List.mem_flatMap.2 ⟨e, he, hx⟩)⟩

theorem reread_eq_self (h : ∀ x ∈ out.numbers, Json.rereadFloat x = x) : out.reread = out := by
  obtain ⟨htotal, hmax, hpercentage, hbreakdowns⟩ := forall_mem_numbers h
  have htable : out.breakdowns.map Breakdown.reread = out.breakdowns := by
    refine Table.ext ((List.map_congr_left fun e he => ?_).trans (List.map_id _))
    rw [Breakdown.reread_eq_self (hbreakdowns e he)]
    rfl
  unfold reread
  rw [htotal, hmax, hpercentage, htable]

/-- The summary of a score is made of what stands beside it. -/
theorem render_summary (out : ScoreOutput) (text : String) :
    { out with summary := text }.render = out.render := rfl

/-- A score that has finite numbers and no count beyond a word is read of its document. -/
theorem rereads_toJson (hfinite : ∀ x ∈ out.numbers, x.isFinite = true)
    (hcount : ∀ e ∈ out.breakdowns.entries, ∀ s, e.2.count s < UInt64.size) :
    decode.Rereads out.reread out.toJson := by
  obtain ⟨htotal, hmax, hpercentage, hbreakdowns⟩ := forall_mem_numbers hfinite
  have htable : (Dimension.decodeTable Breakdown.decode).Rereads
      (out.breakdowns.map Breakdown.reread)
      (.ofTable Dimension.key Breakdown.toJson out.breakdowns) :=
    .tableBy Dimension.variantNamed_key fun e he =>
      Breakdown.rereads_toJson (hbreakdowns e he) (hcount e he)
  have hpaths : (Decode.table Evidence.decodePath).Rereads out.evidencePaths
      (.ofTable (fun k => k) (fun p => .str p.text) out.evidencePaths) := by
    have hmap : (Decode.table Evidence.decodePath).Rereads (out.evidencePaths.map fun p => p)
        (.ofTable (fun k => k) (fun p => .str p.text) out.evidencePaths) :=
      .tableBy (fun _ => rfl) fun e _ => fun _ => rfl
    rwa [Table.map_id] at hmap
  have hwarnings : (Decode.list Decode.string).Rereads out.warnings (.ofList .str out.warnings) :=
    .list fun w _ => .string w
  exact (Record.Rereads.make ScoreOutput.mk
    |>.required "total_score" (.float htotal) (by simp)
    |>.required "max_possible_score" (.float hmax) (by simp)
    |>.required "percentage" (.float hpercentage) (by simp)
    |>.required "letter_grade" (.variant out.grade.variantNamed_name) (by simp)
    |>.required "dimension_breakdowns" htable (by simp)
    |>.required "evidence_paths" hpaths (by simp)
    |>.required "warnings" hwarnings (by simp)
    |>.required "human_summary" (.string out.summary) (by simp)).decode "ScoreOutput" false

/-- A score is not nested deeply. -/
theorem depth_toJson_le (out : ScoreOutput) : out.toJson.depth ≤ 4 := by
  -- A list of ids stands in a dimension, which stands in the table of dimensions of the score.
  have hfloat (x : Float) : (Json.ofFloat x).depth = 0 := by
    unfold Json.ofFloat
    split <;> rfl
  have hids (ids : List String) : (Json.ofList .str ids).depth ≤ 1 :=
    Nat.succ_le_succ (Json.depthOfItems_map_le.2 fun _ _ => Nat.le_refl 0)
  have hbreakdown (b : Breakdown) : b.toJson.depth ≤ 2 := by
    have hmet := hids b.met
    have hpartly := hids b.partly
    have hunmet := hids b.unmet
    unfold Breakdown.toJson
    simp only [Json.depth, Json.depthOfMembers, hfloat, Json.ofNat]
    omega
  have hbreakdowns : (Json.ofTable Dimension.key Breakdown.toJson out.breakdowns).depth ≤ 3 :=
    Nat.succ_le_succ (Json.depthOfMembers_map_le.2 fun e _ => hbreakdown e.2)
  have hpaths : (Json.ofTable (fun k : String => k) (fun p : Path => .str p.text)
      out.evidencePaths).depth ≤ 1 :=
    Nat.succ_le_succ (Json.depthOfMembers_map_le.2 fun _ _ => Nat.le_refl 0)
  have hwarnings := hids out.warnings
  unfold toJson
  simp only [Json.depth, Json.depthOfMembers, hfloat, Letter.toJson]
  omega

/-! ### Files -/

variable {v v' : Volume} {p : Path}

/-- Only a fault of the volume can keep a score from being written. -/
theorem exists_fault_of_write {error : ScoreFileError} (h : out.write v p = .error error) :
    ∃ fault, v.save p out.fileText.toUTF8 = .error fault ∧ error = ⟨.write, p, .io fault⟩ := by
  obtain ⟨fault, hfault, rfl⟩ := Except.mapError_eq_error_iff.1 h
  exact ⟨fault, hfault, rfl⟩

theorem contentsText_writeText {text : String} (h : writeText v p text = .ok v') :
    v'.contentsText p = .ok text := by
  -- What has been saved is there, and bytes of a text are read as that text.
  have hcontents := Volume.contents_save (Except.mapError_eq_ok_iff.1 h)
  refine Except.bind_eq_ok_iff.2 ⟨text.toUTF8, hcontents, ?_⟩
  rw [fromUTF8?_toUTF8]
  rfl

/-- From its file a score with finite numbers is read, with the numbers as they are read. -/
theorem ofFile_write (hfinite : ∀ x ∈ out.numbers, x.isFinite = true)
    (hcount : ∀ e ∈ out.breakdowns.entries, ∀ s, e.2.count s < UInt64.size)
    (h : out.write v p = .ok v') : ofFile v' p = .ok out.reread := by
  have htext : v'.contentsText p = .ok out.toJson.pretty := contentsText_writeText h
  -- The document is shallow enough to be parsed.
  have hread : ofText decode out.toJson.pretty = .ok out.reread :=
    (rereads_toJson hfinite hcount).ofText_pretty
      (Nat.le_trans out.depth_toJson_le (by decide))
  unfold ofFile
  rw [htext]
  exact Except.mapError_eq_ok_iff.2 hread

end ScoreOutput

/-! ### Published scores -/

/-- No dimension counts more criteria than there are. -/
theorem Outcome.Fits.count_le {o : Outcome} {r : Rubric} (h : o.Fits r)
    {e : Dimension × Breakdown} (he : e ∈ (r.breakdowns o).entries) (s : Status) :
    e.2.count s ≤ o.criteria.length := by
  rw [Rubric.entries_breakdowns fun _ => h.mem_dimensions] at he
  obtain ⟨d, -, rfl⟩ := List.mem_map.1 he
  obtain ⟨hids, hcount⟩ := r.ids_breakdown o d s
  simp only
  -- What is counted has been filtered from the outcomes twice.
  rw [hcount, hids, List.length_map]
  exact (List.length_filter_le _ _).trans (List.length_filter_le _ _)

namespace Rubric

variable {r : Rubric} {o : Outcome}

/-- Nothing but a fault of the volume keeps a published score from being written, whatever its
dimensions, texts and places of evidence are. From the file to which it has been written it is read
back, if its numbers are finite and each of them is read as it is printed; and the summary that is
made of it there is the one that it holds. The criteria are no more than a word can count. -/
theorem publish_reads_back {m : Manifest} {j : Journal} {out : ScoreOutput}
    (h : (r.publish o m).result j = .ok out) (hlength : o.criteria.length < UInt64.size)
    (hfinite : ∀ x ∈ out.numbers, x.isFinite = true)
    (hcodec : ∀ x ∈ out.numbers, ofText float (Json.ofFloat x).pretty = .ok x)
    (v : Volume) (p : Path) :
    (∀ error, out.write v p = .error error → ∃ fault,
      v.save p out.fileText.toUTF8 = .error fault ∧ error = ⟨.write, p, .io fault⟩) ∧
    ∀ v', out.write v p = .ok v' →
      ∃ back, ScoreOutput.ofFile v' p = .ok back ∧ back = out ∧ back.render = back.summary := by
  obtain ⟨hfits, rfl⟩ := publish_eq_ok_iff.1 h
  refine ⟨fun error herror => ScoreOutput.exists_fault_of_write herror, fun v' hwrite => ?_⟩
  have hcount : ∀ e ∈ (r.score o m).breakdowns.entries, ∀ s, e.2.count s < UInt64.size :=
    fun e he s => Nat.lt_of_le_of_lt (hfits.count_le he s) hlength
  have hread := ScoreOutput.ofFile_write hfinite hcount hwrite
  -- A number that is read alone as it has been printed is read so in the document.
  have hnumbers : ∀ x ∈ (r.score o m).numbers, Json.rereadFloat x = x := by
    intro x hx
    exact Except.ok.inj ((ofText_ofFloat (hfinite x hx)).symm.trans (hcodec x hx))
  rw [ScoreOutput.reread_eq_self hnumbers] at hread
  exact ⟨_, hread, rfl, ScoreOutput.render_summary _ _⟩

/-- Where the criteria of the standard rubric that are worth fifteen points are met and the others
in part, and the manifest has quotes, backslashes and control characters in its texts, the score is
read back from a file on an empty volume. -/
theorem publish_reads_back_standard :
    let o := Outcome.ofCriteria (standard.criteria.map fun c =>
      c.graded (if c.maxPoints = 15 then .met else .partly) [c.id, "lost"]) standard.totalPoints
    let m : Manifest := {
      entries := .ofList [
        ("lint_clean", ⟨"evidence/\"lint\"\n☃.json"⟩),
        (Manifest.indexKey, ⟨"evidence/index.json"⟩)]
      indexPath := some ⟨"evidence/index.json"⟩
      omitted := []
      warnings := ["slow\tdisk \\\\srv\\a\r\n\x00\x1b 𝄞", ""] }
    ∃ out v' back, (standard.publish o m).result .empty = .ok out ∧
      o.criteria.length < UInt64.size ∧ (∀ x ∈ out.numbers, x.isFinite = true) ∧
      (∀ x ∈ out.numbers, ofText float (Json.ofFloat x).pretty = .ok x) ∧
      out.write .empty ⟨"score.json"⟩ = .ok v' ∧
      ScoreOutput.ofFile v' ⟨"score.json"⟩ = .ok back ∧ back = out ∧
      back.render = back.summary := by
  intro o m
  have hgrades : o.Grades standard := standard.grades_ofCriteria _ _
  have hpublish := (hgrades.fits (issues_eq_nil_iff.1 issues_standard)).result_publish m .empty
  have hfinite : ∀ x ∈ (standard.score o m).numbers, x.isFinite = true := by decide +kernel
  have hsame : ∀ x ∈ (standard.score o m).numbers, Json.rereadFloat x = x := by decide +kernel
  have hcodec : ∀ x ∈ (standard.score o m).numbers,
      ofText float (Json.ofFloat x).pretty = .ok x := by
    intro x hx
    rw [ofText_ofFloat (hfinite x hx), hsame x hx]
  have hwrites (text : String) : ∃ v', ScoreOutput.writeText .empty ⟨"score.json"⟩ text = .ok v' :=
    ⟨_, rfl⟩
  obtain ⟨v', hwrite⟩ := hwrites (standard.score o m).fileText
  have hlength : o.criteria.length < UInt64.size := by decide
  obtain ⟨-, hreads⟩ :=
    publish_reads_back hpublish hlength hfinite hcodec .empty ⟨"score.json"⟩
  obtain ⟨back, hback⟩ := hreads v' hwrite
  exact ⟨_, v', back, hpublish, hlength, hfinite, hcodec, hwrite, hback⟩

end Rubric

end Scorecard
