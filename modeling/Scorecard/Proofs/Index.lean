import Scorecard.Proofs.Decode
import Scorecard.Store.Persist

/-!
# The index of items

An index that is read back from its bytes is the one that was written, as far as its stamp is read:
it has no numbers but a count, and is not nested deeply. Of the items that are settled it lists
those kept, by their dimensions and in their order, and counts them.

* `Index.eq_of_ofBytes`: what is read back of an index.
* `Store.listed_indexOf`: the entries of a dimension.
* `Store.counted_indexOf`: their number.
* `Store.indexOf_stamp`: nothing but its stamp depends on the stamp.
-/

namespace Scorecard

open Decode

/-! ### Reading an index back -/

theorem IndexEntry.decode_toJson (d : Dialect) (e : IndexEntry) : decode d e.toJson = .ok e := rfl

theorem Omission.decode_toJson (d : Dialect) (o : Omission) : decode d o.toJson = .ok o := rfl

/-- A stamp that is read back as it is written. -/
structure Stamp.Legible (stamp : Stamp) : Prop where
  runId : RunId.decode .text stamp.runId.toJson = .ok stamp.runId
  time : Timestamp.decode .text stamp.time.toJson = .ok stamp.time

namespace Index

variable {ix : Index}

/-- There are no numbers in the entries. -/
private theorem legible_dimensions (ix : Index) :
    (Json.ofTable Dimension.key (.ofList IndexEntry.toJson) ix.dimensions).Legible :=
  Json.legibleMembers_map.2 fun _ _ =>
    Json.legibleItems_map.2 fun _ _ => ⟨trivial, trivial, trivial, trivial, trivial⟩

/-- There are no numbers in the omissions. -/
private theorem legible_omitted (ix : Index) : (Json.ofList Omission.toJson ix.omitted).Legible :=
  Json.legibleItems_map.2 fun _ _ => ⟨trivial, trivial, trivial⟩

/-- All that is written of an index can be read back. -/
theorem legible_toJson (h : ix.totalEntries < UInt64.size) : ix.toJson.Legible :=
  ⟨trivial, trivial, trivial, Json.legible_ofNat h, ix.legible_dimensions, ix.legible_omitted,
    trivial⟩

/-- An index is not nested deeply. -/
theorem depth_toJson_le (ix : Index) : ix.toJson.depth ≤ 4 := by
  -- An entry is an object in a list in the table of dimensions of the index.
  have hentries (es : List IndexEntry) : (Json.ofList IndexEntry.toJson es).depth ≤ 2 :=
    Nat.succ_le_succ (Json.depthOfItems_map_le.2 fun _ _ => Nat.le_refl 1)
  have hdimensions :
      (Json.ofTable Dimension.key (.ofList IndexEntry.toJson) ix.dimensions).depth ≤ 3 :=
    Nat.succ_le_succ (Json.depthOfMembers_map_le.2 fun e _ => hentries e.2)
  have homitted : (Json.ofList Omission.toJson ix.omitted).depth ≤ 2 :=
    Nat.succ_le_succ (Json.depthOfItems_map_le.2 fun _ _ => Nat.le_refl 1)
  unfold toJson
  simp only [Json.depth, Json.depthOfMembers, RunId.toJson, Timestamp.toJson, Json.ofNat]
  omega

/-- The entries are read as they are written. -/
private theorem decode_dimensions (ix : Index) (d : Dialect) :
    Dimension.decodeTable (list IndexEntry.decode) d
      (Json.ofTable Dimension.key (.ofList IndexEntry.toJson) ix.dimensions)
        = .ok ix.dimensions :=
  tableBy_ofTable Dimension.variantNamed_key fun _ _ => list_ofList fun e _ => e.decode_toJson d

/-- The omissions are read as they are written. -/
private theorem decode_omitted (ix : Index) (d : Dialect) :
    list Omission.decode d (Json.ofList Omission.toJson ix.omitted) = .ok ix.omitted :=
  list_ofList fun o _ => o.decode_toJson d

/-- What is read of an index is the index, if its stamp is read. -/
theorem decode_toJson (d : Dialect) (h : ix.totalEntries < UInt64.size) {parsed : Index} :
    decode d ix.toJson = .ok parsed ↔
      ∃ runId time, RunId.decode d ix.runId.toJson = .ok runId ∧
        Timestamp.decode d ix.generatedAt.toJson = .ok time ∧
        parsed = { ix with runId, generatedAt := time } := by
  have hdimensions := ix.decode_dimensions d
  have homitted := ix.decode_omitted d
  -- A count below the greatest word is read as it is written.
  have hsize : Decode.size d (Json.ofNat ix.totalEntries) = .ok ix.totalEntries :=
    natBelow_ofNat d "usize" h (fitsWord_of_lt h)
  unfold decode toJson
  rw [Record.decode_obj]
  -- The members are taken off from the last one on, each by the last field of its record.
  change Record.read _ _ _ ([] ++ [_] ++ [_] ++ [_] ++ [_] ++ [_] ++ [_]) = _ ↔ _
  unfold Record.required Record.defaulted
  simp (disch := simp) only [Record.read_field, Record.read_make, hsize, hdimensions, homitted]
  constructor
  · rintro ⟨_, _, ⟨_, _, ⟨_, _, ⟨_, time, ⟨_, runId, ⟨_, _, ⟨⟩, ⟨⟩, rfl⟩, hrun, rfl⟩, htime, rfl⟩,
      ⟨⟩, rfl⟩, ⟨⟩, rfl⟩, ⟨⟩, rfl⟩
    exact ⟨runId, time, hrun, htime, rfl⟩
  · rintro ⟨runId, time, hrun, htime, rfl⟩
    exact ⟨_, _, ⟨_, _, ⟨_, _, ⟨_, time, ⟨_, runId, ⟨_, _, rfl, rfl, rfl⟩, hrun, rfl⟩, htime, rfl⟩,
      rfl, rfl⟩, rfl, rfl⟩, rfl, rfl⟩

/-- Reading the bytes of an index is decoding its value: it is not too deep, and its numbers can be
read. -/
private theorem ofBytes_bytes (h : ix.totalEntries < UInt64.size) :
    ofBytes decode ix.bytes = (decode .text ix.toJson).mapError (.misfit .text) := by
  rw [bytes, ofBytes_pretty decode (Nat.le_trans (depth_toJson_le ix) (by decide)),
    Json.reread_eq_self _ (legible_toJson h)]

/-- What is read back of an index that has the identity of the one written is that one. -/
theorem eq_of_ofBytes (h : ix.totalEntries < UInt64.size) {parsed : Index}
    (hparsed : ofBytes decode ix.bytes = .ok parsed) (hrun : parsed.runId = ix.runId) :
    parsed = ix := by
  rw [ofBytes_bytes h, Except.mapError_eq_ok_iff, decode_toJson _ h] at hparsed
  obtain ⟨runId, time, -, htime, rfl⟩ := hparsed
  -- A time is kept as it is written.
  obtain ⟨s, hs, hread⟩ := Except.bind_eq_ok_iff.1 htime
  obtain ⟨⟨⟩, -, rfl⟩ := Except.map_eq_ok_iff.1 (Except.mapError_eq_ok_iff.1 hread)
  cases hs
  change runId = ix.runId at hrun
  rw [hrun]

/-- An index with a stamp that is read back is read back. -/
theorem ofBytes_of_legible (h : ix.totalEntries < UInt64.size)
    (hstamp : Stamp.Legible ⟨ix.runId, ix.generatedAt⟩) : ofBytes decode ix.bytes = .ok ix := by
  rw [ofBytes_bytes h, Except.mapError_eq_ok_iff, decode_toJson _ h]
  exact ⟨_, _, hstamp.runId, hstamp.time, rfl⟩

/-- Where the stamp of an index is read, all else depends on whether its number of entries is, as
it is written; the number may be too great for that. -/
theorem ofBytes_bytes_of_legible (hstamp : Stamp.Legible ⟨ix.runId, ix.generatedAt⟩) :
    ofBytes decode ix.bytes = ((Decode.size .text (Json.ofNat ix.totalEntries).reread).map
      fun n => { ix with totalEntries := n }).mapError (.misfit .text) := by
  have hreread : ix.toJson.reread = .obj [
      ("schema_version", .str ix.schemaVersion), ("run_id", ix.runId.toJson),
      ("generated_at", ix.generatedAt.toJson),
      ("total_entries", (Json.ofNat ix.totalEntries).reread),
      ("dimensions", .ofTable Dimension.key (.ofList IndexEntry.toJson) ix.dimensions),
      ("omitted", .ofList Omission.toJson ix.omitted)] := by
    simp only [toJson, Json.reread, Json.rereadMembers, RunId.toJson, Timestamp.toJson,
      Json.reread_eq_self _ ix.legible_dimensions, Json.reread_eq_self _ ix.legible_omitted]
  rw [bytes, ofBytes_pretty decode (Nat.le_trans (depth_toJson_le ix) (by decide)), hreread]
  refine congrArg (Except.mapError _) ?_
  have hschema : string .text (.str ix.schemaVersion) = .ok ix.schemaVersion := rfl
  unfold decode
  rw [Record.decode_obj]
  -- The members are taken one after another; the first three are read in any case.
  simp only [Record.read, List.foldlM_cons, List.foldlM_nil]
  cases hsize : Decode.size .text (Json.ofNat ix.totalEntries).reread with
  | error fault =>
    simp [Record.takeMember, Record.required, Record.defaulted, Record.field, Record.make,
      Except.map, bind, Except.bind, hschema, hstamp.runId, hstamp.time, hsize]
  | ok n =>
    simp [Record.takeMember, Record.required, Record.defaulted, Record.field, Record.make,
      Record.orFault, Except.map, bind, Except.bind, pure, Except.pure, hschema, hstamp.runId,
      hstamp.time, hsize, ix.decode_dimensions .text, ix.decode_omitted .text]

/-- There is always something in the file of an index. -/
theorem isEmpty_bytes (ix : Index) : ix.bytes.isEmpty = false := Json.isEmpty_pretty_obj _

/-- The index with another stamp. -/
def stamped (ix : Index) (stamp : Stamp) : Index :=
  { ix with runId := stamp.runId, generatedAt := stamp.time }

/-! ### Entries by dimension -/

/-- The entries of a dimension. -/
def listed (ix : Index) (d : Dimension) : List IndexEntry := (ix.dimensions.get? d).getD []

/-- The number of entries is that of all lists together. -/
def Counted (ix : Index) : Prop := ix.totalEntries = ix.dimensions.sum List.length

theorem listed_push (ix : Index) (d d' : Dimension) (e : IndexEntry) :
    (ix.push d e).listed d' = ix.listed d' ++ if d = d' then [e] else [] := by
  unfold listed push
  simp only
  rw [Table.get?_insert]
  by_cases h : d = d'
  · rw [if_pos h, if_pos h.symm, h, Option.getD_some]
  · rw [if_neg h, if_neg (Ne.symm h), List.append_nil]

theorem counted_empty (stamp : Stamp) : (empty stamp).Counted := rfl

theorem Counted.push (h : ix.Counted) (d : Dimension) (e : IndexEntry) : (ix.push d e).Counted := by
  have hsum := ix.dimensions.sum_insert List.length d (ix.listed d ++ [e])
  -- A dimension without entries counts as one with an empty list.
  have hbefore : ((ix.dimensions.get? d).map List.length).getD 0 = (ix.listed d).length := by
    unfold listed
    cases ix.dimensions.get? d with
    | none => rfl
    | some es => rfl
  rw [hbefore, List.length_append, List.length_singleton, ← h] at hsum
  change ix.totalEntries + 1 = (ix.dimensions.insert d (ix.listed d ++ [e])).sum List.length
  omega

end Index

namespace Store

variable {settled : List Settled}

/-- What is read of a store's index is the index `ix`. -/
def ReadsIndex {σ : Type} [FileSystem σ] (s : Store) (v : σ) (ix : Index) : Prop :=
  ∃ bytes, FileSystem.contents v s.indexPath = .ok bytes ∧
    Decode.ofBytes Index.decode bytes = .ok ix

/-- Bytes that have been read back as they were written pass the check, if there are any. -/
theorem checkReadBack_self {bytes : ByteArray} (h : bytes.isEmpty = false) (p : Path) :
    checkReadBack p bytes bytes = .ok () := by
  unfold checkReadBack
  rw [if_neg (Bool.eq_false_iff.1 h)]
  exact if_pos rfl

/-- Where an index has been read back as it was written, it counts as written. -/
theorem settleIndex_bytes {ix : Index} (h : ofBytes Index.decode ix.bytes = .ok ix) (p : Path) :
    settleIndex ix p (.ok ix.bytes) = .ok () := by
  have hcheck := checkReadBack_self ix.isEmpty_bytes p
  refine Except.bind_eq_ok_iff.2 ⟨ix.bytes, rfl, Except.bind_eq_ok_iff.2 ⟨(), hcheck, ?_⟩⟩
  exact Except.bind_eq_ok_iff.2 ⟨ix, Except.mapError_eq_ok_iff.2 h, if_pos rfl⟩

/-- Whether an index that has been read back as it was written counts as written, and why it does
not, depends on the number of its entries only. -/
theorem settleIndex_of_legible {ix : Index} (hstamp : Stamp.Legible ⟨ix.runId, ix.generatedAt⟩)
    (p : Path) :
    settleIndex ix p (.ok ix.bytes)
      = ((Decode.size .text (Json.ofNat ix.totalEntries).reread).map fun _ => ()).mapError
        fun fault => .serialization (.misfit .text fault) := by
  have hcheck := checkReadBack_self ix.isEmpty_bytes p
  have hread := Index.ofBytes_bytes_of_legible hstamp
  simp only [settleIndex, bind, Except.bind, Except.mapError, hcheck, hread]
  cases Decode.size .text (Json.ofNat ix.totalEntries).reread with
  | error fault => simp only [Except.map]
  | ok n => simp [Except.map, pure, Except.pure]

/-- The entry of an item in the list of a dimension, if it is kept and belongs there. -/
def listing? (d : Dimension) (s : Settled) : Option IndexEntry :=
  match s.result with
  | .ok kept =>
    if s.item.dimension = d then
      some ⟨s.item.id, s.item.criterionId, kept.target.relative, kept.digest⟩
    else none
  | .error _ => none

/-- An item that is added is listed last in its dimension, if it is kept. -/
private theorem listed_addToIndex (ix : Index) (s : Settled) (d : Dimension) :
    (addToIndex ix s).listed d = ix.listed d ++ (listing? d s).toList := by
  unfold addToIndex listing?
  cases s.result with
  | error error => exact (List.append_nil _).symm
  | ok kept =>
    simp only
    rw [Index.listed_push]
    split
    · rfl
    · rfl

/-- An item that is added is counted. -/
private theorem counted_addToIndex {ix : Index} (h : ix.Counted) (s : Settled) :
    (addToIndex ix s).Counted := by
  unfold addToIndex
  cases s.result with
  | error error => exact h
  | ok kept => exact h.push _ _

/-- An item that is added counts once, if it is kept. -/
private theorem totalEntries_addToIndex (ix : Index) (s : Settled) :
    (addToIndex ix s).totalEntries = ix.totalEntries + if s.result.isOk then 1 else 0 := by
  unfold addToIndex
  cases s.result with
  | error error => rfl
  | ok kept => rfl

/-- What adding items makes of an index that has some entries already. -/
private theorem foldl_addToIndex (ix : Index) (h : ix.Counted) (settled : List Settled) :
    (settled.foldl addToIndex ix).Counted ∧
      (settled.foldl addToIndex ix).totalEntries
        = ix.totalEntries + settled.countP (·.result.isOk) ∧
      ∀ d, (settled.foldl addToIndex ix).listed d
        = ix.listed d ++ settled.filterMap (listing? d) := by
  induction settled generalizing ix with
  | nil => exact ⟨h, rfl, fun d => (List.append_nil _).symm⟩
  | cons s settled ih =>
    obtain ⟨hcounted, htotal, hlisted⟩ := ih (addToIndex ix s) (counted_addToIndex h s)
    -- The first item counts once if it is kept, and the others go on from there.
    have hone := totalEntries_addToIndex ix s
    rw [List.foldl_cons]
    refine ⟨hcounted, ?_, fun d => ?_⟩
    · rw [List.countP_cons]
      omega
    · rw [hlisted, listed_addToIndex, List.append_assoc, List.filterMap_cons]
      cases listing? d s with
      | none => rfl
      | some e => rfl

/-- A dimension lists its items that are kept, in their order. -/
theorem listed_indexOf (stamp : Stamp) (settled : List Settled) (d : Dimension) :
    (indexOf stamp settled).listed d = settled.filterMap (listing? d) :=
  (foldl_addToIndex _ (Index.counted_empty stamp) settled).2.2 d

/-- The index counts the items that it lists. -/
theorem counted_indexOf (stamp : Stamp) (settled : List Settled) :
    (indexOf stamp settled).Counted :=
  (foldl_addToIndex _ (Index.counted_empty stamp) settled).1

/-- An index has as many entries as there are items that are kept. -/
theorem totalEntries_indexOf (stamp : Stamp) (settled : List Settled) :
    (indexOf stamp settled).totalEntries = settled.countP (·.result.isOk) :=
  (foldl_addToIndex _ (Index.counted_empty stamp) settled).2.1.trans (Nat.zero_add _)

/-- An index does not list more items than there are. -/
theorem totalEntries_indexOf_le (stamp : Stamp) (settled : List Settled) :
    (indexOf stamp settled).totalEntries ≤ settled.length := by
  rw [totalEntries_indexOf]
  exact List.countP_le_length

/-! ### The stamp of an index -/

/-- The index has the stamp it is given, and nothing else in it depends on the stamp. -/
theorem indexOf_stamp (stamp stamp' : Stamp) (settled : List Settled) :
    indexOf stamp' settled = (indexOf stamp settled).stamped stamp' := by
  -- Items are added to the lists, past the stamp.
  have hfold (ix : Index) : settled.foldl addToIndex (ix.stamped stamp')
      = (settled.foldl addToIndex ix).stamped stamp' := by
    induction settled generalizing ix with
    | nil => rfl
    | cons x settled ih =>
      rw [List.foldl_cons, List.foldl_cons, ← ih]
      congr 1
      unfold addToIndex
      cases x.result with
      | error error => rfl
      | ok kept => rfl
  have hempty : Index.empty stamp' = (Index.empty stamp).stamped stamp' := rfl
  unfold indexOf
  rw [hempty, hfold]
  rfl

/-- An index with a stamp that is read back is read back. -/
theorem ofBytes_indexOf {stamp : Stamp} (hstamp : stamp.Legible)
    (hlength : settled.length < UInt64.size) :
    ofBytes Index.decode (indexOf stamp settled).bytes = .ok (indexOf stamp settled) := by
  have hcount : (indexOf stamp settled).totalEntries < UInt64.size :=
    Nat.lt_of_le_of_lt (totalEntries_indexOf_le stamp settled) hlength
  apply Index.ofBytes_of_legible hcount
  have hown := indexOf_stamp stamp stamp settled
  rw [hown]
  exact hstamp

end Store

end Scorecard
