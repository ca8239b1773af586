import Scorecard.Grading.Dimension
import Scorecard.Proofs.Except
import Scorecard.Proofs.Json.Parse
import Scorecard.Proofs.Table

/-!
# Decoding what has been encoded

A record is encoded as an object with its fields in their order, a list item by item, and a table
by its entries in their order. Where the values in it are read back, so is the whole.

* `Decode.Record.read_field_append`, `Decode.Record.read_field`: reading one field more.
* `Decode.natBelow_ofNat`, `Decode.list_ofList`, `Decode.tableBy_ofTable`: numbers, lists and
  tables are read back; `Decode.tableBy_ofTable_map`: a table is read as another one.
* `Json.legibleItems_map`, `Json.depthOfItems_map_le`: documents made of the values of a list,
  `Json.legibleMembers_map`, `Json.depthOfMembers_map_le`: of a table.
-/

namespace Scorecard.Decode

/-! ### Records -/

namespace Record

variable {α β : Type}

/-- Reads a record from the members of an object. -/
def read (r : Record α) (strict : Bool) (d : Dialect) (members : List (String × Json)) :
    Except Fault α := do
  r.finish (← members.foldlM (r.takeMember strict d) r.start)

theorem decode_obj (r : Record α) (title : String) (strict : Bool) (d : Dialect)
    (members : List (String × Json)) :
    r.decode title strict d (.obj members) = r.read strict d members := rfl

theorem read_make (a : α) (strict : Bool) (d : Dialect) : (make a).read strict d [] = .ok a := rfl

variable {r : Record (α → β)} {name : String} {decode : Decoder α} {o o' : Option α}
  {strict : Bool} {d : Dialect}

/-- A member with another name is taken by the fields in front of the last one. -/
private theorem takeMember_field {s s' : (r.field name decode o o').State} {m : String × Json}
    (hm : m.1 ≠ name) :
    (r.field name decode o o').takeMember strict d s m = .ok s' ↔
      ∃ s₁, r.takeMember strict d s.1 m = .ok s₁ ∧ s' = (s₁, s.2) := by
  have htake : (r.field name decode o o').take d s m.1 m.2
      = (r.take d s.1 m.1 m.2).map fun result => result.map fun s' => (s', s.2) := if_neg hm
  unfold takeMember
  rw [htake]
  cases r.take d s.1 m.1 m.2 with
  | none =>
    cases strict with
    | true => simp
    | false =>
      simp only [Option.map_none, Bool.false_eq_true, if_false, Except.ok.injEq, exists_eq_left']
      exact eq_comm
  | some result =>
    cases result with
    | error fault =>
      constructor
      · intro h
        exact nomatch h
      · rintro ⟨_, h, -⟩
        exact nomatch h
    | ok s₁ =>
      simp only [Option.map_some, Except.map, Except.ok.injEq, exists_eq_left']
      exact ⟨fun h => (Except.ok.inj h).symm, fun h => congrArg Except.ok h.symm⟩

/-- Members with other names pass a field by; they go to the record before it. -/
private theorem foldlM_field {members : List (String × Json)}
    (hm : ∀ m ∈ members, m.1 ≠ name) {s s' : (r.field name decode o o').State} :
    members.foldlM ((r.field name decode o o').takeMember strict d) s = .ok s' ↔
      ∃ s₁, members.foldlM (r.takeMember strict d) s.1 = .ok s₁ ∧ s' = (s₁, s.2) := by
  induction members generalizing s with
  | nil =>
    change Except.ok s = _ ↔ ∃ s₁, Except.ok s.1 = _ ∧ _
    simp only [Except.ok.injEq, exists_eq_left']
    exact eq_comm
  | cons m members ih =>
    obtain ⟨hfirst, hrest⟩ := List.forall_mem_cons.1 hm
    rw [List.foldlM_cons, List.foldlM_cons]
    constructor
    · intro h
      obtain ⟨next, hnext, hmore⟩ := Except.bind_eq_ok_iff.1 h
      obtain ⟨s₁, htake, rfl⟩ := (takeMember_field hfirst).1 hnext
      obtain ⟨s₂, hfold, rfl⟩ := (ih hrest).1 hmore
      exact ⟨s₂, Except.bind_eq_ok_iff.2 ⟨s₁, htake, hfold⟩, rfl⟩
    · rintro ⟨s₂, h, rfl⟩
      obtain ⟨s₁, htake, hfold⟩ := Except.bind_eq_ok_iff.1 h
      exact Except.bind_eq_ok_iff.2 ⟨(s₁, s.2), (takeMember_field hfirst).2 ⟨s₁, htake, rfl⟩,
        (ih hrest).2 ⟨s₂, hfold, rfl⟩⟩

/-- A record with one field more is read if the record without it and the value of the field are
read, wherever its member stands. -/
theorem read_field_append {before after : List (String × Json)} {v : Json} {b : β}
    (hbefore : ∀ m ∈ before, m.1 ≠ name) (hafter : ∀ m ∈ after, m.1 ≠ name) :
    (r.field name decode o o').read strict d (before ++ (name, v) :: after) = .ok b ↔
      ∃ f a, r.read strict d (before ++ after) = .ok f ∧ decode d v = .ok a ∧ b = f a := by
  -- The member in the middle is the only one with the name of the last field.
  have hfield (s₁ : r.State) :
      (r.field name decode o o').takeMember strict d (s₁, none) (name, v)
        = (decode d v).map fun a => (s₁, some a) := by
    have htake : (r.field name decode o o').take d (s₁, none) name v
        = some ((decode d v).map fun a => (s₁, some a)) := if_pos rfl
    unfold takeMember
    rw [htake]
  unfold read
  rw [List.foldlM_append, List.foldlM_append, Except.bind_eq_ok_iff]
  constructor
  · rintro ⟨s, hfold, hfinish⟩
    obtain ⟨mid, hmembers, hfold⟩ := Except.bind_eq_ok_iff.1 hfold
    obtain ⟨s₁, hfold₁, rfl⟩ := (foldlM_field hbefore).1 hmembers
    obtain ⟨taken, htaken, hfold⟩ := Except.bind_eq_ok_iff.1 hfold
    obtain ⟨a, ha, rfl⟩ := Except.map_eq_ok_iff.1 ((hfield s₁).symm.trans htaken)
    obtain ⟨s₂, hfold₂, rfl⟩ := (foldlM_field hafter).1 hfold
    obtain ⟨f, hf, hb⟩ := Except.bind_eq_ok_iff.1 hfinish
    cases hb
    refine ⟨f, a, Except.bind_eq_ok_iff.2 ⟨s₂, ?_, hf⟩, ha, rfl⟩
    exact Except.bind_eq_ok_iff.2 ⟨s₁, hfold₁, hfold₂⟩
  · rintro ⟨f, a, hread, ha, rfl⟩
    obtain ⟨s₂, hfold, hf⟩ := Except.bind_eq_ok_iff.1 hread
    obtain ⟨s₁, hfold₁, hfold₂⟩ := Except.bind_eq_ok_iff.1 hfold
    refine ⟨(s₂, some a), Except.bind_eq_ok_iff.2 ⟨(s₁, none), ?_, ?_⟩, ?_⟩
    · exact (foldlM_field hbefore).2 ⟨s₁, hfold₁, rfl⟩
    · refine Except.bind_eq_ok_iff.2 ⟨(s₁, some a), ?_, ?_⟩
      · rw [hfield, ha]
        rfl
      · exact (foldlM_field hafter).2 ⟨s₂, hfold₂, rfl⟩
    · exact Except.bind_eq_ok_iff.2 ⟨f, hf, rfl⟩

/-- The member of the last field may be the last one. -/
theorem read_field {members : List (String × Json)} {v : Json} {b : β}
    (hm : ∀ m ∈ members, m.1 ≠ name) :
    (r.field name decode o o').read strict d (members ++ [(name, v)]) = .ok b ↔
      ∃ f a, r.read strict d members = .ok f ∧ decode d v = .ok a ∧ b = f a := by
  have hnil : ∀ m ∈ ([] : List (String × Json)), m.1 ≠ name := fun _ hm => nomatch hm
  rw [read_field_append hm hnil, List.append_nil]

end Record

/-! ### Numbers -/

theorem fitsWord_of_lt {n : Nat} (h : n < UInt64.size) : Json.FitsWord n := by
  have hsize : UInt64.size = 0x10000000000000000 := rfl
  unfold Json.FitsWord
  omega

/-- A natural number that is below the bound is read back. -/
theorem natBelow_ofNat (d : Dialect) (expected : String) {n bound : Nat} (h : n < bound)
    (hfits : Json.FitsWord n) : natBelow bound expected d (Json.ofNat n) = .ok n := by
  unfold Json.ofNat Json.Number.ofInt
  rw [dif_pos hfits]
  exact if_pos ⟨Int.natCast_nonneg n, Int.ofNat_lt.2 h⟩

/-! ### Lists and tables -/

section

variable {κ α : Type} {decode : Decoder α} {write : α → Json} {d : Dialect}

/-- A list is read back if its items are. -/
theorem list_ofList {as : List α} (h : ∀ a ∈ as, decode d (write a) = .ok a) :
    list decode d (Json.ofList write as) = .ok as := by
  change (as.map write).mapM (decode d) = .ok as
  induction as with
  | nil => rfl
  | cons a as ih =>
    obtain ⟨hfirst, hrest⟩ := List.forall_mem_cons.1 h
    rw [List.map_cons, List.mapM_cons]
    exact Except.bind_eq_ok_iff.2 ⟨a, hfirst, Except.bind_eq_ok_iff.2 ⟨as, ih hrest, rfl⟩⟩

/-- A table is read as another one with the same keys, if its keys are read back and each of its
values is read as the other one. -/
theorem tableBy_ofTable_map {β : Type} [Key κ] [DecidableEq κ] {key : String → Except Fault κ}
    {name : κ → String} {decode : Decoder β} {f : α → β} {t : Table κ α}
    (hkey : ∀ k, key (name k) = .ok k)
    (h : ∀ e ∈ t.entries, decode d (write e.2) = .ok (f e.2)) :
    tableBy key decode d (Json.ofTable name write t) = .ok (t.map f) := by
  -- The entries are put into a table one after another, in their order.
  have hfold (es : List (κ × α)) (before : Table κ β)
      (h : ∀ e ∈ es, decode d (write e.2) = .ok (f e.2)) :
      (es.map fun e => (name e.1, write e.2)).foldlM
          (fun t m => do
            let k ← key m.1
            return t.insert k (← decode d m.2)) before
        = .ok ((es.map fun e => (e.1, f e.2)).foldl (fun t e => t.insert e.1 e.2) before) := by
    induction es generalizing before with
    | nil => rfl
    | cons e es ih =>
      obtain ⟨hfirst, hrest⟩ := List.forall_mem_cons.1 h
      rw [List.map_cons, List.foldlM_cons, List.map_cons, List.foldl_cons]
      refine Except.bind_eq_ok_iff.2 ⟨before.insert e.1 (f e.2), ?_, ih _ hrest⟩
      exact Except.bind_eq_ok_iff.2 ⟨e.1, hkey e.1, Except.bind_eq_ok_iff.2 ⟨f e.2, hfirst, rfl⟩⟩
  refine (hfold t.entries .empty h).trans (congrArg Except.ok ?_)
  exact (t.map f).ofList_entries

/-- A table is read back if its keys and its values are. -/
theorem tableBy_ofTable [Key κ] [DecidableEq κ] {key : String → Except Fault κ}
    {name : κ → String} {t : Table κ α} (hkey : ∀ k, key (name k) = .ok k)
    (h : ∀ e ∈ t.entries, decode d (write e.2) = .ok e.2) :
    tableBy key decode d (Json.ofTable name write t) = .ok t := by
  rw [tableBy_ofTable_map hkey (f := fun a => a) h, t.map_id]

end

end Scorecard.Decode

theorem Scorecard.Dimension.variantNamed_key (d : Dimension) :
    Decode.variantNamed variants d.key = .ok d := by
  cases d with
  | codeQuality => rfl
  | testing => rfl
  | documentation => rfl

namespace Scorecard.Json

theorem legible_ofNat {n : Nat} (h : n < UInt64.size) : (ofNat n).Legible := by
  unfold ofNat Number.ofInt
  rw [dif_pos (Decode.fitsWord_of_lt h)]
  exact Number.legible_int n _

variable {α : Type} {f : α → Json} {as : List α}

theorem legibleItems_map : LegibleItems (as.map f) ↔ ∀ a ∈ as, (f a).Legible := by
  induction as with
  | nil => simp [LegibleItems]
  | cons a as ih => rw [List.map_cons, LegibleItems, ih, List.forall_mem_cons]

theorem legibleMembers_map {name : α → String} :
    LegibleMembers (as.map fun a => (name a, f a)) ↔ ∀ a ∈ as, (f a).Legible := by
  induction as with
  | nil => simp [LegibleMembers]
  | cons a as ih => rw [List.map_cons, LegibleMembers, ih, List.forall_mem_cons]

theorem depthOfItems_map_le {n : Nat} :
    depthOfItems (as.map f) ≤ n ↔ ∀ a ∈ as, (f a).depth ≤ n := by
  induction as with
  | nil => simp [depthOfItems]
  | cons a as ih => rw [List.map_cons, depthOfItems, Nat.max_le, ih, List.forall_mem_cons]

theorem depthOfMembers_map_le {name : α → String} {n : Nat} :
    depthOfMembers (as.map fun a => (name a, f a)) ≤ n ↔ ∀ a ∈ as, (f a).depth ≤ n := by
  induction as with
  | nil => simp [depthOfMembers]
  | cons a as ih => rw [List.map_cons, depthOfMembers, Nat.max_le, ih, List.forall_mem_cons]

end Scorecard.Json
