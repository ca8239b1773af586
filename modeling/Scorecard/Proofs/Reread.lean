import Scorecard.Proofs.Decode

/-!
# Reading what has been printed

Of the text of a document the same document is read, but for its numbers. So a decoder reads from
the text what it reads from that document, and that goes over from the parts of a document to the
whole. Strings, sizes and names come back as they are, whatever stands in them. A finite binary64
number comes back as some number, which need not be the same.

* `Json.rereadFloat`: the number that is read where one has been printed.
* `Decode.Decoder.Rereads`: a decoder reads a value from what is read of a document.
* `Decode.Record.Rereads`: so does a record, each field from a member of its own.
* `Decode.Decoder.Rereads.ofText_pretty`, `Decode.ofText_ofFloat`: what is read from a text.
-/

namespace Scorecard.Json

/-- The number that is read where a finite one has been printed. -/
def rereadFloat (x : Float) : Float :=
  match (Number.real x).reread with
  | .num n => n.toFloat
  | _ => x

/-- What is read of the text of a member. -/
def rereadMember (m : String × Json) : String × Json := (m.1, m.2.reread)

theorem rereadItems_eq (items : List Json) : rereadItems items = items.map reread := by
  induction items with
  | nil => rfl
  | cons v items ih => rw [rereadItems, ih, List.map_cons]

theorem rereadMembers_eq (members : List (String × Json)) :
    rereadMembers members = members.map rereadMember := by
  induction members with
  | nil => rfl
  | cons m members ih => rw [rereadMembers, ih, List.map_cons, rereadMember]

theorem reread_ofList {α : Type} (write : α → Json) (as : List α) :
    (ofList write as).reread = ofList (fun a => (write a).reread) as := by
  unfold ofList
  rw [reread, rereadItems_eq, List.map_map]
  rfl

theorem reread_ofTable {κ α : Type} [Key κ] (name : κ → String) (write : α → Json)
    (t : Table κ α) :
    (ofTable name write t).reread = ofTable name (fun a => (write a).reread) t := by
  unfold ofTable
  rw [reread, rereadMembers_eq, List.map_map]
  rfl

end Scorecard.Json

namespace Scorecard.Decode

variable {α β κ : Type}

/-- The decoder reads the value from what is read of the document. -/
def Decoder.Rereads (decode : Decoder α) (a : α) (v : Json) : Prop :=
  ∀ d, decode d v.reread = .ok a

namespace Decoder.Rereads

/-- From the text of a document that is not nested too deeply the value is read. -/
theorem ofText_pretty {decode : Decoder α} {a : α} {v : Json} (h : decode.Rereads a v)
    (hdepth : v.depth ≤ Json.maxDepth) : ofText decode v.pretty = .ok a := by
  -- A document that is too deep would not be parsed.
  rw [ofText_of_parse? decode (Json.parse?_pretty hdepth)]
  exact Except.mapError_eq_ok_iff.2 (h .text)

/-! ### Scalars -/

theorem string (s : String) : Decode.string.Rereads s (.str s) := fun _ => rfl

theorem variant {variants : List (String × α)} {a : α} {name : String}
    (h : variantNamed variants name = .ok a) :
    (Decode.variant variants).Rereads a (.str name) := by
  intro d
  cases d <;> exact h

theorem size {n : Nat} (h : n < UInt64.size) : Decode.size.Rereads n (.ofNat n) := by
  intro d
  -- Whole numbers are printed with all their digits, and are read as they were.
  rw [Json.reread_eq_self _ (Json.legible_ofNat h)]
  exact natBelow_ofNat d "usize" h (fitsWord_of_lt h)

/-- Some number is read wherever a finite one has been printed. -/
theorem float {x : Float} (h : x.isFinite = true) :
    Decode.float.Rereads (Json.rereadFloat x) (.ofFloat x) := by
  -- Which number is read is not known here, only that one is.
  obtain ⟨n, hn⟩ := Json.Number.exists_readAs_real h
  have hreread : (Json.Number.real x).reread = .num n := Json.Number.reread_of_readAs hn
  intro d
  unfold Json.ofFloat Json.rereadFloat
  rw [if_pos h, Json.reread, hreread]
  rfl

end Decoder.Rereads

/-- The number that is read of the text of a finite one alone. -/
theorem ofText_ofFloat {x : Float} (h : x.isFinite = true) :
    ofText float (Json.ofFloat x).pretty = .ok (Json.rereadFloat x) := by
  refine (Decoder.Rereads.float h).ofText_pretty ?_
  unfold Json.ofFloat
  rw [if_pos h]
  exact Nat.zero_le _

namespace Decoder.Rereads

/-! ### Compounds -/

theorem list {decode : Decoder α} {write : α → Json} {as : List α}
    (h : ∀ a ∈ as, decode.Rereads a (write a)) :
    (Decode.list decode).Rereads as (.ofList write as) := by
  intro d
  rw [Json.reread_ofList]
  exact list_ofList fun a ha => h a ha d

theorem tableBy [Key κ] [DecidableEq κ] {key : String → Except Fault κ} {name : κ → String}
    {decode : Decoder β} {write : α → Json} {f : α → β} {t : Table κ α}
    (hkey : ∀ k, key (name k) = .ok k) (h : ∀ e ∈ t.entries, decode.Rereads (f e.2) (write e.2)) :
    (Decode.tableBy key decode).Rereads (t.map f) (.ofTable name write t) := by
  intro d
  rw [Json.reread_ofTable]
  exact tableBy_ofTable_map hkey fun e he => h e he d

end Decoder.Rereads

/-! ### Records -/

namespace Record

/-- The record is read from what is read of the members. -/
def Rereads (r : Record α) (members : List (String × Json)) (a : α) : Prop :=
  ∀ strict d, r.read strict d (members.map Json.rereadMember) = .ok a

namespace Rereads

theorem make (a : α) : (Record.make a).Rereads [] a := fun strict d => read_make a strict d

/-- One field more is read from a member behind the others. -/
theorem required {r : Record (α → β)} {members : List (String × Json)} {f : α → β}
    {value : Decoder α} {a : α} {v : Json} (h : r.Rereads members f) (name : String)
    (hv : value.Rereads a v) (hname : name ∉ members.map (·.1)) :
    (r.required name value).Rereads (members ++ [(name, v)]) (f a) := by
  intro strict d
  -- The names of the members are read as they stand, so that the new one is still new.
  have hothers : ∀ m ∈ members.map Json.rereadMember, m.1 ≠ name := by
    intro m hm heq
    obtain ⟨m', hm', rfl⟩ := List.mem_map.1 hm
    exact hname (List.mem_map.2 ⟨m', hm', heq⟩)
  rw [List.map_append]
  exact (read_field hothers).2 ⟨f, a, h strict d, hv d, rfl⟩

/-- A record is read from an object that has the members of its fields. -/
theorem decode {r : Record α} {members : List (String × Json)} {a : α} (h : r.Rereads members a)
    (title : String) (strict : Bool) : (r.decode title strict).Rereads a (.obj members) := by
  intro d
  rw [Json.reread, Json.rereadMembers_eq, decode_obj]
  exact h strict d

end Rereads

end Record

end Scorecard.Decode
