import Scorecard.Proofs.Decode
import Scorecard.Proofs.Json.Canonical

/-!
# Documents that give a value back

A document is decoded after it has been put in canonical form, which moves the members of its
objects. A decoder restores a value from a document if it reads the value in that form, and that
goes over from the parts of a document to the whole: for a record it does not matter in which order
the members stand, as long as each field has its own.

* `Decode.Decoder.Restores`: a decoder gives a value back.
* `Decode.Record.Restores`: so does a record, from members in any order.
* `Decode.Decoder.Restores.ofTree_eq`: what is restored from a document is read from every document
  with the same data.
-/

namespace Scorecard.Decode

variable {α β : Type}

/-- The decoder reads the value from the document in canonical form. -/
def Decoder.Restores (decode : Decoder α) (a : α) (v : Json) : Prop :=
  ∀ d, decode d v.canonical = .ok a

/-- The decoder reads no value from `null`, so that `null` can stand for none. -/
def Decoder.RefusesNull (decode : Decoder α) : Prop := ∀ d, ∃ fault, decode d .null = .error fault

namespace Decoder.Restores

theorem ofTree_eq {decode : Decoder α} {a : α} {v w : Json} (h : decode.Restores a v)
    (hdata : w.canonical = v.canonical) : ofTree decode w = .ok a := by
  unfold ofTree
  rw [hdata]
  exact h .tree

/-! ### Scalars -/

theorem string (s : String) : Decode.string.Restores s (.str s) := by
  intro d
  rw [Json.canonical]
  rfl

theorem boolean (b : Bool) : Decode.boolean.Restores b (.bool b) := by
  intro d
  rw [Json.canonical]
  rfl

/-- A whole number that fits is in its canonical form. -/
private theorem canonical_ofNat {n : Nat} (hfits : Json.FitsWord n) :
    (Json.ofNat n).canonical = Json.ofNat n := by
  unfold Json.ofNat Json.Number.ofInt
  rw [dif_pos hfits, Json.canonical]
  rfl

/-- A whole number below the bound is restored. -/
private theorem natBelow {n bound : Nat} (expected : String) (h : n < bound)
    (hfits : Json.FitsWord n) : (Decode.natBelow bound expected).Restores n (.ofNat n) := by
  intro d
  rw [canonical_ofNat hfits]
  exact natBelow_ofNat d expected h hfits

theorem map {decode : Decoder α} {a : α} {v : Json} (h : decode.Restores a v) (f : α → β) :
    (decode.map f).Restores (f a) v :=
  fun d => Except.map_eq_ok_iff.2 ⟨a, h d, rfl⟩

theorem count (n : UInt64) : Decode.count.Restores n (.ofUInt64 n) := by
  have hfits : Json.FitsWord n.toNat := fitsWord_of_lt n.toNat_lt
  have hnat : (Decode.natBelow UInt64.size "u64").Restores n.toNat (.ofNat n.toNat) :=
    natBelow "u64" n.toNat_lt hfits
  -- A count fits a word, so that it is written as the natural number.
  have hwritten : Json.ofUInt64 n = .ofNat n.toNat := by
    unfold Json.ofNat Json.Number.ofInt
    rw [dif_pos hfits]
    rfl
  rw [hwritten]
  have hcount := hnat.map UInt64.ofNat
  rwa [UInt64.ofNat_toNat] at hcount

theorem word (n : UInt32) : Decode.word.Restores n (.ofNat n.toNat) := by
  have hlt : n.toNat < UInt32.size := n.toNat_lt
  have hnat : (Decode.natBelow UInt32.size "u32").Restores n.toNat (.ofNat n.toNat) :=
    natBelow "u32" hlt (fitsWord_of_lt (Nat.lt_trans hlt (by decide)))
  have hword := hnat.map UInt32.ofNat
  rwa [UInt32.ofNat_toNat] at hword

/-- There is no way to write a number that is not finite. -/
theorem float {x : Float} (h : x.isFinite = true) : Decode.float.Restores x (.ofFloat x) := by
  intro d
  unfold Json.ofFloat
  rw [if_pos h, Json.canonical]
  -- A finite number is its own canonical form.
  unfold Json.Number.toJson Json.ofFloat
  simp only [h, if_true]
  rfl

theorem variant {variants : List (String × α)} {a : α} {name : String}
    (h : variantNamed variants name = .ok a) :
    (Decode.variant variants).Restores a (.str name) := by
  intro d
  rw [Json.canonical]
  cases d <;> exact h

/-! ### Compounds -/

theorem optional {decode : Decoder α} {write : α → Json} {o : Option α}
    (hnull : decode.RefusesNull) (h : ∀ a ∈ o, decode.Restores a (write a)) :
    (Decode.optional decode).Restores o (.ofOption write o) := by
  intro d
  cases o with
  | none =>
    rw [Json.ofOption, Json.canonical]
    rfl
  | some a =>
    have ha := h a rfl d
    have hread (v : Json) (hv : v ≠ .null) :
        Decode.optional decode d v = some <$> decode d v := by
      cases v with
      | null => exact absurd rfl hv
      | _ => rfl
    rw [Json.ofOption, hread, ha]
    · rfl
    · -- What stands for a value is not `null`.
      intro hcanonical
      obtain ⟨fault, hfault⟩ := hnull d
      rw [hcanonical, hfault] at ha
      exact nomatch ha

theorem list {decode : Decoder α} {write : α → Json} {as : List α}
    (h : ∀ a ∈ as, decode.Restores a (write a)) :
    (Decode.list decode).Restores as (.ofList write as) := by
  intro d
  -- Putting a list in canonical form is doing so with its items.
  have hwritten : (Json.ofList write as).canonical
      = .ofList (fun a => (write a).canonical) as := by
    unfold Json.ofList
    rw [Json.canonical, Json.canonicalItems_eq, List.map_map]
    rfl
  rw [hwritten]
  exact list_ofList fun a ha => h a ha d

end Decoder.Restores

/-! ### Records -/

namespace Record

/-- The record is read from the members in canonical form, whatever their order, and none has the
name of another. -/
structure Restores (r : Record α) (members : List (String × Json)) (a : α) : Prop where
  nodup : (members.map (·.1)).Nodup
  read : ∀ strict d ms, ms.Perm (members.map Json.canonicalMember) → r.read strict d ms = .ok a

namespace Restores

variable {r : Record (α → β)} {members : List (String × Json)} {f : α → β} {a : α}
  {value : Decoder α} {v : Json} {name : String} {o o' : Option α}

theorem make (a : α) : (Record.make a).Restores [] a := by
  refine ⟨List.nodup_nil, fun strict d ms hms => ?_⟩
  rw [List.perm_nil.1 hms]
  exact read_make a strict d

/-- One field more is read wherever its member stands among the others. -/
theorem field (h : r.Restores members f) (hname : name ∉ members.map (·.1))
    (hv : value.Restores a v) :
    (r.field name value o o').Restores (members ++ [(name, v)]) (f a) := by
  constructor
  · rw [List.map_append]
    exact List.nodup_append_comm.1 (List.nodup_cons.2 ⟨hname, h.nodup⟩)
  · intro strict d ms hms
    rw [List.map_append] at hms
    -- The member of the last field stands somewhere among the others.
    have hmem : (name, v.canonical) ∈ ms :=
      hms.mem_iff.2 (List.mem_append_right _ List.mem_cons_self)
    obtain ⟨before, after, rfl⟩ := List.append_of_mem hmem
    -- Without it the members of the other fields are left.
    have hothers : (before ++ after).Perm (members.map Json.canonicalMember) :=
      (List.perm_middle.symm.trans (hms.trans (List.perm_append_singleton _ _))).cons_inv
    have hne (m : String × Json) (hm : m ∈ before ++ after) : m.1 ≠ name := by
      rintro rfl
      obtain ⟨m', hm', rfl⟩ := List.mem_map.1 (hothers.mem_iff.1 hm)
      exact hname (List.mem_map_of_mem (f := (·.1)) hm')
    exact (read_field_append (fun m hm => hne m (List.mem_append_left _ hm))
      fun m hm => hne m (List.mem_append_right _ hm)).2
        ⟨f, a, h.read strict d _ hothers, hv d, rfl⟩

theorem required (h : r.Restores members f) (name : String) (hv : value.Restores a v)
    (hname : name ∉ members.map (·.1)) :
    (r.required name value).Restores (members ++ [(name, v)]) (f a) :=
  h.field hname hv

theorem defaulted {a' : α} (h : r.Restores members f) (name : String) (hv : value.Restores a v)
    (hname : name ∉ members.map (·.1)) :
    (r.defaulted name value a').Restores (members ++ [(name, v)]) (f a) :=
  h.field hname hv

theorem nullable {r : Record (Option α → β)} {f : Option α → β} {write : α → Json}
    (h : r.Restores members f) (name : String) (hv : ∀ a ∈ o, value.Restores a (write a))
    (hnull : value.RefusesNull) (hname : name ∉ members.map (·.1)) :
    (r.nullable name value).Restores (members ++ [(name, .ofOption write o)]) (f o) :=
  h.field hname (.optional hnull hv)

/-- A record is restored from an object that has the members of its fields. -/
theorem decode {r : Record α} {members : List (String × Json)} {a : α} (h : r.Restores members a)
    (title : String) (strict : Bool) : (r.decode title strict).Restores a (.obj members) := by
  intro d
  rw [Json.canonical, decode_obj]
  exact h.read strict d _ (Json.canonicalMembers_perm h.nodup)

end Restores

theorem refusesNull (r : Record α) (title : String) (strict : Bool) :
    (r.decode title strict).RefusesNull :=
  fun _ => ⟨_, rfl⟩

end Record

end Scorecard.Decode
