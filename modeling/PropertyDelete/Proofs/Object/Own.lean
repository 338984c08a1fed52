import PropertyDelete.Delete.Native
import PropertyDelete.Proofs.Key.Recognisers

/-!
Own properties of one native object and what a delete does to them. An array-like object keeps
properties in two places, its table and its slots, and has a length besides; `ownProperty?_eq`
says what the three amount to under the storage text of a normal key. A delete of a property
that is not there does nothing (`delete_absent`). A delete that is answered by true leaves no
property, unless the object is array-like and its table has a property under the name of a slot
or of the length (`delete_gone_iff`), which then shadows the other one or is shadowed by it.
-/
namespace PropertyDelete

theorem PropertyTable.find?_erase_self (t : PropertyTable) (key : String) :
    (t.erase key).find? key = none :=
  Dictionary.get?_erase_self t.slots key

namespace NativeObject

/-- Whether there are no more element slots than an array can have. -/
def Bounded (o : NativeObject) : Prop :=
  ∀ slots, o.elements = some slots → slots.length ≤ 2 ^ 32 - 1

/-- Deletes an own property, an element or not. -/
def delete (o : NativeObject) (key : Key) (strict : Bool) : Outcome × NativeObject :=
  if o.isArrayLike then o.deleteArrayProperty key strict else o.deleteOrdinary key strict

/-- Whether the table of an array-like object has a property under the name of the length or
of a slot. -/
def Shadowed (o : NativeObject) (key : Key) : Prop :=
  o.isArrayLike = true ∧ (o.table.find? key.storageText).isSome = true ∧
    (key.isNamed "length" = true ∨ key.index?.isSome = true)

variable {o : NativeObject} {k : Key}

theorem element?_of_not_isArrayLike (h : o.isArrayLike = false) (i : Nat) : o.element? i = none := by
  rw [isArrayLike, Option.isSome_eq_false_iff, Option.isNone_iff_eq_none] at h
  rw [element?, h]
  rfl

theorem element?_of_le (hb : o.Bounded) {i : Nat} (hi : 2 ^ 32 - 1 ≤ i) : o.element? i = none := by
  unfold element?
  cases he : o.elements with
  | none => rfl
  | some slots =>
    have hlength := hb slots he
    rw [Option.bind_some, List.getElem?_eq_none (by omega)]
    rfl

theorem bounded_array {values : List Value} (h : values.length ≤ 2 ^ 32 - 1) :
    (array values).Bounded := by
  intro slots hs
  have hslots : values.map some = slots := Option.some.inj hs
  rw [← hslots, List.length_map]
  exact h

/-! ## Look-up -/

/-- The value in the slot that a key names. -/
def slotValue? (o : NativeObject) (key : Key) : Option Value := key.index?.bind o.element?

theorem slotValue?_of_ordinary (h : o.isArrayLike = false ∨ k.index? = none) :
    o.slotValue? k = none := by
  unfold slotValue?
  cases hi : k.index? with
  | none => rfl
  | some i =>
    have ha : o.isArrayLike = false := h.resolve_right (by simp [hi])
    exact element?_of_not_isArrayLike ha i

/-- The recogniser of keys finds the same elements as that of slots: no object has a slot under the
one text on which they differ. -/
theorem bind_slot? (hb : o.Bounded) (q : String) :
    (ArrayIndex.slot? q).bind o.element? =
      (ArrayIndex.ofText? (Utf16.ofString q)).bind o.element? := by
  cases h : ArrayIndex.slot? q with
  | none =>
    cases hread : ArrayIndex.ofText? (Utf16.ofString q) with
    | none => rfl
    | some i =>
      rw [ArrayIndex.slot?_iff_ofText?.mpr (Or.inl hread)] at h
      cases h
  | some i =>
    rcases ArrayIndex.slot?_iff_ofText?.mp h with hread | ⟨hq, hi⟩
    · rw [hread]
    · have hnone : ArrayIndex.ofText? (Utf16.ofString "4294967295") = none := by decide
      rw [hq, hi, hnone, Option.bind_some, element?_of_le hb (by decide)]
      rfl

/-- A storage text names a filled slot only if it is that of the index key. -/
theorem slot?_storageText (hb : o.Bounded) (hk : k.Normal) :
    ((ArrayIndex.slot? k.storageText).bind fun i => o.element? i) = o.slotValue? k := by
  rw [bind_slot? hb, Key.ofText?_storageText hk]
  rfl

/-- The own property of a normal key: from the table, else the length, else a filled slot. -/
theorem ownProperty?_eq (hb : o.Bounded) (hk : k.Normal) :
    o.ownProperty? k.storageText =
      (o.table.find? k.storageText).or
        (if o.isArrayLike && k.isNamed "length" then some o.lengthProperty
          else (o.slotValue? k).map Descriptor.plain) := by
  unfold ownProperty?
  cases o.table.find? k.storageText with
  | some d => rfl
  | none =>
    rw [Option.none_or]
    dsimp only
    cases ha : o.isArrayLike with
    | false =>
      rw [slotValue?_of_ordinary (Or.inl ha)]
      rfl
    | true =>
      rw [Bool.true_and, Bool.not_true, if_neg Bool.false_ne_true, ← slot?_storageText hb hk]
      by_cases hl : k.storageText = "length"
      · rw [if_pos hl, if_pos (Key.storageText_eq_length.mp hl)]
      · rw [if_neg hl, if_neg (mt Key.storageText_eq_length.mpr hl), Option.map_bind]
        rfl

theorem ownProperty?_index (hb : o.Bounded) {i : Nat} (hk : (Key.index i).Normal) :
    o.ownProperty? (Key.index i).storageText =
      (o.table.find? (Key.index i).storageText).or ((o.element? i).map Descriptor.plain) := by
  have hname : (Key.index i).isNamed "length" = false := rfl
  have hvalue : o.slotValue? (Key.index i) = o.element? i := rfl
  rw [ownProperty?_eq hb hk, hname, Bool.and_false, if_neg Bool.false_ne_true, hvalue]

theorem ownProperty?_ordinary (hb : o.Bounded) (hk : k.Normal)
    (hord : o.isArrayLike = false ∨ k.index? = none) :
    o.ownProperty? k.storageText =
      (o.table.find? k.storageText).or
        (if o.isArrayLike && k.isNamed "length" then some o.lengthProperty else none) := by
  rw [ownProperty?_eq hb hk, slotValue?_of_ordinary hord, Option.map_none]

/-! ## Deletes -/

theorem element?_punchHole_self (o : NativeObject) (i : Nat) : (o.punchHole i).element? i = none := by
  unfold element? punchHole
  cases o.elements with
  | none => rfl
  | some slots =>
    show ((slots.set i none)[i]?).join = none
    rw [List.getElem?_set_self']
    cases slots[i]? <;> rfl

/-- A hole that is there already changes nothing. -/
theorem punchHole_of_hole {i : Nat} (h : o.element? i = none) : o.punchHole i = o := by
  unfold element? at h
  unfold punchHole
  cases he : o.elements with
  | none => rw [Option.map_none, ← he]
  | some slots =>
    rw [he, Option.bind_some] at h
    have hset : slots.set i none = slots := by
      cases hi : slots[i]? with
      | none => exact List.set_eq_of_length_le (List.getElem?_eq_none_iff.mp hi)
      | some slot =>
        rw [hi] at h
        obtain ⟨hlt, hslot⟩ := List.getElem?_eq_some_iff.mp hi
        have hnone : slots[i] = none := hslot.trans h
        conv => lhs; rw [← hnone]
        exact List.set_getElem_self hlt
    rw [Option.map_some, hset, ← he]

theorem Bounded.punchHole (hb : o.Bounded) (i : Nat) : (o.punchHole i).Bounded := by
  intro slots h
  obtain ⟨old, hold, rfl⟩ := Option.map_eq_some_iff.mp h
  rw [List.length_set]
  exact hb old hold

theorem Bounded.erase (hb : o.Bounded) (key : String) : (o.erase key).Bounded := hb

theorem delete_index (ha : o.isArrayLike = true) (i : Nat) (strict : Bool) :
    o.delete (.index i) strict = (.ok true, o.punchHole i) := by
  rw [delete, if_pos ha]
  rfl

theorem delete_ordinary (h : o.isArrayLike = false ∨ k.index? = none) (strict : Bool) :
    o.delete k strict = o.deleteOrdinary k strict := by
  unfold delete
  cases ha : o.isArrayLike with
  | false => rfl
  | true =>
    have hk : k.index? = none := h.resolve_left (by simp [ha])
    rw [if_pos rfl]
    cases k with
    | index i => cases hk
    | text t => rfl
    | symbol s => rfl

/-- Every delete is by an index on an array-like object, or an ordinary one. -/
theorem index_or_ordinary (o : NativeObject) (k : Key) :
    (∃ i, o.isArrayLike = true ∧ k = .index i) ∨ (o.isArrayLike = false ∨ k.index? = none) := by
  cases k with
  | index i =>
    cases ha : o.isArrayLike with
    | true => exact Or.inl ⟨i, rfl, rfl⟩
    | false => exact Or.inr (Or.inl rfl)
  | text t => exact Or.inr (Or.inr rfl)
  | symbol s => exact Or.inr (Or.inr rfl)

theorem deleteOrdinary_of_none (h : o.ownProperty? k.storageText = none) (strict : Bool) :
    o.deleteOrdinary k strict = (.ok true, o) := by
  rw [deleteOrdinary, h]

theorem deleteOrdinary_of_some {d : Descriptor} (h : o.ownProperty? k.storageText = some d)
    (strict : Bool) :
    o.deleteOrdinary k strict =
      if d.isConfigurable then (.ok true, o.erase k.storageText)
      else (.notConfigurable k strict, o) := by
  rw [deleteOrdinary, h]

/-- What a delete leaves is the object as it was, or without an entry of its table, or with a hole
for the slot that the key names. -/
theorem delete_object_cases (o : NativeObject) (k : Key) (strict : Bool) :
    (o.delete k strict).2 = o ∨ (o.delete k strict).2 = o.erase k.storageText ∨
      ∃ i, k = .index i ∧ (o.delete k strict).2 = o.punchHole i := by
  rcases o.index_or_ordinary k with ⟨i, ha, rfl⟩ | hord
  · rw [delete_index ha]
    exact Or.inr (Or.inr ⟨i, rfl, rfl⟩)
  · rw [delete_ordinary hord]
    cases hown : o.ownProperty? k.storageText with
    | none =>
      rw [deleteOrdinary_of_none hown]
      exact Or.inl rfl
    | some d =>
      rw [deleteOrdinary_of_some hown]
      split
      · exact Or.inr (Or.inl rfl)
      · exact Or.inl rfl

theorem Bounded.delete (hb : o.Bounded) (k : Key) (strict : Bool) :
    (o.delete k strict).2.Bounded := by
  rcases o.delete_object_cases k strict with h | h | ⟨i, -, h⟩ <;> rw [h]
  · exact hb
  · exact hb.erase _
  · exact hb.punchHole i

/-- A delete of a property that is not there is answered by true and changes nothing. -/
theorem delete_absent (hb : o.Bounded) (hk : k.Normal) (h : o.ownProperty? k.storageText = none)
    (strict : Bool) : o.delete k strict = (.ok true, o) := by
  rcases o.index_or_ordinary k with ⟨i, ha, rfl⟩ | hord
  · rw [ownProperty?_index hb hk, Option.or_eq_none_iff, Option.map_eq_none_iff] at h
    rw [delete_index ha, punchHole_of_hole h.2]
  · rw [delete_ordinary hord, deleteOrdinary_of_none h]

theorem isConfigurable_of_deleteOrdinary {d : Descriptor}
    (hown : o.ownProperty? k.storageText = some d) {strict : Bool}
    (h : (o.deleteOrdinary k strict).1 = .ok true) : d.isConfigurable = true := by
  rw [deleteOrdinary_of_some hown] at h
  cases hd : d.isConfigurable with
  | true => rfl
  | false =>
    rw [hd, if_neg Bool.false_ne_true] at h
    cases strict <;> cases h

/-- A length that can be deleted is one of the table. -/
theorem find?_isSome_of_length (hb : o.Bounded) (hk : k.Normal) (ha : o.isArrayLike = true)
    (hname : k.isNamed "length" = true) {d : Descriptor}
    (hown : o.ownProperty? k.storageText = some d) (hd : d.isConfigurable = true) :
    (o.table.find? k.storageText).isSome = true := by
  rw [ownProperty?_eq hb hk, ha, hname, Bool.and_self, if_pos rfl] at hown
  cases ht : o.table.find? k.storageText with
  | some e => rfl
  | none =>
    rw [ht, Option.none_or] at hown
    cases hown
    cases hd

/-- What an ordinary delete that is answered by true can leave is the length. -/
theorem deleteOrdinary_gone_iff (hb : o.Bounded) (hk : k.Normal)
    (hord : o.isArrayLike = false ∨ k.index? = none) {strict : Bool}
    (h : (o.deleteOrdinary k strict).1 = .ok true) :
    (o.deleteOrdinary k strict).2.ownProperty? k.storageText = none ↔ ¬ o.Shadowed k := by
  cases hown : o.ownProperty? k.storageText with
  | none =>
    rw [deleteOrdinary_of_none hown]
    refine ⟨fun _ hs => ?_, fun _ => hown⟩
    rw [ownProperty?_eq hb hk, Option.or_eq_none_iff] at hown
    have hsome := hs.2.1
    rw [hown.1] at hsome
    cases hsome
  | some d =>
    have hd := isConfigurable_of_deleteOrdinary hown h
    have herased : (o.erase k.storageText).ownProperty? k.storageText =
        if o.isArrayLike && k.isNamed "length" then some o.lengthProperty else none := by
      have hnone := o.table.find?_erase_self k.storageText
      rw [ownProperty?_ordinary (hb.erase _) hk hord,
        show (o.erase k.storageText).table.find? k.storageText = none from hnone, Option.none_or]
      rfl
    rw [deleteOrdinary_of_some hown, if_pos hd, herased]
    constructor
    · rintro hnone ⟨ha, -, hname | hindex⟩
      · rw [ha, hname, Bool.and_self, if_pos rfl] at hnone
        cases hnone
      · have hno : k.index? = none := hord.resolve_left (by simp [ha])
        rw [hno] at hindex
        cases hindex
    · intro hclear
      apply if_neg
      intro hlength
      obtain ⟨ha, hname⟩ := Bool.and_eq_true_iff.mp hlength
      exact hclear ⟨ha, find?_isSome_of_length hb hk ha hname hown hd, Or.inl hname⟩

/-- After a delete that is answered by true the property is gone, unless it was shadowed. -/
theorem delete_gone_iff (hb : o.Bounded) (hk : k.Normal) {strict : Bool}
    (h : (o.delete k strict).1 = .ok true) :
    (o.delete k strict).2.ownProperty? k.storageText = none ↔ ¬ o.Shadowed k := by
  rcases o.index_or_ordinary k with ⟨i, ha, rfl⟩ | hord
  · -- the slot is a hole now, so what is left is in the table
    have hleft : (o.punchHole i).ownProperty? (Key.index i).storageText =
        o.table.find? (Key.index i).storageText := by
      rw [ownProperty?_index (hb.punchHole i) hk, element?_punchHole_self, Option.map_none,
        Option.or_none]
      rfl
    rw [delete_index ha, hleft, ← Option.not_isSome_iff_eq_none]
    exact not_congr ⟨fun hs => ⟨ha, hs, Or.inr rfl⟩, fun hs => hs.2.1⟩
  · rw [delete_ordinary hord] at h ⊢
    exact deleteOrdinary_gone_iff hb hk hord h

end NativeObject
end PropertyDelete
