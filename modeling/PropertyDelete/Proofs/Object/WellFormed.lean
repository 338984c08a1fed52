import PropertyDelete.Proofs.Object.Own

/-!
Well-formed objects: an object with element slots keeps neither its length nor an element in
its table as well. Their own properties fall in two kinds, those that can be removed and those
that are fixed (`hasOwnProperty_iff`), and a delete does to each kind what it should
(`delete_removable`, `delete_fixed`).
-/
namespace PropertyDelete.NativeObject

/-- Whether an object with element slots has no more than an array can have, and no property
named like its length or like an element in its table. -/
def WellFormed (o : NativeObject) : Prop :=
  ∀ slots, o.elements = some slots →
    slots.length ≤ 2 ^ 32 - 1 ∧ o.table.find? "length" = none ∧
      ∀ i ≤ ArrayIndex.maximum, o.table.find? (Decimal.text i) = none

/-- Whether a key denotes an own property that may be removed: one of the table that is not
marked as not configurable, or a filled slot. -/
def Removable (o : NativeObject) (key : Key) : Prop :=
  (∃ d, o.table.find? key.storageText = some d ∧ d.configurable ≠ some false) ∨
    ∃ i v, key = .index i ∧ o.element? i = some v

/-- Whether a key denotes an own property that may not be removed: one of the table that is
marked as not configurable, or the length of the slots. -/
def Fixed (o : NativeObject) (key : Key) : Prop :=
  (∃ d, o.table.find? key.storageText = some d ∧ d.configurable = some false) ∨
    o.isArrayLike = true ∧ key.isNamed "length" = true

variable {o : NativeObject} {k : Key}

theorem WellFormed.bounded (hwf : o.WellFormed) : o.Bounded := fun slots h => (hwf slots h).1

theorem exists_elements (h : o.isArrayLike = true) : ∃ slots, o.elements = some slots :=
  Option.isSome_iff_exists.mp h

theorem wellFormed_array {values : List Value} (h : values.length ≤ 2 ^ 32 - 1) :
    (array values).WellFormed := by
  intro slots hs
  exact ⟨bounded_array h slots hs, rfl, fun i _ => rfl⟩

/-- The table of a well-formed object with slots has nothing under the names of the slots and
of the length. -/
theorem WellFormed.find?_eq_none (hwf : o.WellFormed) (hk : k.Normal) (ha : o.isArrayLike = true)
    (h : k.isNamed "length" = true ∨ k.index?.isSome = true) :
    o.table.find? k.storageText = none := by
  obtain ⟨slots, hs⟩ := exists_elements ha
  obtain ⟨-, hlength, hindex⟩ := hwf slots hs
  rcases h with hname | hsome
  · rw [Key.storageText_eq_length.mpr hname]
    exact hlength
  · cases k with
    | index i => exact hindex i hk
    | text t => cases hsome
    | symbol s => cases hsome

theorem WellFormed.not_shadowed (hwf : o.WellFormed) (hk : k.Normal) : ¬ o.Shadowed k := by
  rintro ⟨ha, hsome, h⟩
  rw [hwf.find?_eq_none hk ha h] at hsome
  cases hsome

theorem isArrayLike_of_element? {i : Nat} {v : Value} (h : o.element? i = some v) :
    o.isArrayLike = true := by
  cases ha : o.isArrayLike with
  | true => rfl
  | false =>
    rw [element?_of_not_isArrayLike ha] at h
    cases h

theorem ownProperty?_of_find? {key : String} {d : Descriptor} (h : o.table.find? key = some d) :
    o.ownProperty? key = some d := by
  rw [ownProperty?, h]

theorem ownProperty?_of_element? (hwf : o.WellFormed) {i : Nat} (hk : (Key.index i).Normal)
    {v : Value} (h : o.element? i = some v) :
    o.ownProperty? (Key.index i).storageText = some (.plain v) := by
  have ha := isArrayLike_of_element? h
  rw [ownProperty?_index hwf.bounded hk, hwf.find?_eq_none hk ha (Or.inr rfl), h]
  rfl

theorem ownProperty?_of_length (hwf : o.WellFormed) (hk : k.Normal) (ha : o.isArrayLike = true)
    (hname : k.isNamed "length" = true) :
    o.ownProperty? k.storageText = some o.lengthProperty := by
  rw [ownProperty?_eq hwf.bounded hk, hwf.find?_eq_none hk ha (Or.inl hname), Option.none_or,
    ha, hname]
  rfl

/-- A descriptor counts as configurable unless it says that it is not. -/
theorem isConfigurable_iff {d : Descriptor} : d.isConfigurable = true ↔ d.configurable ≠ some false := by
  rw [Descriptor.isConfigurable, bne_iff_ne]

theorem ownProperty?_of_removable (hwf : o.WellFormed) (hk : k.Normal) (h : o.Removable k) :
    ∃ d, o.ownProperty? k.storageText = some d ∧ d.isConfigurable = true := by
  rcases h with ⟨d, hd, hc⟩ | ⟨i, v, rfl, hv⟩
  · exact ⟨d, ownProperty?_of_find? hd, isConfigurable_iff.mpr hc⟩
  · exact ⟨.plain v, ownProperty?_of_element? hwf hk hv, rfl⟩

theorem ownProperty?_of_fixed (hwf : o.WellFormed) (hk : k.Normal) (h : o.Fixed k) :
    ∃ d, o.ownProperty? k.storageText = some d ∧ d.isConfigurable = false := by
  rcases h with ⟨d, hd, hc⟩ | ⟨ha, hname⟩
  · refine ⟨d, ownProperty?_of_find? hd, ?_⟩
    rw [Bool.eq_false_iff, Ne, isConfigurable_iff]
    exact fun hn => hn hc
  · exact ⟨o.lengthProperty, ownProperty?_of_length hwf hk ha hname, rfl⟩

/-- An own property is removable or fixed. -/
theorem hasOwnProperty_iff (hwf : o.WellFormed) (hk : k.Normal) :
    o.hasOwnProperty k.storageText = true ↔ o.Removable k ∨ o.Fixed k := by
  unfold hasOwnProperty
  constructor
  · intro h
    cases hd : o.table.find? k.storageText with
    | some d =>
      by_cases hc : d.configurable = some false
      · exact Or.inr (Or.inl ⟨d, hd, hc⟩)
      · exact Or.inl (Or.inl ⟨d, hd, hc⟩)
    | none =>
      rw [ownProperty?_eq hwf.bounded hk, hd, Option.none_or] at h
      cases hl : o.isArrayLike && k.isNamed "length" with
      | true =>
        rw [Bool.and_eq_true] at hl
        exact Or.inr (Or.inr hl)
      | false =>
        rw [hl, if_neg Bool.false_ne_true, Option.isSome_map] at h
        obtain ⟨v, hv⟩ := Option.isSome_iff_exists.mp h
        obtain ⟨i, hi, hv⟩ := Option.bind_eq_some_iff.mp hv
        cases k with
        | index j =>
          cases hi
          exact Or.inl (Or.inr ⟨i, v, rfl, hv⟩)
        | text t => cases hi
        | symbol s => cases hi
  · rintro (h | h)
    · obtain ⟨d, hd, -⟩ := ownProperty?_of_removable hwf hk h
      rw [hd]
      rfl
    · obtain ⟨d, hd, -⟩ := ownProperty?_of_fixed hwf hk h
      rw [hd]
      rfl

/-- A delete of a removable property is answered by true and removes it. -/
theorem delete_removable (hwf : o.WellFormed) (hk : k.Normal) (h : o.Removable k)
    (strict : Bool) :
    (o.delete k strict).1 = .ok true ∧
      (o.delete k strict).2.hasOwnProperty k.storageText = false := by
  have htrue : (o.delete k strict).1 = .ok true := by
    rcases o.index_or_ordinary k with ⟨i, ha, rfl⟩ | hord
    · rw [delete_index ha]
    · obtain ⟨d, hd, hc⟩ := ownProperty?_of_removable hwf hk h
      rw [delete_ordinary hord, deleteOrdinary_of_some hd, if_pos hc]
  refine ⟨htrue, ?_⟩
  rw [hasOwnProperty, (delete_gone_iff hwf.bounded hk htrue).mpr (hwf.not_shadowed hk)]
  rfl

/-- A delete of a fixed property is refused and changes nothing. -/
theorem delete_fixed (hwf : o.WellFormed) (hk : k.Normal) (h : o.Fixed k) (strict : Bool) :
    o.delete k strict = (.notConfigurable k strict, o) := by
  rcases o.index_or_ordinary k with ⟨i, ha, rfl⟩ | hord
  · -- no element is fixed
    have hnone := hwf.find?_eq_none hk ha (Or.inr rfl)
    rcases h with ⟨d, hd, -⟩ | ⟨-, hname⟩
    · rw [hnone] at hd
      cases hd
    · cases hname
  · obtain ⟨d, hd, hc⟩ := ownProperty?_of_fixed hwf hk h
    rw [delete_ordinary hord, deleteOrdinary_of_some hd, hc, if_neg Bool.false_ne_true]

end PropertyDelete.NativeObject
