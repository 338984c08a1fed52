import PropertyDelete.Proofs.Object.Commutation

/-!
What a delete leaves of the object that it is made on. Whatever its table and its slots hold, and
whatever the answer is, the object is the old one but for what the key names (`delete_framed`): an
entry of the table under the storage text of the key, or one element slot, which is emptied. The
two stores do not touch each other's look-ups, since no other text names that slot.
-/
namespace PropertyDelete.NativeObject

/-- The slot of a number, if the object has it; it may hold nothing. -/
def slot? (o : NativeObject) (i : Nat) : Option (Option Value) := o.elements.bind (·[i]?)

/-- Whether an object is an earlier one but for what a key names. -/
structure Framed (k : Key) (o o' : NativeObject) : Prop where
  className : o'.className = o.className
  prototype : o'.prototype = o.prototype
  primitive : o'.primitive = o.primitive
  isArrayLike : o'.isArrayLike = o.isArrayLike
  length : o'.length = o.length
  own : ∀ name, name ≠ k.storageText → o'.ownProperty? name = o.ownProperty? name
  /-- A slot that is not as it was is the one that the key names: it was filled, and is a hole. -/
  slot : ∀ i, o'.slot? i = o.slot? i ∨
    k = .index i ∧ (∃ v, o.slot? i = some (some v)) ∧ o'.slot? i = some none
  order : o'.table.order = o.table.order ∨
    o'.table.order = o.table.order.filter (· ≠ k.storageText)

variable (o : NativeObject) (k : Key)

theorem Framed.refl : Framed k o o where
  className := rfl
  prototype := rfl
  primitive := rfl
  isArrayLike := rfl
  length := rfl
  own _ _ := rfl
  slot _ := Or.inl rfl
  order := Or.inl rfl

/-- What is found under a name depends on the table, the length and the slot of that name. -/
theorem ownProperty?_congr {o o' : NativeObject} {name : String}
    (htable : o'.table.find? name = o.table.find? name) (harray : o'.isArrayLike = o.isArrayLike)
    (hlength : o'.length = o.length)
    (hslot : ∀ i, ArrayIndex.slot? name = some i → o'.element? i = o.element? i) :
    o'.ownProperty? name = o.ownProperty? name := by
  have hvalue : ((ArrayIndex.slot? name).bind fun i => (o'.element? i).map Descriptor.plain) =
      (ArrayIndex.slot? name).bind fun i => (o.element? i).map Descriptor.plain := by
    cases hi : ArrayIndex.slot? name with
    | none => rfl
    | some i => rw [Option.bind_some, Option.bind_some, hslot i hi]
  unfold ownProperty? lengthProperty
  rw [htable, harray, hlength, hvalue]

theorem erase_framed : Framed k o (o.erase k.storageText) where
  className := rfl
  prototype := rfl
  primitive := rfl
  isArrayLike := rfl
  length := rfl
  own _ hname :=
    ownProperty?_congr (o.table.find?_erase_of_ne hname) rfl rfl fun _ _ => rfl
  slot _ := Or.inl rfl
  order := by
    show (if _ then _ else _) = _ ∨ (if _ then _ else _) = _
    split
    · exact Or.inr rfl
    · exact Or.inl rfl

section PunchHole

variable (i : Nat)

theorem length_punchHole : (o.punchHole i).length = o.length := by
  unfold length punchHole
  cases o.elements with
  | none => rfl
  | some slots => simp

theorem slot?_punchHole_of_ne {j : Nat} (hj : j ≠ i) : (o.punchHole i).slot? j = o.slot? j := by
  unfold slot? punchHole
  cases o.elements with
  | none => rfl
  | some slots => exact List.getElem?_set_ne (Ne.symm hj)

theorem slot?_punchHole_self : (o.punchHole i).slot? i = (o.slot? i).map fun _ => none := by
  unfold slot? punchHole
  cases o.elements with
  | none => rfl
  | some slots => exact List.getElem?_set_self'

theorem element?_eq_slot? : o.element? i = (o.slot? i).join := by
  unfold element? slot?
  cases o.elements <;> rfl

theorem punchHole_framed : Framed (.index i) o (o.punchHole i) where
  className := rfl
  prototype := rfl
  primitive := rfl
  isArrayLike := o.isArrayLike_punchHole i
  length := o.length_punchHole i
  own name hname := by
    have htable : (o.punchHole i).table.find? name = o.table.find? name := rfl
    apply ownProperty?_congr htable (o.isArrayLike_punchHole i) (o.length_punchHole i)
    intro j hj
    -- the text of the slot that is emptied is the one that is left out
    have hne : j ≠ i := by
      rintro rfl
      exact hname (ArrayIndex.slot?_eq_some_iff.mp hj).1
    rw [element?_eq_slot?, element?_eq_slot?, o.slot?_punchHole_of_ne i hne]
  slot j := by
    by_cases hj : j = i
    · subst hj
      rw [slot?_punchHole_self]
      cases hslot : o.slot? j with
      | none => exact Or.inl rfl
      | some slot =>
        cases slot with
        | none => exact Or.inl rfl
        | some v => exact Or.inr ⟨rfl, ⟨v, rfl⟩, rfl⟩
    · exact Or.inl (o.slot?_punchHole_of_ne i hj)
  order := Or.inl rfl

end PunchHole

/-- A delete leaves an object as it was but for what the key names. -/
theorem delete_framed (strict : Bool) : Framed k o (o.delete k strict).2 := by
  rcases o.delete_object_cases k strict with h | h | ⟨i, rfl, h⟩ <;> rw [h]
  · exact .refl o k
  · exact o.erase_framed k
  · exact o.punchHole_framed i

end PropertyDelete.NativeObject
