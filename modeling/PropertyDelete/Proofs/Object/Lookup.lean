import PropertyDelete.Proofs.Object.Own

/-!
Looking up a text, whatever text it is. Under a text that is not in the table of an object its length
is found or an element, and an element only under the decimal text of its index
(`ownProperty?_iff`). So the look-up of elements, which has a recogniser of its own, and the reading
of keys agree on what an index is (`recognisers_agree`).
-/
namespace PropertyDelete.NativeObject

variable {o : NativeObject} {q : String}

/-- The own property under a text that is not in the table: the length, else an element. -/
theorem ownProperty?_of_find?_eq_none (hb : o.Bounded) (hq : o.table.find? q = none) :
    o.ownProperty? q =
      if o.isArrayLike = true ∧ q = "length" then some o.lengthProperty
      else ((ArrayIndex.ofText? (Utf16.ofString q)).bind o.element?).map Descriptor.plain := by
  have hslots : (ArrayIndex.slot? q).bind (fun i => (o.element? i).map Descriptor.plain) =
      ((ArrayIndex.ofText? (Utf16.ofString q)).bind o.element?).map Descriptor.plain := by
    rw [← bind_slot? hb, Option.map_bind]
    rfl
  unfold ownProperty?
  rw [hq, hslots]
  cases ha : o.isArrayLike with
  | true => simp
  | false =>
    have hnone : o.element? = fun _ => none := funext (element?_of_not_isArrayLike ha)
    simp [hnone]

/-- What is found under a text that is not in the table is the length under its name, or the element
of a filled slot under the decimal text of its index. -/
theorem ownProperty?_iff (hb : o.Bounded) (hq : o.table.find? q = none) {d : Descriptor} :
    o.ownProperty? q = some d ↔
      (o.isArrayLike = true ∧ q = "length" ∧ d = o.lengthProperty) ∨
      ∃ i v, (q = Decimal.text i ∧ i ≤ ArrayIndex.maximum) ∧ o.element? i = some v ∧
        d = .plain v := by
  rw [ownProperty?_of_find?_eq_none hb hq]
  by_cases hlength : o.isArrayLike = true ∧ q = "length"
  · rw [if_pos hlength]
    constructor
    · intro h
      exact Or.inl ⟨hlength.1, hlength.2, (Option.some.inj h).symm⟩
    · intro h
      rcases h with ⟨-, -, hd⟩ | ⟨i, -, ⟨htext, -⟩, -⟩
      · rw [hd]
      · exact absurd (htext.symm.trans hlength.2) (Key.text_ne_length i)
  · rw [if_neg hlength, Option.map_eq_some_iff]
    constructor
    · intro h
      obtain ⟨v, hv, hd⟩ := h
      obtain ⟨i, hread, hvalue⟩ := Option.bind_eq_some_iff.mp hv
      obtain ⟨htext, hi⟩ := ArrayIndex.ofText?_eq_some_iff.mp hread
      exact Or.inr ⟨i, v, ⟨Utf16.ofString_inj.mp htext, hi⟩, hvalue, hd.symm⟩
    · intro h
      rcases h with ⟨ha, hname, -⟩ | ⟨i, v, ⟨htext, hi⟩, hvalue, hd⟩
      · exact absurd ⟨ha, hname⟩ hlength
      · refine ⟨v, ?_, hd.symm⟩
        rw [htext, ArrayIndex.ofText?_text hi]
        exact hvalue

/-- A text is recognised as an array index exactly if it is the decimal text of one, and no
accumulator of 64 bits overflows on the way; so the text under which an index key is stored reads as
that index. The recogniser of slots differs in the text of 2^32 - 1 alone. So under a text that is not
in its table an object has an element exactly if the text is that of an index and the slot of the
index is filled. -/
theorem recognisers_agree :
    (∀ (t : Utf16) (i : Nat), ArrayIndex.ofText? t = some i ↔
      t = Utf16.ofString (Decimal.text i) ∧ i ≤ ArrayIndex.maximum) ∧
    (∀ t : Utf16, ArrayIndex.ofTextInWord t = .ok (ArrayIndex.ofText? t)) ∧
    (∀ i ≤ ArrayIndex.maximum,
      ArrayIndex.ofText? (Utf16.ofString (Key.index i).storageText) = some i) ∧
    (∀ (q : String) (i : Nat), ArrayIndex.slot? q = some i ↔
      ArrayIndex.ofText? (Utf16.ofString q) = some i ∨ q = "4294967295" ∧ i = 4294967295) ∧
    (∀ o : NativeObject, o.Bounded → ∀ q, o.table.find? q = none → ∀ d,
      o.ownProperty? q = some d ↔
        (o.isArrayLike = true ∧ q = "length" ∧ d = o.lengthProperty) ∨
        ∃ i v, (q = Decimal.text i ∧ i ≤ ArrayIndex.maximum) ∧ o.element? i = some v ∧
          d = .plain v) := by
  refine ⟨?_, ArrayIndex.ofTextInWord_eq, ?_, ?_, ?_⟩
  · intro t i
    exact ArrayIndex.ofText?_eq_some_iff
  · intro i hi
    exact ArrayIndex.ofText?_text hi
  · intro q i
    exact ArrayIndex.slot?_iff_ofText?
  · intro o hb q hq d
    exact ownProperty?_iff hb hq

/-- The largest index, and an array whose second slot is a hole. -/
theorem recognisers_agree_hole :
    4294967294 ≤ ArrayIndex.maximum ∧
    ArrayIndex.ofText? (Utf16.ofString (Key.index 4294967294).storageText) = some 4294967294 ∧
    ((array [.null, .null]).punchHole 1).Bounded ∧
    ((array [.null, .null]).punchHole 1).table.find? "0" = none ∧
    ((array [.null, .null]).punchHole 1).ownProperty? "0" = some (.plain .null) := by
  have hb : ((array [.null, .null]).punchHole 1).Bounded :=
    (bounded_array (by decide)).punchHole 1
  obtain ⟨-, -, hstorage, -, helement⟩ := recognisers_agree
  have hmaximum : 4294967294 ≤ ArrayIndex.maximum := by decide
  refine ⟨hmaximum, hstorage _ hmaximum, hb, rfl, ?_⟩
  rw [helement _ hb "0" rfl]
  exact Or.inr ⟨0, .null, ⟨by decide, by decide⟩, rfl, rfl⟩

end PropertyDelete.NativeObject
