import PropertyDelete.Proofs.Key.Canonical
import Mathlib.Data.List.Nodup
import Mathlib.Data.List.Perm.Subperm

/-!
The conversion of values to keys is a normal form of their conversion to texts. The two take
different routes through numbers, big integers, wrapped values and array-like objects, and yet on
every heap a value and its key agree in text, a key is converted to itself, and the text alone
says whether a value that names no symbol is converted to an index, and to which
(`toKey_normalizes`).

That the conversion to texts is cut off at a certain depth is no part of it: the objects whose
conversions are under way are different ones, so there are never more of them than the heap
holds, whatever the links between objects are (`text_eq_convert`).
-/
namespace PropertyDelete

theorem Key.ofString_ne_symbol (t : String) (s : Symbol) : Key.ofString t ≠ .symbol s := by
  unfold ofString ofText
  split <;> nofun

/-- Only an index key is displayed as an array index. -/
theorem Key.display_eq_text {k : Key} (hk : k.Normal) {i : Nat} (hi : i ≤ ArrayIndex.maximum) :
    k.display = Decimal.text i ↔ k = .index i := by
  cases k with
  | text t => exact storageText_eq_text hk hi
  | index j => exact storageText_eq_text hk hi
  | symbol s =>
    constructor
    · intro e
      have hm : 'S' ∈ (Decimal.text i).toList := by
        rw [← show s.display = Decimal.text i from e, Symbol.display, String.toList_ofList]
        exact List.mem_of_mem_head? s.head?_displayChars
      exact absurd hm (Decimal.not_mem_text (by decide) i)
    · intro e
      cases e

namespace Heap

variable {h : Heap}

/-! ## The depth of a conversion -/

/-- The conversions under way are of different objects, all of them on the heap. -/
structure Nesting (h : Heap) (active : List ObjectRef) : Prop where
  nodup : active.Nodup
  exist : ∀ o ∈ active, o.index < h.natives.length

namespace Nesting

variable {active : List ObjectRef}

theorem nil (h : Heap) : h.Nesting [] := ⟨List.nodup_nil, by simp⟩

theorem cons (hn : h.Nesting active) {o : ObjectRef} (ho : o.index < h.natives.length)
    (hnew : o ∉ active) : h.Nesting (o :: active) := by
  constructor
  · exact List.nodup_cons.mpr ⟨hnew, hn.nodup⟩
  · simpa [ho] using hn.exist

theorem length_le (hn : h.Nesting active) : active.length ≤ h.natives.length := by
  have hindices : (active.map ObjectRef.index).Nodup := by
    apply hn.nodup.map
    intro o p e
    by_contra hne
    exact ObjectRef.index_ne hne e
  have hsubset : active.map ObjectRef.index ⊆ List.range h.natives.length := by
    intro i hi
    obtain ⟨o, ho, rfl⟩ := List.mem_map.mp hi
    simpa using hn.exist o ho
  simpa using (hindices.subperm hsubset).length_le

end Nesting

theorem slotTexts_congr {one two : Value → List ObjectRef → String × List ObjectRef}
    {active : List ObjectRef} (hone : ∀ v, one v active = two v active)
    (hstack : ∀ v, (two v active).2 = active) (slots : List (Option Value)) :
    slotTexts one slots active = slotTexts two slots active := by
  have hslot : ∀ slot, slotText one slot active = slotText two slot active ∧
      (slotText two slot active).2 = active := by
    intro slot
    unfold slotText
    split <;> simp [hone, hstack]
  induction slots with
  | nil => rfl
  | cons slot rest ih => simp [slotTexts, (hslot slot).1, (hslot slot).2, ih]

/-- Where the bound leaves room for all objects that are not being converted, one more level
changes nothing. -/
theorem convert_succ {depth : Nat} {active : List ObjectRef} (hn : h.Nesting active)
    (hdepth : h.natives.length < depth + active.length) (v : Value) :
    h.convert (depth + 1) v active = h.convert depth v active := by
  induction depth generalizing active v with
  | zero =>
    have hle := hn.length_le
    omega
  | succ depth ih =>
    cases v with
    | object o =>
      by_cases hactive : o ∈ active
      · simp [convert, hactive]
      · by_cases ho : o.index < h.natives.length
        · have hone : ∀ v, h.convert (depth + 1) v (o :: active) =
              h.convert depth v (o :: active) := by
            apply ih (hn.cons ho hactive)
            simp
            omega
          have hslots := slotTexts_congr hone fun v => h.convert_stack depth v _
          simp [convert, hone, hslots]
        · -- nothing is below a reference to nothing
          have hobj : h.native o = {} := by
            simp [native, List.getElem?_eq_none (Nat.le_of_not_lt ho)]
          simp [convert, hobj]
    | _ => rfl

/-- The text of a value does not depend on the bound: it is that of every larger one. -/
theorem text_eq_convert {depth : Nat} (hdepth : h.natives.length < depth) (v : Value) :
    h.text v = (h.convert depth v []).1 := by
  induction hdepth with
  | refl => rfl
  | step hle ih => rw [ih, convert_succ (Nesting.nil h) hle]

/-! ## Keys -/

/-- The value that stands for a key in normal form is converted to that key. -/
theorem toKey_toValue (h : Heap) {k : Key} (hk : k.Normal) : h.toKey k.toValue = k := by
  rw [h.toKey_of_ne_object k.toValue_ne_object]
  cases k with
  | text t =>
    have hnone : ArrayIndex.ofText? t = none := hk
    simp [Key.toValue, primitiveKey, Key.ofText, hnone]
  | index i =>
    have hsome := ArrayIndex.ofText?_text hk
    simp [Key.toValue, Value.ofString, primitiveKey, Key.ofText, hsome]
  | symbol s => rfl

theorem primitiveKey_eq_symbol {v : Value} {s : Symbol} :
    primitiveKey v = .symbol s ↔ v = .symbol s := by
  cases v with
  | symbol t => simp [primitiveKey]
  | string t =>
    simp only [primitiveKey, Key.ofText]
    split <;> simp
  | number n => simp [primitiveKey, Key.ofNumber_eq_ofString, Key.ofString_ne_symbol]
  | _ => simp [primitiveKey, Key.ofString_ne_symbol]

/-- Symbols, and the objects that wrap one, are what is converted to a symbol key. -/
theorem toKey_eq_symbol {v : Value} {s : Symbol} :
    h.toKey v = .symbol s ↔
      v = .symbol s ∨ ∃ o, v = .object o ∧ (h.native o).primitive = some (.symbol s) := by
  cases v with
  | object o =>
    unfold toKey
    dsimp only
    split
    · rename_i hp
      simp [hp, Key.ofString_ne_symbol]
    · rename_i hp
      simp [hp, Key.ofString_ne_symbol]
    · rename_i p hp hsome
      simp [hsome, primitiveKey_eq_symbol]
  | _ => simp [toKey_of_ne_object, primitiveKey_eq_symbol]

theorem toKey_eq_index {v : Value} {i : Nat} :
    h.toKey v = .index i ↔ h.text v = Decimal.text i ∧ i ≤ ArrayIndex.maximum := by
  rw [← h.display_toKey v]
  constructor
  · intro e
    have hnormal := h.toKey_normal v
    rw [e] at hnormal
    rw [e]
    exact ⟨rfl, hnormal⟩
  · rintro ⟨e, hi⟩
    exact (Key.display_eq_text (h.toKey_normal v) hi).mp e

theorem toKey_eq_text {v : Value} :
    (∃ t, h.toKey v = .text t) ↔
      (∀ s, h.toKey v ≠ .symbol s) ∧ ∀ i ≤ ArrayIndex.maximum, h.text v ≠ Decimal.text i := by
  cases hk : h.toKey v with
  | text t =>
    have hno : ∀ i ≤ ArrayIndex.maximum, h.text v ≠ Decimal.text i := by
      intro i hi e
      have hindex := toKey_eq_index.mpr ⟨e, hi⟩
      simp [hk] at hindex
    simpa using hno
  | index i =>
    obtain ⟨e, hi⟩ := toKey_eq_index.mp hk
    simp only [reduceCtorEq, exists_false, ne_eq, not_false_eq_true, implies_true, true_and,
      false_iff]
    intro hno
    exact hno i hi e
  | symbol s => simp

/-- On every heap the key of a value is displayed as the text of the value, and the value that
stands for it has that key again. It is a symbol key for symbols and the objects that wrap one;
else it is an index key exactly when the text is the decimal text of an array index, and a text
key in all other cases. -/
theorem toKey_normalizes (h : Heap) (v : Value) :
    (h.toKey v).display = h.text v ∧
    h.toKey (h.toKey v).toValue = h.toKey v ∧
    (∀ s, h.toKey v = .symbol s ↔
      v = .symbol s ∨ ∃ o, v = .object o ∧ (h.native o).primitive = some (.symbol s)) ∧
    (∀ i, h.toKey v = .index i ↔ h.text v = Decimal.text i ∧ i ≤ ArrayIndex.maximum) ∧
    ((∃ t, h.toKey v = .text t) ↔
      (∀ s, h.toKey v ≠ .symbol s) ∧ ∀ i ≤ ArrayIndex.maximum, h.text v ≠ Decimal.text i) :=
  ⟨h.display_toKey v, h.toKey_toValue (h.toKey_normal v), fun _ => toKey_eq_symbol,
    fun _ => toKey_eq_index, toKey_eq_text⟩

end Heap
end PropertyDelete
