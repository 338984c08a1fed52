import PropertyDelete.Heap.Text
import PropertyDelete.Proofs.Text.Conventions

/-!
Normal keys. A text that reads as an array index is never kept as a text key, and the key of
every value is in that form (`toKey_normal`), numbers included: they are not read from their
text, but name the key that the text names (`ofNumber_eq_ofString`). So an index key shares its
storage text with no other key (`storageText_eq_text`), and the storage text `length` belongs to
the text key of that name alone (`storageText_eq_length`).
-/
namespace PropertyDelete

namespace Key

/-- Whether a key is in normal form: an index is in range, and a text is not one. -/
def Normal : Key → Prop
  | .text t => ArrayIndex.ofText? t = none
  | .index i => i ≤ ArrayIndex.maximum
  | .symbol _ => True

theorem ofText_normal (t : Utf16) : (ofText t).Normal := by
  unfold ofText
  cases h : ArrayIndex.ofText? t with
  | none => exact h
  | some i => exact (ArrayIndex.of_ofText? h).2.2

theorem ofString_normal (s : String) : (ofString s).Normal := ofText_normal _

/-- A number names the key that its text names, although it is not read from its text. -/
theorem ofNumber_eq_ofString (n : Number) : ofNumber n = ofString n.text := by
  unfold ofString ofText
  cases h : ArrayIndex.ofText? (Utf16.ofString n.text) with
  | some i =>
    have hi := (ArrayIndex.of_ofText? h).2.2
    simp [ofNumber, Number.writing_text.integer?_of_index h, hi]
  | none =>
    -- a number that is an array index would be written as one
    have hno : ∀ i : Nat, n.integer? = some (i : Int) → ¬ i ≤ ArrayIndex.maximum := by
      intro i hi hle
      have hmax : i ≤ 2 ^ 32 - 2 := hle
      have htext : n.text = Decimal.text i :=
        Number.writing_text.integer (Number.value?_eq_intCast_iff.mpr hi) (by simp; omega)
      rw [htext, ArrayIndex.ofText?_text hle] at h
      cases h
    unfold ofNumber
    split
    · rename_i i hi
      rw [if_neg (hno i hi)]
    · rfl

end Key

namespace Heap

/-- A value that is no native object names the same key on every heap. -/
theorem toKey_of_ne_object (h : Heap) {v : Value} (hv : ∀ o, v ≠ .object o) :
    h.toKey v = primitiveKey v := by
  cases v with
  | object o => exact absurd rfl (hv o)
  | _ =>
    rw [toKey]
    exact hv

theorem primitiveKey_normal (v : Value) : (primitiveKey v).Normal := by
  unfold primitiveKey
  split
  · exact Key.ofText_normal _
  · trivial
  · rw [Key.ofNumber_eq_ofString]
    exact Key.ofString_normal _
  · exact Key.ofString_normal _

/-- The key of every value is in normal form. -/
theorem toKey_normal (h : Heap) (v : Value) : (h.toKey v).Normal := by
  unfold toKey
  split
  · split
    · exact Key.ofString_normal _
    · exact Key.ofString_normal _
    · exact primitiveKey_normal _
  · exact primitiveKey_normal _

end Heap

/-! ## Storage texts -/

theorem Symbol.head?_displayChars (s : Symbol) : s.displayChars.head? = some 'S' := by
  have hfirst : "Symbol(".toList.head? = some 'S' := by decide
  unfold displayChars
  rw [List.append_assoc, List.head?_append, hfirst, Option.some_or]

theorem Symbol.head?_storageText (s : Symbol) : s.storageText.toList.head? = some 'S' := by
  unfold storageText
  split
  · rw [display, String.toList_ofList, head?_displayChars]
  · rw [String.toList_ofList, List.head?_append, head?_displayChars, Option.some_or]

namespace Key

theorem storageText_symbol_ne_text (s : Symbol) (i : Nat) :
    (Key.symbol s).storageText ≠ Decimal.text i := by
  intro e
  have hm : 'S' ∈ (Decimal.text i).toList := by
    rw [← e]
    exact List.mem_of_mem_head? s.head?_storageText
  exact Decimal.not_mem_text (by decide) i hm

/-- An index key is the only one stored under its text. -/
theorem storageText_eq_text {k : Key} (hk : k.Normal) {i : Nat} (hi : i ≤ ArrayIndex.maximum) :
    k.storageText = Decimal.text i ↔ k = .index i := by
  constructor
  · intro e
    cases k with
    | text t =>
      have ht : t = Utf16.ofString (Decimal.text i) :=
        (Utf16.toString_eq_iff (Decimal.not_mem_text (by decide) i)).mp e
      have hnone : ArrayIndex.ofText? t = none := hk
      rw [ht, ArrayIndex.ofText?_text hi] at hnone
      cases hnone
    | index j => rw [Decimal.text_injective e]
    | symbol s => exact absurd e (storageText_symbol_ne_text s i)
  · rintro rfl
    rfl

theorem text_ne_length (i : Nat) : Decimal.text i ≠ "length" := by
  intro e
  have hm : 'l' ∈ (Decimal.text i).toList := by
    rw [e]
    decide
  exact Decimal.not_mem_text (by decide) i hm

/-- Only the text key `length` is stored under that text. -/
theorem storageText_eq_length {k : Key} : k.storageText = "length" ↔ k.isNamed "length" = true := by
  cases k with
  | text t =>
    show t.toString = "length" ↔ (t == Utf16.ofString "length") = true
    rw [Utf16.toString_eq_iff (by decide), beq_iff_eq]
  | index i =>
    constructor
    · intro e
      exact absurd e (text_ne_length i)
    · intro e
      cases e
  | symbol s =>
    constructor
    · intro e
      have hhead := s.head?_storageText
      rw [show s.storageText = "length" from e] at hhead
      exact absurd hhead (by decide)
    · intro e
      cases e

end Key
end PropertyDelete
