import PropertyDelete.Proofs.Key.Normal

/-!
One text for each key. A text that reads as an array index is the decimal text of that index and
nothing else (`eq_text_of_ofText?`). So nothing is lost between a value and its key: on every
heap the key of a value is displayed as the text of the value (`display_toKey`), and the value
that stands for the key has that text as well (`text_toKey`).
-/
namespace PropertyDelete

namespace ArrayIndex

/-- The code unit of a character of the decimal texts. -/
def unit (c : Char) : UInt16 := UInt16.ofNat c.toNat

theorem unitDigit?_eq_some {u : UInt16} {d : Nat} (h : unitDigit? u = some d) :
    d < 10 ∧ u = unit d.digitChar ∧ (u ≠ 0x30 → 0 < d) := by
  unfold unitDigit? at h
  split at h
  · rename_i hu
    have hlow : 48 ≤ u.toNat := UInt16.le_iff_toNat_le.mp hu.1
    have hhigh : u.toNat ≤ 57 := UInt16.le_iff_toNat_le.mp hu.2
    have hd : u.toNat - 48 = d := Option.some.inj h
    have hlt : d < 10 := by omega
    have hchar : d.digitChar.toNat = u.toNat := by
      rw [Nat.toNat_digitChar_of_lt_ten hlt]
      omega
    refine ⟨hlt, ?_, fun hne => ?_⟩
    · rw [unit, hchar, UInt16.ofNat_toNat]
    · have hzero : u.toNat ≠ 48 := fun e => hne (UInt16.toNat_inj.mp e)
      omega
  · cases h

/-- Units that extend a number other than zero are the last digits of the result. -/
theorem units_of_extend? {us : List UInt16} {acc i : Nat} (hacc : 0 < acc)
    (h : extend? us acc = some i) :
    (Decimal.digits acc).map unit ++ us = (Decimal.digits i).map unit := by
  induction us generalizing acc with
  | nil =>
    rw [extend?, Option.some.injEq] at h
    rw [h, List.append_nil]
  | cons u rest ih =>
    obtain ⟨d, hd, hrest⟩ := Option.bind_eq_some_iff.mp h
    obtain ⟨hlt, hu, -⟩ := unitDigit?_eq_some hd
    have hnext : Decimal.digits (acc * 10 + d) = Decimal.digits acc ++ [d.digitChar] := by
      rw [Decimal.digits, Nat.mul_comm, ← Nat.toDigits_append_toDigits (by decide) hacc hlt,
        Nat.toDigits_of_lt_base hlt]
      rfl
    rw [← ih (by omega) hrest, hnext, List.map_append, List.append_assoc, hu]
    rfl

/-- A text that reads as an array index is the decimal text of it. -/
theorem eq_text_of_ofText? {t : Utf16} {i : Nat} (h : ofText? t = some i) :
    t = Utf16.ofString (Decimal.text i) := by
  obtain ⟨hempty, hread, -⟩ := of_ofText? h
  obtain ⟨us⟩ := t
  suffices us = (Decimal.digits i).map unit by
    rw [this]
    exact congrArg Utf16.mk (units_text i).symm
  cases us with
  | nil => cases hempty
  | cons u rest =>
    obtain ⟨d, hd, hrest⟩ := Option.bind_eq_some_iff.mp hread
    obtain ⟨hlt, hu, hpos⟩ := unitDigit?_eq_some hd
    have hone : Decimal.digits d = [d.digitChar] := Nat.toDigits_of_lt_base hlt
    rw [Nat.zero_mul, Nat.zero_add] at hrest
    cases rest with
    | nil =>
      rw [extend?, Option.some.injEq] at hrest
      rw [← hrest, hone, hu]
      rfl
    | cons v rest =>
      -- the first of several digits is not a zero
      have hne : u ≠ 0x30 := by
        rintro rfl
        unfold ofText? at h
        split at h
        · cases h
        · rw [if_pos (by simp [Utf16.length])] at h
          cases h
      rw [← units_of_extend? (hpos hne) hrest, hone, hu]
      rfl

end ArrayIndex

namespace Key

theorem toValue_ne_object (k : Key) (o : ObjectRef) : k.toValue ≠ .object o := by
  cases k <;> nofun

/-- The key of a text is displayed as that text. -/
theorem display_ofText (t : Utf16) : (ofText t).display = t.toString := by
  unfold ofText
  cases hi : ArrayIndex.ofText? t with
  | none => rfl
  | some i =>
    rw [ArrayIndex.eq_text_of_ofText? hi, Utf16.toString_ofString]
    rfl

theorem display_ofString (s : String) : (ofString s).display = s := by
  rw [ofString, display_ofText, Utf16.toString_ofString]

/-- The key of a text is no symbol, so it is stored under what it is displayed as. -/
theorem storageText_ofString (s : String) : (ofString s).storageText = s := by
  have hdisplay := display_ofString s
  unfold ofString ofText at hdisplay ⊢
  split at hdisplay <;> exact hdisplay

end Key

namespace Heap

variable (h : Heap)

theorem display_primitiveKey {v : Value} (hv : ∀ o, v ≠ .object o) :
    (primitiveKey v).display = v.textPrimitive := by
  cases v with
  | object o => exact absurd rfl (hv o)
  | string t => exact Key.display_ofText t
  | symbol s => rfl
  | number n =>
    rw [primitiveKey, Key.ofNumber_eq_ofString, Key.display_ofString]
    rfl
  | _ => exact Key.display_ofString _

theorem convert_of_ne_object {v : Value} (hv : ∀ o, v ≠ .object o) (depth : Nat)
    (active : List ObjectRef) : h.convert depth v active = (v.textPrimitive, active) := by
  cases v with
  | object o => exact absurd rfl (hv o)
  | _ => cases depth <;> rfl

theorem text_of_ne_object {v : Value} (hv : ∀ o, v ≠ .object o) : h.text v = v.textPrimitive := by
  rw [text, h.convert_of_ne_object hv]

/-- An object that wraps a primitive value has the text of that value. -/
theorem text_object {o : ObjectRef} {p : Value} (hp : (h.native o).primitive = some p)
    (hprimitive : ∀ q, p ≠ .object q) : h.text (.object o) = p.textPrimitive := by
  unfold text
  rw [convert]
  dsimp only
  rw [hp]
  show (h.convert h.natives.length p [o]).1 = _
  rw [h.convert_of_ne_object hprimitive]

/-- The key of a value is displayed as the text of that value. -/
theorem display_toKey (v : Value) : (h.toKey v).display = h.text v := by
  by_cases hv : ∃ o, v = .object o
  · obtain ⟨o, rfl⟩ := hv
    unfold toKey
    dsimp only
    split
    · exact Key.display_ofString _
    · exact Key.display_ofString _
    · rename_i p hp hsome
      have hprimitive : ∀ q, p ≠ .object q := fun q e => hp q e
      rw [display_primitiveKey hprimitive, h.text_object hsome hprimitive]
  · have hv : ∀ o, v ≠ .object o := fun o e => hv ⟨o, e⟩
    rw [h.toKey_of_ne_object hv, display_primitiveKey hv, h.text_of_ne_object hv]

/-- The value that stands for a key has the text that the key is displayed as. -/
theorem text_toValue (k : Key) : h.text k.toValue = k.display := by
  rw [h.text_of_ne_object k.toValue_ne_object]
  cases k with
  | index i => exact Utf16.toString_ofString _
  | _ => rfl

/-- The key of a value stands for a value of the same text. -/
theorem text_toKey (v : Value) : h.text (h.toKey v).toValue = h.text v := by
  rw [h.text_toValue, h.display_toKey]

end Heap
end PropertyDelete
