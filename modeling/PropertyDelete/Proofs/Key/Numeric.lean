import PropertyDelete.Proofs.Key.Conversion
import PropertyDelete.Proofs.Key.Storage
import Mathlib.Tactic.TFAE

/-!
The keys of numbers. The key of a number is found without writing the number out, by a test of
its value, and it is nevertheless the key of its text, for every pattern of 64 bits. So a number
is an index key exactly when its value is an array index, and up to 2^53, where every integer is
the value of a number, integers name one key in each of their three forms: as a number, as a big
integer and as a text (`toKey_number`). Numbers that differ are different keys and are stored under
different texts (`toKey_number_inj`), since the text tells the number.
-/
namespace PropertyDelete.Heap

variable {h : Heap} {n : Number}

theorem toKey_ofString (s : String) : h.toKey (Value.ofString s) = Key.ofString s := rfl

/-- The key of a number is that of its text. -/
theorem toKey_number_eq : h.toKey (.number n) = h.toKey (Value.ofString n.text) :=
  Key.ofNumber_eq_ofString n

/-- A number names an index if its value is one. -/
theorem toKey_number_eq_index {i : Nat} :
    h.toKey (.number n) = .index i ↔ n.value? = some (i : ℚ) ∧ i ≤ ArrayIndex.maximum := by
  have hvalue : n.value? = some (i : ℚ) ↔ n.integer? = some (i : Int) := by
    rw [← Number.value?_eq_intCast_iff, Int.cast_natCast]
  rw [hvalue]
  show Key.ofNumber n = _ ↔ _
  unfold Key.ofNumber
  split
  · rename_i j hj
    rw [hj]
    split <;> simp <;> omega
  · rename_i hno
    constructor
    · nofun
    · rintro ⟨hi, -⟩
      exact absurd hi (hno i)

/-- A number whose value is an integer up to 2^53 names the key of the integer's text. -/
theorem toKey_number_of_value {z : Int} (hz : z.natAbs ≤ 2 ^ 53)
    (hn : n.value? = some (z : ℚ)) :
    h.toKey (.number n) = Key.ofString (Decimal.signedText z) := by
  rw [toKey_number_eq, toKey_ofString, Number.writing_text.integer hn hz]

/-- The key of a number is the key of its text, so it is an index exactly when the value of the
number is that index, and 0 for both zeros. Each integer up to 2^53 is the value of a number, and
every number of that value names the same key as the big integer and as the decimal text. -/
theorem toKey_number (h : Heap) :
    (∀ n : Number, h.toKey (.number n) = h.toKey (Value.ofString n.text)) ∧
    (∀ (n : Number) (i : Nat), h.toKey (.number n) = .index i ↔
      n.value? = some (i : ℚ) ∧ i ≤ ArrayIndex.maximum) ∧
    (∀ n : Number, n.isZero = true → h.toKey (.number n) = .index 0) ∧
    (∀ z : Int, z.natAbs ≤ 2 ^ 53 →
      (Number.ofInt z).value? = some (z : ℚ) ∧
      ∀ n : Number, n.value? = some (z : ℚ) →
        h.toKey (.number n) = h.toKey (.bigint z) ∧
        h.toKey (.bigint z) = h.toKey (Value.ofString (Decimal.signedText z))) := by
  refine ⟨fun n => toKey_number_eq, fun n i => toKey_number_eq_index, ?_, ?_⟩
  · intro n hn
    rw [toKey_number_eq_index, Number.value?_of_isZero hn]
    exact ⟨by simp, Nat.zero_le _⟩
  · intro z hz
    refine ⟨Number.value?_ofInt hz, fun n hn => ⟨?_, rfl⟩⟩
    rw [toKey_number_of_value hz hn]
    rfl

/-- The zero with its sign bit set, and the least integer that the rule on integers covers. -/
theorem toKey_number_least :
    ({} : Heap).toKey (.number ⟨0x8000000000000000⟩) = .index 0 ∧
    ({} : Heap).toKey (.number (.ofInt (-2 ^ 53))) =
      .text (Utf16.ofString "-9007199254740992") := by
  obtain ⟨-, -, hzero, hinteger⟩ := toKey_number {}
  obtain ⟨hvalue, hkey⟩ := hinteger (-2 ^ 53) (by decide)
  refine ⟨hzero _ (by decide), ?_⟩
  rw [(hkey _ hvalue).1]
  decide

/-! ## Different numbers are different keys -/

variable {h₁ h₂ : Heap} {a b : Number}

/-- The key of a number is stored under the text of the number. -/
theorem storageText_toKey_number : (h.toKey (.number n)).storageText = n.text := by
  rw [toKey_number_eq, toKey_ofString, Key.storageText_ofString]

theorem toKey_number_ne_symbol (s : Symbol) : h.toKey (.number n) ≠ .symbol s := by
  rw [toKey_number_eq, toKey_ofString]
  exact Key.ofString_ne_symbol n.text s

theorem toKey_number_of_text (htext : a.text = b.text) :
    h₁.toKey (.number a) = h₂.toKey (.number b) := by
  rw [toKey_number_eq, toKey_number_eq, toKey_ofString, toKey_ofString, htext]

/-- Two numbers are one key, and are stored under one text, exactly where they are numerically
equal or neither of them is a number: the key determines the text, and the text determines the
number. -/
theorem toKey_number_inj (h₁ h₂ : Heap) (a b : Number) :
    List.TFAE [
      h₁.toKey (.number a) = h₂.toKey (.number b),
      (h₁.toKey (.number a)).same (h₂.toKey (.number b)) = true,
      (h₁.toKey (.number a)).storageText = (h₂.toKey (.number b)).storageText,
      a.NumericallyEqual b ∨ a.isNaN = true ∧ b.isNaN = true] := by
  tfae_have 1 → 2
  | heq => heq ▸ Key.same_refl _
  tfae_have 2 → 1 :=
    Key.eq_of_same fun s _ hs => absurd hs (toKey_number_ne_symbol s)
  tfae_have 1 → 3 := congrArg Key.storageText
  tfae_have 3 ↔ 4 := by
    rw [storageText_toKey_number, storageText_toKey_number, Number.writing_text.eq_iff]
  tfae_have 4 → 1 := fun hequal => toKey_number_of_text (Number.writing_text.alike hequal)
  tfae_finish

end PropertyDelete.Heap
