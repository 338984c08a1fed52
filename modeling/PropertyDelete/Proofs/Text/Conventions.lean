import PropertyDelete.Proofs.Key.ArrayIndex
import PropertyDelete.Proofs.Number.Distinct
import PropertyDelete.Proofs.Number.Plain

/-!
What the rest relies on of the way numbers are written and integers are read. A way of writing
numbers (`Number.Writing`) is read back as the number, in no more digits than that takes, writes
integers in their digits and does not tell numbers apart that are equal. So it tells exactly the
numbers apart that differ (`Writing.eq_iff`), and writes only array indices as array indices
(`Writing.integer?_of_index`).
A reader of integers (`Decimal.ReadsNumerals`) takes the numerals and nothing else, each as its
value. The text of a number and the reader of big integers are of these kinds (`writing_text`,
`readsNumerals_readInteger?`); what is said of keys and of compilation uses nothing else of them.
-/
namespace PropertyDelete

namespace Number

/-- What is relied on of a way of writing numbers. -/
structure Writing (write : Number → String) : Prop where
  /-- What is written is read back as the number. -/
  reads (n : Number) : ∃ r, Reading.read? (write n).toList = some r ∧ r.Denotes n
  /-- No decimal with fewer digits is read back as the number. -/
  shortest {n : Number} {c k : Int} {p : Nat} (hc : c.natAbs < 10 ^ p)
    (hn : (Reading.decimal (c * 10 ^ k)).Denotes n) :
    ∃ d j : Int, d.natAbs < 10 ^ p ∧
      Reading.read? (write n).toList = some (.decimal (d * 10 ^ j))
  /-- An integer up to 2^53 is written in its digits. -/
  integer {n : Number} {z : Int} (hn : n.value? = some (z : ℚ)) (hz : z.natAbs ≤ 2 ^ 53) :
    write n = Decimal.signedText z
  /-- Numbers that are equal are written alike, and so are all that are no number. -/
  alike {a b : Number} (h : a.NumericallyEqual b ∨ a.isNaN = true ∧ b.isNaN = true) :
    write a = write b

namespace Writing

variable {write : Number → String} (h : Writing write) {a b n : Number}
include h

/-- Two numbers are written alike exactly where they are equal, or neither is a number. -/
theorem eq_iff : write a = write b ↔ a.NumericallyEqual b ∨ a.isNaN = true ∧ b.isNaN = true := by
  constructor
  · intro hab
    obtain ⟨r, hra, ha⟩ := h.reads a
    obtain ⟨s, hsb, hb⟩ := h.reads b
    rw [hab, hsb, Option.some.injEq] at hra
    exact ha.unique (hra ▸ hb)
  · exact h.alike

/-- A number that is written as an array index is that index: no other number is read from its
digits. -/
theorem integer?_of_index {i : Nat} (hi : ArrayIndex.ofText? (Utf16.ofString (write n)) = some i) :
    n.integer? = some (i : Int) := by
  obtain ⟨hne, hread, hmax⟩ := ArrayIndex.of_ofText?_ofString hi
  have hmax : i ≤ 2 ^ 32 - 2 := hmax
  obtain ⟨r, hr, hn⟩ := h.reads n
  rw [Reading.read?_digits hne hread, Option.some.injEq] at hr
  subst hr
  have hindex : (ofInt i).value? = some ((i : Int) : ℚ) :=
    value?_ofInt (by rw [Int.natAbs_natCast]; omega)
  rw [← value?_eq_intCast_iff, ← hindex]
  rw [Int.cast_natCast] at hindex
  exact hn.value?_eq (denotes_of_value? hindex)

end Writing

variable {n : Number}

/-- No decimal with fewer digits than the text of a number is read back as the number. -/
theorem read?_text_shortest {c k : Int} {p : Nat} (hc : c.natAbs < 10 ^ p)
    (hn : (Reading.decimal (c * 10 ^ k)).Denotes n) :
    ∃ d j : Int, d.natAbs < 10 ^ p ∧ Reading.read? n.chars = some (.decimal (d * 10 ^ j)) := by
  obtain ⟨hf, hn⟩ := hn
  cases hz : n.isZero with
  | true =>
    refine ⟨0, 0, Nat.pow_pos (by decide), ?_⟩
    rw [chars_of_isZero hz, Reading.read?_zero, Int.cast_zero, zero_mul]
  | false =>
    have hne : (c : ℚ) * 10 ^ k ≠ 0 := by
      intro hzero
      rw [if_pos hzero, hz] at hn
      cases hn
    rw [if_neg hne, abs_mul, abs_of_pos (show (0 : ℚ) < 10 ^ k by positivity)] at hn
    have habs : |(c : ℚ)| * 10 ^ k = Scientific.value ⟨c.natAbs, k⟩ := by
      rw [Scientific.value, Nat.cast_natAbs, Int.cast_abs]
    rw [habs] at hn
    obtain ⟨d, j, hd, hvalue⟩ :=
      Binary.shortest_minimal (significand_pos hf hz) n.toBinary_wide hc hn.2
    refine ⟨(if n.isNegative then -1 else 1) * d, j, ?_, ?_⟩
    · rw [Int.natAbs_mul]
      cases n.isNegative <;> simpa using hd
    · rw [read?_chars_of_isFinite hf hz, hvalue]
      cases n.isNegative <;> simp

/-- The text of a number is a way of writing it. -/
theorem writing_text : Writing text where
  reads n := by
    rw [text, String.toList_ofList]
    exact exists_reading n
  shortest hc hn := by
    rw [text, String.toList_ofList]
    exact read?_text_shortest hc hn
  integer hn hz := text_of_integer? (value?_eq_intCast_iff.mp hn) hz
  alike := by
    intro a b h
    apply congrArg String.ofList
    rcases h with h | ⟨ha, hb⟩
    · rcases numericallyEqual_iff.mp h with ⟨rfl, -⟩ | ⟨ha, hb⟩
      · rfl
      · rw [chars_of_isZero ha, chars_of_isZero hb]
    · rw [chars_of_isNaN ha, chars_of_isNaN hb]

end Number

namespace Decimal

/-- What is relied on of a reader of integers: it takes the numerals and no other text, and each
as its value. -/
def ReadsNumerals (read? : List Char → Option Int) : Prop :=
  ∀ cs z, read? cs = some z ↔ Numeral cs ∧ numeralValue cs = z

theorem ReadsNumerals.eq_none_iff {read? : List Char → Option Int} (h : ReadsNumerals read?)
    {cs : List Char} : read? cs = none ↔ ¬ Numeral cs := by
  rw [Option.eq_none_iff_forall_ne_some]
  simp [h cs]

theorem readsNumerals_readInteger? : ReadsNumerals readInteger? :=
  fun _ _ => readInteger?_eq_some

end Decimal
end PropertyDelete
