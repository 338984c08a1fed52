import PropertyDelete.Proofs.Number.Rounding
import PropertyDelete.Proofs.Number.Value
import Mathlib.Order.Monotone.Basic
import Mathlib.Tactic.Ring

/-!
Neighbouring numbers, and which of them a decimal is read as. A binary value is read from the
rationals between the points halfway to its two neighbours, and from these points as well if its
significand is even (`Binary.Reads`). The patterns without a sign, taken as natural numbers, count
the binary values upwards: each ends where the next one begins (`upperEnd_ofPattern`), and of two
neighbours one is even and the other is not. So no rational is read as two of them
(`reads_unique`), and the shortest decimal of a number is read as that number (`reads_shortest`).
-/
namespace PropertyDelete

/-- The value of a decimal. -/
def Scientific.value (s : Scientific) : ℚ := s.coefficient * 10 ^ s.exponent

namespace Binary

def value (b : Binary) : ℚ := b.significand * 2 ^ b.exponent

/-- The point halfway to the lower neighbour. -/
def lowerEnd (b : Binary) : ℚ := b.low * 2 ^ (b.exponent - 2)

/-- The point halfway to the upper neighbour. -/
def upperEnd (b : Binary) : ℚ := b.high * 2 ^ (b.exponent - 2)

/-- Whether a rational is read as a binary value: it lies between the ends, or on one of them if
the significand is even. -/
structure Reads (b : Binary) (x : ℚ) : Prop where
  lower : b.lowerEnd ≤ x
  upper : x ≤ b.upperEnd
  even : x = b.lowerEnd ∨ x = b.upperEnd → b.significand % 2 = 0

variable {b : Binary} {x y : ℚ}

/-! ## Ends -/

theorem four_mul_value (b : Binary) :
    ((4 * b.significand : Nat) : ℚ) * 2 ^ (b.exponent - 2) = b.value := by
  rw [value, zpow_sub₀ two_ne_zero]
  push_cast
  ring

theorem lowerEnd_le_value (b : Binary) : b.lowerEnd ≤ b.value := by
  rw [← four_mul_value, lowerEnd]
  have hle : (b.low : ℚ) ≤ ((4 * b.significand : Nat) : ℚ) := by exact_mod_cast b.low_le
  gcongr

theorem value_lt_upperEnd (b : Binary) : b.value < b.upperEnd := by
  rw [← four_mul_value, upperEnd]
  have hlt : ((4 * b.significand : Nat) : ℚ) < (b.high : ℚ) := by
    have hnat : 4 * b.significand < b.high := by
      unfold high
      omega
    exact_mod_cast hnat
  gcongr

theorem low_pos (hpos : 0 < b.significand) : 0 < b.low := by
  unfold low
  split <;> omega

theorem lowerEnd_lt_value (hpos : 0 < b.significand) : b.lowerEnd < b.value := by
  rw [← four_mul_value, lowerEnd]
  have hlt : (b.low : ℚ) < ((4 * b.significand : Nat) : ℚ) := by
    have hnat : b.low < 4 * b.significand := by
      unfold low
      split <;> omega
    exact_mod_cast hnat
  gcongr

theorem Reads.pos (h : b.Reads x) (hpos : 0 < b.significand) : 0 < x := by
  have hlow : (0 : ℚ) < b.low := by exact_mod_cast low_pos hpos
  have hend : 0 < b.lowerEnd := by
    unfold lowerEnd
    positivity
  exact lt_of_lt_of_le hend h.lower

/-! ## The shortest decimal -/

/-- The two scales stand for the two units. -/
theorem exists_scale (b : Binary) (k : Int) :
    ∃ w : ℚ, 0 < w ∧ (b.binaryScale k : ℚ) = 2 ^ (b.exponent - 2) * w ∧
      (b.decimalScale k : ℚ) = 10 ^ k * w := by
  have htwo := Number.zpow_mul_pow_neg (two_ne_zero : (2 : ℚ) ≠ 0) (b.exponent - 2)
  have hten := Number.zpow_mul_pow_neg (by norm_num : (10 : ℚ) ≠ 0) k
  rw [show -(b.exponent - 2) = 2 - b.exponent by omega] at htwo
  refine ⟨2 ^ (2 - b.exponent).toNat * 10 ^ (-k).toNat, by positivity, ?_, ?_⟩
  · rw [binaryScale_eq]
    push_cast
    rw [← htwo]
    ring
  · rw [decimalScale_eq]
    push_cast
    rw [← hten]
    ring

section Scaled

variable (b) (k : Int) (m d : Nat)

theorem scaled_le_iff :
    m * b.binaryScale k ≤ d * b.decimalScale k ↔
      (m : ℚ) * 2 ^ (b.exponent - 2) ≤ d * 10 ^ k := by
  obtain ⟨w, hw, hbinary, hdecimal⟩ := b.exists_scale k
  rw [← Nat.cast_le (α := ℚ), Nat.cast_mul, Nat.cast_mul, hbinary, hdecimal, ← mul_assoc,
    ← mul_assoc, mul_le_mul_iff_left₀ hw]

theorem le_scaled_iff :
    d * b.decimalScale k ≤ m * b.binaryScale k ↔
      (d : ℚ) * 10 ^ k ≤ m * 2 ^ (b.exponent - 2) := by
  obtain ⟨w, hw, hbinary, hdecimal⟩ := b.exists_scale k
  rw [← Nat.cast_le (α := ℚ), Nat.cast_mul, Nat.cast_mul, hbinary, hdecimal, ← mul_assoc,
    ← mul_assoc, mul_le_mul_iff_left₀ hw]

end Scaled

theorem reads_of_contains {k : Int} {d : Nat} (h : b.contains k d = true) :
    b.Reads (Scientific.value ⟨d, k⟩) := by
  unfold contains at h
  dsimp only at h
  split at h
  · next heven =>
    rw [Bool.and_eq_true, decide_eq_true_eq, decide_eq_true_eq, scaled_le_iff, le_scaled_iff] at h
    exact ⟨h.1, h.2, fun _ => heven⟩
  · rw [Bool.and_eq_true, decide_eq_true_eq, decide_eq_true_eq, ← Nat.not_le, ← Nat.not_le,
      le_scaled_iff, scaled_le_iff, not_le, not_le] at h
    refine ⟨h.1.le, h.2.le, ?_⟩
    rintro (hend | hend)
    · exact absurd hend h.1.ne'
    · exact absurd hend h.2.ne

theorem reads_value (hpos : 0 < b.significand) : b.Reads b.value where
  lower := b.lowerEnd_le_value
  upper := b.value_lt_upperEnd.le
  even := by
    rintro (hend | hend)
    · exact absurd hend (lowerEnd_lt_value hpos).ne'
    · exact absurd hend b.value_lt_upperEnd.ne

/-- The number written out in full has the value of the number. -/
theorem value_exact (b : Binary) : b.exact.value = b.value := by
  have hexact := b.exact_value
  apply le_antisymm
  · rw [← four_mul_value, Scientific.value, ← le_scaled_iff]
    exact hexact.le
  · rw [← four_mul_value, Scientific.value, ← scaled_le_iff]
    exact hexact.ge

theorem reads_shortest (hpos : 0 < b.significand) : b.Reads b.shortest.value := by
  rcases b.shortest_cases with h | h
  · exact reads_of_contains h
  · rw [h, value_exact]
    exact reads_value hpos

/-! ## Patterns -/

/-- The binary value of a pattern without a sign. -/
def ofPattern (u : Nat) : Binary where
  significand := if u / 2 ^ 52 = 0 then u % 2 ^ 52 else 2 ^ 52 + u % 2 ^ 52
  exponent := (max (u / 2 ^ 52) 1 : Nat) - 1075
  narrowBelow := u % 2 ^ 52 == 0 && 1 < u / 2 ^ 52

theorem significand_ofPattern_mod (u : Nat) : (ofPattern u).significand % 2 = u % 2 := by
  unfold ofPattern
  dsimp only
  split <;> omega

/-- The next pattern has the same unit, or one twice as large. -/
theorem high_ofPattern (u : Nat) :
    (ofPattern u).high = (ofPattern (u + 1)).low ∧
        (ofPattern (u + 1)).exponent = (ofPattern u).exponent ∨
      (ofPattern u).high = 2 * (ofPattern (u + 1)).low ∧
        (ofPattern (u + 1)).exponent = (ofPattern u).exponent + 1 := by
  unfold high low ofPattern
  dsimp only
  by_cases hcarry : (u + 1) % 2 ^ 52 = 0
  · have hfraction : u % 2 ^ 52 = 2 ^ 52 - 1 := by omega
    have hnext : (u + 1) / 2 ^ 52 = u / 2 ^ 52 + 1 := by omega
    rw [hcarry, hfraction, hnext, if_neg (Nat.succ_ne_zero _)]
    by_cases hsubnormal : u / 2 ^ 52 = 0
    · left
      rw [if_pos hsubnormal, hsubnormal]
      exact ⟨by decide, by decide⟩
    · right
      have hlarge : 1 < u / 2 ^ 52 + 1 := by omega
      have hnarrow : (0 == 0 && decide (1 < u / 2 ^ 52 + 1)) = true := by simpa using hlarge
      rw [if_neg hsubnormal, hnarrow, if_pos rfl]
      omega
  · left
    have hfraction : (u + 1) % 2 ^ 52 = u % 2 ^ 52 + 1 := by omega
    have hnext : (u + 1) / 2 ^ 52 = u / 2 ^ 52 := by omega
    have hnarrow : (u % 2 ^ 52 + 1 == 0 && decide (1 < u / 2 ^ 52)) = false := by simp
    rw [hfraction, hnext, hnarrow, if_neg Bool.false_ne_true]
    refine ⟨?_, rfl⟩
    split <;> omega

/-- A value ends where the next one begins. -/
theorem upperEnd_ofPattern (u : Nat) :
    (ofPattern u).upperEnd = (ofPattern (u + 1)).lowerEnd := by
  unfold upperEnd lowerEnd
  rcases high_ofPattern u with ⟨hhigh, hexponent⟩ | ⟨hhigh, hexponent⟩
  · rw [hhigh, hexponent]
  · rw [hhigh, hexponent, show (ofPattern u).exponent + 1 - 2 = (ofPattern u).exponent - 2 + 1 by
      omega, zpow_add_one₀ two_ne_zero]
    push_cast
    ring

theorem value_ofPattern_strictMono : StrictMono fun u => (ofPattern u).value := by
  refine strictMono_nat_of_lt_succ fun u => ?_
  calc (ofPattern u).value < (ofPattern u).upperEnd := value_lt_upperEnd _
    _ = (ofPattern (u + 1)).lowerEnd := upperEnd_ofPattern u
    _ ≤ (ofPattern (u + 1)).value := lowerEnd_le_value _

theorem upperEnd_ofPattern_strictMono : StrictMono fun u => (ofPattern u).upperEnd := by
  refine strictMono_nat_of_lt_succ fun u => ?_
  calc (ofPattern u).upperEnd = (ofPattern (u + 1)).lowerEnd := upperEnd_ofPattern u
    _ ≤ (ofPattern (u + 1)).value := lowerEnd_le_value _
    _ < (ofPattern (u + 1)).upperEnd := value_lt_upperEnd _

/-- No rational is read as two values. Two intervals that meet are those of neighbours and meet in
an end; one of the two is odd, and has no ends. -/
theorem not_reads_of_lt {u v : Nat} (huv : u < v) (hu : (ofPattern u).Reads x) :
    ¬ (ofPattern v).Reads x := by
  intro hv
  obtain ⟨w, rfl⟩ := Nat.exists_eq_add_of_lt huv
  have hend := upperEnd_ofPattern (u + w)
  have hmono := upperEnd_ofPattern_strictMono.monotone (Nat.le_add_right u w)
  have hlower := hv.lower
  rw [← hend] at hlower
  -- all of them are the one point where the intervals meet
  have hupper : x = (ofPattern u).upperEnd := le_antisymm hu.upper (hmono.trans hlower)
  have hpoint : (ofPattern u).upperEnd = (ofPattern (u + w)).upperEnd :=
    le_antisymm hmono (hlower.trans hu.upper)
  have hw : u = u + w := upperEnd_ofPattern_strictMono.injective hpoint
  have hueven := hu.even (Or.inr hupper)
  have hveven := hv.even (Or.inl (by rw [← hend, ← hpoint, hupper]))
  rw [significand_ofPattern_mod] at hueven hveven
  omega

theorem reads_unique {u v : Nat} (hu : (ofPattern u).Reads x) (hv : (ofPattern v).Reads x) :
    u = v := by
  rcases Nat.lt_trichotomy u v with h | h | h
  · exact absurd hv (not_reads_of_lt h hu)
  · exact h
  · exact absurd hu (not_reads_of_lt h hv)

end Binary

namespace Number

/-- The pattern of a number without its sign. -/
def pattern (n : Number) : Nat := n.bits.toNat % 2 ^ 63

theorem toBinary_eq (n : Number) : n.toBinary = .ofPattern n.pattern := by
  have hfraction : n.fraction = n.pattern % 2 ^ 52 := by
    show n.bits.toNat % 2 ^ 52 = n.bits.toNat % 2 ^ 63 % 2 ^ 52
    omega
  have hbiased : n.biasedExponent = n.pattern / 2 ^ 52 := by
    show n.bits.toNat / 2 ^ 52 % 2 ^ 11 = n.bits.toNat % 2 ^ 63 / 2 ^ 52
    omega
  unfold toBinary significand exponent Binary.ofPattern
  rw [hfraction, hbiased]
  rfl

theorem pattern_eq_of_value {a b : Number} (h : a.toBinary.value = b.toBinary.value) :
    a.pattern = b.pattern := by
  rw [toBinary_eq, toBinary_eq] at h
  exact Binary.value_ofPattern_strictMono.injective h

theorem toBinary_eq_of_value {a b : Number} (h : a.toBinary.value = b.toBinary.value) :
    a.toBinary = b.toBinary := by
  rw [toBinary_eq, toBinary_eq, pattern_eq_of_value h]

end Number
end PropertyDelete
