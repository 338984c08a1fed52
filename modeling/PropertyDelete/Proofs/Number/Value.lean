import PropertyDelete.Proofs.Number.Integer
import Mathlib.Algebra.Order.Field.Power
import Mathlib.Data.Rat.Cast.Order
import Mathlib.Tactic.Linarith
import Mathlib.Tactic.NormNum

/-!
Numbers by their value. The value of a finite number is the rational that its pattern stands for,
so both zeros have the value 0; NaN and the infinities have none. A number is read as an integer
exactly when its value is that integer (`value?_eq_intCast_iff`), and every integer up to 2^53 is
the value of a number (`value?_ofInt`).
-/
namespace PropertyDelete.Number

/-- The value of a finite number. -/
def value? (n : Number) : Option ℚ :=
  if n.isFinite then some ((if n.isNegative then -1 else 1) * (n.significand * 2 ^ n.exponent))
  else none

variable {n : Number}

/-- A power of any exponent is a quotient of powers of natural exponents. -/
theorem zpow_mul_pow_neg {a : ℚ} (ha : a ≠ 0) (e : Int) :
    a ^ e * a ^ (-e).toNat = a ^ e.toNat := by
  rw [← zpow_natCast, ← zpow_natCast, ← zpow_add₀ ha]
  congr 1
  omega

/-- A scaled significand is a natural number when both sides, brought to integers, agree. -/
theorem mul_zpow_eq_iff (m i : Nat) (e : Int) :
    (m : ℚ) * 2 ^ e = i ↔ m * 2 ^ e.toNat = i * 2 ^ (-e).toNat := by
  have hpos : (0 : ℚ) < 2 ^ (-e).toNat := by positivity
  have hscale := zpow_mul_pow_neg (two_ne_zero : (2 : ℚ) ≠ 0) e
  calc (m : ℚ) * 2 ^ e = i
      ↔ (m : ℚ) * 2 ^ e * 2 ^ (-e).toNat = i * 2 ^ (-e).toNat := by
        rw [mul_left_inj' hpos.ne']
    _ ↔ (m : ℚ) * 2 ^ e.toNat = i * 2 ^ (-e).toNat := by rw [mul_assoc, hscale]
    _ ↔ m * 2 ^ e.toNat = i * 2 ^ (-e).toNat := by norm_cast

theorem magnitude?_eq_some_iff_value {i : Nat} :
    n.magnitude? = some i ↔ n.isFinite = true ∧ (n.significand : ℚ) * 2 ^ n.exponent = i := by
  rw [magnitude?_eq_some_iff, mul_zpow_eq_iff]

/-- A number is read as the integer that is its value. -/
theorem value?_eq_intCast_iff {z : Int} : n.value? = some (z : ℚ) ↔ n.integer? = some z := by
  have hnonneg : (0 : ℚ) ≤ n.significand * 2 ^ n.exponent := by positivity
  rw [integer?_eq_some, magnitude?_eq_some_iff_value, Nat.cast_natAbs, Int.cast_abs]
  unfold value?
  cases hf : n.isFinite with
  | false => simp
  | true =>
    rw [if_pos rfl, Option.some.injEq]
    generalize (n.significand : ℚ) * 2 ^ n.exponent = v at hnonneg
    cases n.isNegative
    · simp only [Bool.false_eq_true, if_false, one_mul, true_and]
      constructor
      · rintro rfl
        exact ⟨(abs_of_nonneg hnonneg).symm, by exact_mod_cast hnonneg⟩
      · rintro ⟨h, hz⟩
        rw [h, abs_of_nonneg (by exact_mod_cast hz)]
    · simp only [if_true, neg_mul, one_mul, true_and]
      constructor
      · intro h
        have hz : (z : ℚ) ≤ 0 := by linarith
        exact ⟨by rw [abs_of_nonpos hz, ← h, neg_neg], by exact_mod_cast hz⟩
      · rintro ⟨h, hz⟩
        have hz : (z : ℚ) ≤ 0 := by exact_mod_cast hz
        rw [h, abs_of_nonpos hz, neg_neg]

/-- Both zeros have the value 0. -/
theorem value?_of_isZero (h : n.isZero = true) : n.value? = some 0 := by
  simp only [isZero, Bool.and_eq_true, beq_iff_eq] at h
  simp [value?, h.1, h.2]

/-! ## Every integer up to 2^53 is the value of a number -/

/-- The pattern of a natural number up to 2^53 holds all of it: the leading bit is the one that a
normal number does not write down, and the exponent says where the bits belong. -/
theorem bitsOfNat_eq {i : Nat} (hpos : 0 < i) (hi : i ≤ 2 ^ 53) :
    ∃ top m, bitsOfNat i = (top + 1022) * 2 ^ 52 + m ∧ 2 ^ 52 ≤ m ∧ m < 2 ^ 53 ∧ top ≤ 53 ∧
      m * 2 ^ (top - 52) = i * 2 ^ (52 - top) := by
  rcases Nat.lt_or_eq_of_le hi with hlt | rfl
  · obtain ⟨hlow, hhigh⟩ := (Nat.log2_eq_iff (Nat.ne_of_gt hpos)).mp rfl
    have htop : i.log2 ≤ 52 := by
      have hlog := (Nat.log2_lt (Nat.ne_of_gt hpos)).mpr hlt
      omega
    have hunit : 0 < 2 ^ (52 - i.log2) := Nat.pow_pos (by decide)
    refine ⟨i.log2, i * 2 ^ (52 - i.log2), ?_, ?_, ?_, by omega, ?_⟩
    · unfold bitsOfNat
      rw [if_neg (Nat.ne_of_gt hpos)]
      dsimp only
      rw [if_pos htop]
      rfl
    · calc 2 ^ 52 = 2 ^ i.log2 * 2 ^ (52 - i.log2) := by
            rw [← Nat.pow_add]
            congr 1
            omega
        _ ≤ i * 2 ^ (52 - i.log2) := Nat.mul_le_mul_right _ hlow
    · calc i * 2 ^ (52 - i.log2) < 2 ^ (i.log2 + 1) * 2 ^ (52 - i.log2) :=
            Nat.mul_lt_mul_of_pos_right hhigh hunit
        _ = 2 ^ 53 := by
            rw [← Nat.pow_add]
            congr 1
            omega
    · rw [Nat.sub_eq_zero_of_le htop]
      simp
  · exact ⟨53, 2 ^ 52, by decide, by decide, by decide, by decide, by decide⟩

/-- The fields of a normal pattern. -/
theorem fields {sign top m : Nat} (htop : top ≤ 53) (hlow : 2 ^ 52 ≤ m)
    (hhigh : m < 2 ^ 53)
    (hbits : n.bits.toNat = sign * 2 ^ 63 + ((top + 1022) * 2 ^ 52 + m)) :
    n.isFinite = true ∧ n.isNegative = (sign == 1) ∧ n.significand = m ∧
      n.exponent = (top : Int) - 52 := by
  have hbiased : n.biasedExponent = top + 1023 := by
    show n.bits.toNat / 2 ^ 52 % 2 ^ 11 = _
    omega
  have hfraction : n.fraction = m - 2 ^ 52 := by
    show n.bits.toNat % 2 ^ 52 = _
    omega
  have hnegative : n.bits.toNat / Nat.pow 2 63 = sign := by
    show n.bits.toNat / 2 ^ 63 = _
    omega
  refine ⟨?_, ?_, ?_, ?_⟩
  · rw [isFinite, hbiased, bne_iff_ne]
    omega
  · rw [isNegative, hnegative]
  · rw [significand, hbiased, if_neg (by omega), hfraction]
    exact Nat.add_sub_of_le hlow
  · rw [exponent, hbiased]
    omega

/-- The number of an integer up to 2^53 has that value. -/
theorem value?_ofInt {z : Int} (hz : z.natAbs ≤ 2 ^ 53) : (ofInt z).value? = some (z : ℚ) := by
  rw [value?_eq_intCast_iff]
  by_cases h0 : z = 0
  · subst h0
    rw [integer?_eq_some, magnitude?_of_isZero (by decide)]
    exact ⟨rfl, by decide⟩
  · obtain ⟨top, m, hbits, hlow, hhigh, htop, hvalue⟩ := bitsOfNat_eq (by omega) hz
    have hpattern : (ofInt z).bits.toNat =
        (if z < 0 then 1 else 0) * 2 ^ 63 + ((top + 1022) * 2 ^ 52 + m) := by
      have hlt : (if z < 0 then Nat.pow 2 63 + bitsOfNat z.natAbs else bitsOfNat z.natAbs) <
          2 ^ 64 := by
        have hpow : Nat.pow 2 63 = 2 ^ 63 := rfl
        rw [hbits, hpow]
        split <;> omega
      rw [ofInt]
      dsimp only
      rw [UInt64.toNat_ofNat_of_lt' hlt, hbits]
      have hpow : Nat.pow 2 63 = 2 ^ 63 := rfl
      rw [hpow]
      split <;> omega
    obtain ⟨hf, hsign, hm, he⟩ := fields htop hlow hhigh hpattern
    rw [integer?_eq_some, magnitude?_eq_some_iff, hf, hm, he]
    refine ⟨⟨rfl, ?_⟩, ?_⟩
    · have hup : ((top : Int) - 52).toNat = top - 52 := by omega
      have hdown : (-((top : Int) - 52)).toNat = 52 - top := by omega
      rw [hup, hdown, hvalue]
    · rw [hsign]
      by_cases hneg : z < 0
      · simp [hneg, Int.le_of_lt hneg]
      · simp [hneg, Int.not_lt.mp hneg]

end PropertyDelete.Number
