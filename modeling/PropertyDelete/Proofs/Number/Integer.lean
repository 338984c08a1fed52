import PropertyDelete.Number.Text
import Mathlib.Algebra.Group.Nat.Defs

/-!
Numbers that are integers. The absolute value of a number is an integer when the significand and
the unit, both brought to integers, say so (`magnitude?_eq_some_iff`); with the sign this says which
integer a number is (`integer?_eq_some`). Beside it stand the bounds of the fields, and that a number
is finite, infinite or none.
-/
namespace PropertyDelete.Number

theorem significand_of_exponent {n : Number} (h : 0 ≤ n.exponent) : 2 ^ 52 ≤ n.significand := by
  have hone : (1 : Nat) ≤ n.biasedExponent := by
    unfold exponent at h
    omega
  have hnormal : n.significand = 2 ^ 52 + n.fraction := by
    rw [significand, if_neg (by omega)]
    rfl
  omega

/-- The magnitude of a number is an integer when the significand and the unit, both brought to
integers, say so. -/
theorem magnitude?_eq_some_iff {n : Number} {i : Nat} :
    n.magnitude? = some i ↔
      n.isFinite = true ∧ n.significand * 2 ^ n.exponent.toNat = i * 2 ^ (-n.exponent).toNat := by
  unfold magnitude?
  cases hf : n.isFinite with
  | false => simp
  | true =>
    rw [if_neg (by simp)]
    by_cases hq : 0 ≤ n.exponent
    · have hzero : (-n.exponent).toNat = 0 := by omega
      rw [if_pos hq, hzero]
      show some (n.significand * 2 ^ n.exponent.toNat) = some i ↔ _
      simp
    · have hzero : n.exponent.toNat = 0 := by omega
      have hunit : 0 < 2 ^ (-n.exponent).toNat := Nat.pow_pos (by decide)
      rw [if_neg hq, hzero]
      show (if n.significand % 2 ^ (-n.exponent).toNat = 0 then
        some (n.significand / 2 ^ (-n.exponent).toNat) else none) = some i ↔ _
      constructor
      · intro h
        split at h
        · rename_i hmultiple
          refine ⟨rfl, ?_⟩
          rw [← Option.some.inj h, Nat.div_mul_cancel (Nat.dvd_of_mod_eq_zero hmultiple)]
          simp
        · cases h
      · rintro ⟨-, h⟩
        rw [Nat.pow_zero, Nat.mul_one] at h
        rw [h, Nat.mul_mod_left, if_pos rfl, Nat.mul_div_cancel i hunit]

theorem magnitude?_of_isZero {n : Number} (h : n.isZero = true) : n.magnitude? = some 0 := by
  rw [isZero, Bool.and_eq_true, beq_iff_eq] at h
  unfold magnitude?
  rw [if_neg (by simp [h.1]), h.2, Nat.zero_mul]
  simp

theorem isFinite_of_not {n : Number} (hnan : ¬ n.isNaN = true)
    (hinfinite : ¬ n.isInfinite = true) : n.isFinite = true := by
  simp only [isNaN, isInfinite, isFinite, Bool.and_eq_true, beq_iff_eq, bne_iff_ne] at *
  omega

theorem isNaN_of_isFinite {n : Number} (h : n.isFinite = true) : n.isNaN = false := by
  rw [isFinite, bne_iff_ne] at h
  rw [isNaN, beq_false_of_ne h, Bool.false_and]

theorem isInfinite_of_isFinite {n : Number} (h : n.isFinite = true) : n.isInfinite = false := by
  rw [isFinite, bne_iff_ne] at h
  rw [isInfinite, beq_false_of_ne h, Bool.false_and]

theorem fraction_lt (n : Number) : n.fraction < 2 ^ 52 := Nat.mod_lt _ (by decide)

theorem significand_lt (n : Number) : n.significand < 2 ^ 53 := by
  have hfraction := n.fraction_lt
  have hhidden : (Nat.pow 2 52 : Nat) = 2 ^ 52 := rfl
  unfold significand
  split <;> omega

theorem isZero_of_magnitude? {n : Number} {i : Nat} (h : n.magnitude? = some i) :
    n.isZero = true ↔ i = 0 := by
  constructor
  · intro hzero
    rw [magnitude?_of_isZero hzero] at h
    exact (Option.some.inj h).symm
  · rintro rfl
    obtain ⟨hf, hm⟩ := magnitude?_eq_some_iff.mp h
    have hunit : 0 < 2 ^ n.exponent.toNat := Nat.pow_pos (by decide)
    have hsignificand : n.significand = 0 := by
      rw [Nat.zero_mul] at hm
      exact (Nat.mul_eq_zero.mp hm).resolve_right (Nat.ne_of_gt hunit)
    rw [isZero, hf, hsignificand]
    rfl

/-- A number is an integer if its magnitude is, and its sign is right; zero has either sign. -/
theorem integer?_eq_some {n : Number} {z : Int} :
    n.integer? = some z ↔
      n.magnitude? = some z.natAbs ∧ (if n.isNegative then z ≤ 0 else 0 ≤ z) := by
  unfold integer?
  cases hm : n.magnitude? with
  | none => simp
  | some m =>
    show some (if n.isNegative then -(m : Int) else m) = some z ↔ some m = some z.natAbs ∧ _
    rw [Option.some.injEq, Option.some.injEq]
    cases n.isNegative
    · simp only [Bool.false_eq_true, if_false]
      omega
    · simp only [if_true]
      omega

end PropertyDelete.Number
