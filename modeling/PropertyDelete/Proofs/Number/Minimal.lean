import PropertyDelete.Proofs.Number.Neighbours
import PropertyDelete.Proofs.Text.Decimal

/-!
No decimal with fewer digits is read as the number than the one that the search finds. The leading
exponent is that of the number (`leadingExponent_le`, `lt_leadingExponent`), so a decimal of so many
digits that is read as the number leaves one on the grid of that many digits: it is on the grid
itself, or it is below the power of ten that the number begins with, and then that power is read as
the number as well (`exists_onGrid`). A grid that has any decimal of the interval has one next to
the number, where the search looks (`onGrid?_isSome`). And seventeen digits are always enough, since
from there on the grid is finer than the interval is wide (`onGrid?_seventeen`).
-/
namespace PropertyDelete

namespace Binary

variable {b : Binary} {x y z : ℚ} {k : Int}

/-! ## The leading exponent -/

theorem lt_pow_length_digits (n : Nat) : n < 10 ^ (Decimal.digits n).length :=
  (Nat.length_toDigits_le_iff (by decide) Nat.length_toDigits_pos).mp (Nat.le_refl _)

theorem pow_length_digits_le {n : Nat} (hn : 0 < n) :
    10 ^ ((Decimal.digits n).length - 1) ≤ n := by
  by_cases hone : (Decimal.digits n).length = 1
  · rw [hone]
    exact hn
  · have hpos : 0 < (Decimal.digits n).length := Nat.length_toDigits_pos
    refine Nat.le_of_not_lt fun hlt => ?_
    have hle := Decimal.length_digits_le (by omega) hlt
    omega

/-- The value as a quotient of natural numbers. -/
theorem value_eq_div (b : Binary) :
    b.value = (b.significand * 2 ^ b.exponent.toNat : Nat) / (2 ^ (-b.exponent).toNat : Nat) := by
  have hscale := Number.zpow_mul_pow_neg (two_ne_zero : (2 : ℚ) ≠ 0) b.exponent
  have hne : (2 : ℚ) ^ (-b.exponent).toNat ≠ 0 := by positivity
  rw [value, eq_div_iff (by exact_mod_cast hne)]
  push_cast
  rw [mul_assoc, hscale]

/-- The number begins with the digit of its leading exponent. -/
theorem leadingExponent_spec (hpos : 0 < b.significand) :
    10 ^ b.leadingExponent ≤ b.value ∧ b.value < 10 ^ (b.leadingExponent + 1) := by
  rw [value_eq_div]
  unfold leadingExponent
  dsimp only
  have hnumerator : 0 < b.significand * 2 ^ b.exponent.toNat := by positivity
  have hdenominator : 0 < 2 ^ (-b.exponent).toNat := Nat.pow_pos (by decide)
  rw [show (Nat.pow 2 b.exponent.toNat : Nat) = 2 ^ b.exponent.toNat from rfl,
    show (Nat.pow 2 (-b.exponent).toNat : Nat) = 2 ^ (-b.exponent).toNat from rfl]
  generalize b.significand * 2 ^ b.exponent.toNat = numerator at hnumerator ⊢
  generalize 2 ^ (-b.exponent).toNat = denominator at hdenominator ⊢
  have hcast : (0 : ℚ) < denominator := by exact_mod_cast hdenominator
  split
  · next hle =>
    -- the digits are those of the integer part
    have hquotient : 0 < numerator / denominator := Nat.div_pos hle hdenominator
    have hlow := pow_length_digits_le hquotient
    have hhigh := lt_pow_length_digits (numerator / denominator)
    have hlength : 0 < (Decimal.digits (numerator / denominator)).length :=
      Nat.length_toDigits_pos
    generalize (Decimal.digits (numerator / denominator)).length = length at hlow hhigh hlength
    rw [show ((length : Int) - 1) = ((length - 1 : Nat) : Int) by omega, zpow_natCast,
      show (((length - 1 : Nat) : Int) + 1) = (length : Int) by omega, zpow_natCast,
      le_div_iff₀ hcast, div_lt_iff₀ hcast]
    rw [Nat.le_div_iff_mul_le hdenominator] at hlow
    rw [Nat.div_lt_iff_lt_mul hdenominator] at hhigh
    exact ⟨by exact_mod_cast hlow, by exact_mod_cast hhigh⟩
  · next hlt =>
    -- the zeros before the first digit are as many as the inverse has digits
    have hquotient : 0 < (denominator - 1) / numerator := Nat.div_pos (by omega) hnumerator
    have hlow := pow_length_digits_le hquotient
    have hhigh := lt_pow_length_digits ((denominator - 1) / numerator)
    have hlength : 0 < (Decimal.digits ((denominator - 1) / numerator)).length :=
      Nat.length_toDigits_pos
    generalize (Decimal.digits ((denominator - 1) / numerator)).length = length
      at hlow hhigh hlength
    rw [Nat.le_div_iff_mul_le hnumerator] at hlow
    rw [Nat.div_lt_iff_lt_mul hnumerator] at hhigh
    have hten : (0 : ℚ) < 10 ^ length := by positivity
    have hten' : (0 : ℚ) < 10 ^ (length - 1) := by positivity
    rw [zpow_neg, zpow_natCast, show (-(length : Int) + 1) = -((length - 1 : Nat) : Int) by omega,
      zpow_neg, zpow_natCast, le_div_iff₀ hcast, div_lt_iff₀ hcast, inv_mul_le_iff₀ hten,
      lt_inv_mul_iff₀ hten']
    have hle : denominator ≤ 10 ^ length * numerator := by omega
    have hgt : 10 ^ (length - 1) * numerator < denominator := by omega
    exact ⟨by exact_mod_cast hle, by exact_mod_cast hgt⟩

/-! ## Grids -/

/-- What lies between two rationals that are read as the number is read as it too. -/
theorem Reads.of_between (hx : b.Reads x) (hz : b.Reads z) (hxy : x ≤ y) (hyz : y ≤ z) :
    b.Reads y where
  lower := hx.lower.trans hxy
  upper := hyz.trans hz.upper
  even := by
    rintro (hend | hend)
    · exact hx.even (Or.inl (le_antisymm (hend ▸ hxy) hx.lower))
    · exact hz.even (Or.inr (le_antisymm hz.upper (hend ▸ hyz)))

theorem contains_of_reads {d : Nat} (h : b.Reads (Scientific.value ⟨d, k⟩)) :
    b.contains k d = true := by
  obtain ⟨hlow, hhigh, heven⟩ := h
  unfold contains
  dsimp only
  split
  · rw [Bool.and_eq_true, decide_eq_true_eq, decide_eq_true_eq, scaled_le_iff, le_scaled_iff]
    exact ⟨hlow, hhigh⟩
  · next hodd =>
    rw [Bool.and_eq_true, decide_eq_true_eq, decide_eq_true_eq, ← Nat.not_le, ← Nat.not_le,
      le_scaled_iff, scaled_le_iff, not_le, not_le]
    refine ⟨lt_of_le_of_ne hlow fun hend => ?_, lt_of_le_of_ne hhigh fun hend => ?_⟩
    · exact hodd (heven (Or.inl hend.symm))
    · exact hodd (heven (Or.inr hend))

/-- The lower one of the two decimals of a grid next to the number is the last one that is not
above it. -/
theorem le_floorAt_iff {c : Nat} : c ≤ b.floorAt k ↔ Scientific.value ⟨c, k⟩ ≤ b.value := by
  have hscale : 0 < b.decimalScale k := by
    rw [decimalScale_eq]
    positivity
  rw [floorAt, Nat.le_div_iff_mul_le hscale, le_scaled_iff, four_mul_value]
  rfl

/-- A grid that has a decimal which is read as the number has one next to the number. -/
theorem onGrid?_isSome (hpos : 0 < b.significand) {c : Nat}
    (h : b.Reads (Scientific.value ⟨c, k⟩)) : (b.onGrid? k).isSome = true := by
  have hunit : (0 : ℚ) < 10 ^ k := by positivity
  have hmono : ∀ {d d' : Nat}, d ≤ d' → Scientific.value ⟨d, k⟩ ≤ Scientific.value ⟨d', k⟩ := by
    intro d d' hle
    have hle : (d : ℚ) ≤ d' := by exact_mod_cast hle
    exact mul_le_mul_of_nonneg_right hle hunit.le
  unfold onGrid?
  dsimp only
  rcases Nat.lt_or_ge (b.floorAt k) c with hupper | hlower
  · have habove : b.value ≤ Scientific.value ⟨b.floorAt k + 1, k⟩ := by
      refine le_of_lt (lt_of_not_ge fun hle => ?_)
      have hcontra := le_floorAt_iff.mpr hle
      omega
    have hreads := (reads_value hpos).of_between h habove (hmono hupper)
    rw [contains_of_reads hreads]
    cases b.contains k (b.floorAt k) <;> rfl
  · have hbelow : Scientific.value ⟨b.floorAt k, k⟩ ≤ b.value := le_floorAt_iff.mp (Nat.le_refl _)
    have hreads := h.of_between (reads_value hpos) (hmono hlower) hbelow
    rw [contains_of_reads hreads]
    cases b.contains k (b.floorAt k + 1) <;> rfl

/-- Zeros at the end of a coefficient may as well be counted in the exponent. -/
theorem value_mul_pow (c m : Nat) (k : Int) :
    Scientific.value ⟨c * 10 ^ m, k⟩ = Scientific.value ⟨c, m + k⟩ := by
  show ((c * 10 ^ m : Nat) : ℚ) * 10 ^ k = c * 10 ^ (m + k)
  rw [zpow_add₀ (by norm_num), zpow_natCast]
  push_cast
  ring

theorem value_pow (m : Nat) (k : Int) : Scientific.value ⟨10 ^ m, k⟩ = 10 ^ (m + k) := by
  rw [← Nat.one_mul (10 ^ m), value_mul_pow]
  show ((1 : Nat) : ℚ) * 10 ^ (m + k) = 10 ^ (m + k)
  rw [Nat.cast_one, one_mul]

/-- A decimal of so many digits that is read as the number leaves one on their grid. -/
theorem exists_onGrid (hpos : 0 < b.significand) {c n : Nat} (hc : c < 10 ^ (n + 1))
    (h : b.Reads (Scientific.value ⟨c, k⟩)) :
    ∃ d, b.Reads (Scientific.value ⟨d, b.leadingExponent - n⟩) := by
  obtain ⟨hleading, -⟩ := leadingExponent_spec hpos
  rcases Int.lt_or_le k (b.leadingExponent - n) with hfine | hcoarse
  · -- the decimal is below the power of ten that the number begins with
    have hpower : Scientific.value ⟨10 ^ n, b.leadingExponent - n⟩ = 10 ^ b.leadingExponent := by
      rw [value_pow, add_sub_cancel]
    have hbelow : Scientific.value ⟨c, k⟩ ≤ 10 ^ b.leadingExponent := by
      have hcast : (c : ℚ) ≤ 10 ^ (n + 1) := by exact_mod_cast hc.le
      calc Scientific.value ⟨c, k⟩
          ≤ 10 ^ (n + 1) * 10 ^ k := mul_le_mul_of_nonneg_right hcast (by positivity)
        _ = 10 ^ ((n : Int) + 1 + k) := by
          rw [← zpow_natCast, ← zpow_add₀ (by norm_num)]
          push_cast
          rfl
        _ ≤ 10 ^ b.leadingExponent := zpow_le_zpow_right₀ (by norm_num) (by omega)
    refine ⟨10 ^ n, ?_⟩
    rw [hpower]
    exact h.of_between (reads_value hpos) hbelow hleading
  · refine ⟨c * 10 ^ (k - (b.leadingExponent - n)).toNat, ?_⟩
    have hexponent : ((k - (b.leadingExponent - n)).toNat : Int) + (b.leadingExponent - n) = k := by
      omega
    rwa [value_mul_pow, hexponent]

/-- What is found on the grid of so many digits has no more digits than that. -/
theorem digits_of_onGrid? (hpos : 0 < b.significand) {n : Nat} {s : Scientific}
    (h : b.onGrid? (b.leadingExponent - n) = some s) :
    ∃ (d : Nat) (j : Int), d < 10 ^ (n + 1) ∧ s.value = d * 10 ^ j := by
  obtain ⟨-, hlt⟩ := leadingExponent_spec hpos
  have hfloor : b.floorAt (b.leadingExponent - n) < 10 ^ (n + 1) := by
    refine Nat.lt_of_not_le fun hle => ?_
    have hvalue := le_floorAt_iff.mp hle
    have hpower : Scientific.value ⟨10 ^ (n + 1), b.leadingExponent - n⟩ =
        10 ^ (b.leadingExponent + 1) := by
      rw [value_pow]
      congr 1
      omega
    rw [hpower] at hvalue
    exact absurd hvalue hlt.not_ge
  have hcoefficient : s.coefficient ≤ b.floorAt (b.leadingExponent - n) + 1 := by
    unfold onGrid? at h
    dsimp only at h
    split at h
    · cases h
      dsimp only
      split <;> omega
    · cases h
      exact Nat.le_succ _
    · cases h
      exact Nat.le_refl _
    · cases h
  rcases Nat.lt_or_ge s.coefficient (10 ^ (n + 1)) with hless | hmore
  · exact ⟨s.coefficient, s.exponent, hless, rfl⟩
  · -- one more than all digits nine is a power of ten
    have hpower : s.coefficient = 10 ^ (n + 1) := by omega
    refine ⟨1, (n + 1 : Nat) + s.exponent, Nat.one_lt_pow (Nat.succ_ne_zero n) (by decide), ?_⟩
    obtain ⟨c, j⟩ := s
    subst hpower
    rw [value_pow, Nat.cast_one, one_mul]

/-! ## Seventeen digits -/

/-- A grid that is finer than the interval is wide has a decimal of it. -/
theorem onGrid?_of_fine (hpos : 0 < b.significand)
    (hfine : (10 : ℚ) ^ k < b.upperEnd - b.lowerEnd) : (b.onGrid? k).isSome = true := by
  have hbelow : Scientific.value ⟨b.floorAt k, k⟩ ≤ b.value := le_floorAt_iff.mp (Nat.le_refl _)
  have habove : b.value < Scientific.value ⟨b.floorAt k + 1, k⟩ := by
    refine lt_of_not_ge fun hle => ?_
    have hcontra := le_floorAt_iff.mpr hle
    omega
  rcases lt_or_ge b.lowerEnd (Scientific.value ⟨b.floorAt k, k⟩) with hlower | hlower
  · refine onGrid?_isSome hpos ⟨hlower.le, hbelow.trans b.value_lt_upperEnd.le, ?_⟩
    rintro (hend | hend)
    · exact absurd hend hlower.ne'
    · exact absurd (hend ▸ hbelow) b.value_lt_upperEnd.not_ge
  · have hnext : Scientific.value ⟨b.floorAt k + 1, k⟩ =
        Scientific.value ⟨b.floorAt k, k⟩ + 10 ^ k := by
      show ((b.floorAt k + 1 : Nat) : ℚ) * 10 ^ k = b.floorAt k * 10 ^ k + 10 ^ k
      push_cast
      ring
    have hupper : Scientific.value ⟨b.floorAt k + 1, k⟩ < b.upperEnd := by
      rw [hnext]
      linarith
    refine onGrid?_isSome hpos ⟨b.lowerEnd_le_value.trans habove.le, hupper.le, ?_⟩
    rintro (hend | hend)
    · exact absurd (hend ▸ habove) b.lowerEnd_le_value.not_gt
    · exact absurd hend hupper.ne

/-- The grid of seventeen digits is finer than an interval that is wide for its number. -/
theorem onGrid?_seventeen (hpos : 0 < b.significand)
    (hwide : 4 * b.significand < 10 ^ 16 * (b.high - b.low)) :
    (b.onGrid? (b.leadingExponent - (16 : Nat))).isSome = true := by
  obtain ⟨hleading, -⟩ := leadingExponent_spec hpos
  have hle : b.low ≤ b.high := by
    have hlow := b.low_le
    unfold high
    omega
  have hcast : (4 * b.significand : ℚ) < 10 ^ 16 * (b.high - b.low) := by
    rw [← Nat.cast_sub hle]
    exact_mod_cast hwide
  apply onGrid?_of_fine hpos
  rw [zpow_sub₀ (by norm_num), div_lt_iff₀ (by positivity)]
  calc (10 : ℚ) ^ b.leadingExponent
      ≤ 4 * b.significand * 2 ^ (b.exponent - 2) := by
        rw [← four_mul_value] at hleading
        exact_mod_cast hleading
    _ < 10 ^ 16 * (b.high - b.low) * 2 ^ (b.exponent - 2) :=
        mul_lt_mul_of_pos_right hcast (by positivity)
    _ = (b.upperEnd - b.lowerEnd) * 10 ^ ((16 : Nat) : Int) := by
        rw [upperEnd, lowerEnd, zpow_natCast]
        ring

/-- No decimal with fewer digits is read as the number than the shortest one. -/
theorem shortest_minimal (hpos : 0 < b.significand)
    (hwide : 4 * b.significand < 10 ^ 16 * (b.high - b.low)) {c p : Nat} (hc : c < 10 ^ p)
    (h : b.Reads (Scientific.value ⟨c, k⟩)) :
    ∃ (d : Nat) (j : Int), d < 10 ^ p ∧ b.shortest.value = d * 10 ^ j := by
  have hp : 0 < p := by
    refine Nat.pos_of_ne_zero ?_
    rintro rfl
    have hzero : c = 0 := by omega
    have hx := h.pos hpos
    rw [hzero, Scientific.value, Nat.cast_zero, zero_mul] at hx
    exact absurd hx (lt_irrefl 0)
  obtain ⟨m, hm, hmp, hgrid⟩ : ∃ m < 17, m + 1 ≤ p ∧
      (b.onGrid? (b.leadingExponent - (m : Int))).isSome = true := by
    rcases Nat.lt_or_ge 17 p with hmore | hless
    · exact ⟨16, by omega, by omega, onGrid?_seventeen hpos hwide⟩
    · obtain ⟨n, rfl⟩ := Nat.exists_eq_add_of_lt hp
      rw [Nat.zero_add] at hc hless
      obtain ⟨d, hd⟩ := exists_onGrid hpos hc h
      exact ⟨n, by omega, by omega, onGrid?_isSome hpos hd⟩
  obtain ⟨n, hn, hshortest⟩ := exists_onGrid?_shortest hm hgrid
  obtain ⟨d, j, hd, hvalue⟩ := digits_of_onGrid? hpos hshortest
  exact ⟨d, j, Nat.lt_of_lt_of_le hd (Nat.pow_le_pow_right (by decide) (by omega)), hvalue⟩

end Binary

/-- The interval of a number is wide for it: the significand has fifty-three bits, and is the least
one of these where the interval is narrow below. -/
theorem Number.toBinary_wide (n : Number) :
    4 * n.toBinary.significand < 10 ^ 16 * (n.toBinary.high - n.toBinary.low) := by
  have hsignificand : n.toBinary.significand < 2 ^ 53 := n.significand_lt
  unfold Binary.high Binary.low
  cases hnarrow : n.toBinary.narrowBelow with
  | false =>
    rw [if_neg Bool.false_ne_true]
    omega
  | true =>
    have hleast : n.toBinary.significand = 2 ^ 52 := by
      have hfields : n.fraction = 0 ∧ 1 < n.biasedExponent := by
        simpa [toBinary] using hnarrow
      show n.significand = _
      rw [significand, if_neg (by omega), hfields.1]
      rfl
    rw [if_pos rfl]
    omega

end PropertyDelete
