import PropertyDelete.Proofs.Number.Minimal
import PropertyDelete.Proofs.Number.Reading

/-!
Integers among the numbers, and how they are written. While the unit of a number is at most one, the
number is the only integer that is read as it (`eq_of_reads`). So in the search for the shortest
decimal of an integer below 2^53, which has come to an end when it comes to the grid of the units,
what is found can only be the integer, and it has the digits of the integer (`shortest_of_integer`);
it is written out in them (`text_of_integer?`). From 2^53 on numbers are more than one apart, so
there 2^53 itself is the last integer that this is said of; it is looked at alone.
-/
namespace PropertyDelete

/-- Multiplying by a power of ten writes zeros. -/
theorem Decimal.digits_mul_pow {c : Nat} (hc : 0 < c) (k : Nat) :
    digits (c * 10 ^ k) = digits c ++ List.replicate k '0' := by
  induction k with
  | zero => simp
  | succ k ih =>
    have hpos : 0 < c * 10 ^ k := Nat.mul_pos hc (Nat.pow_pos (by decide))
    have hlast := Nat.toDigits_append_toDigits (b := 10) (n := c * 10 ^ k) (d := 0)
      (by decide) hpos (by decide)
    have hzero : Nat.toDigits 10 0 = ['0'] := by decide
    have hnext : c * 10 ^ (k + 1) = 10 * (c * 10 ^ k) + 0 := by
      rw [Nat.pow_succ, Nat.mul_comm 10, Nat.mul_assoc, Nat.add_zero]
    rw [digits, hnext, ← hlast, hzero]
    rw [digits] at ih
    rw [ih, List.append_assoc, ← List.replicate_succ']

namespace Binary

variable {b : Binary} {i j : Nat}

/-- While the unit is at most one, a number that is an integer has no other one in its interval. -/
theorem eq_of_reads (hq : b.exponent ≤ 0) (hi : b.value = i) (hj : b.Reads (j : ℚ)) : j = i := by
  have hunit : (2 : ℚ) ^ (b.exponent - 2) ≤ 1 / 4 := by
    calc (2 : ℚ) ^ (b.exponent - 2) ≤ 2 ^ (-2 : Int) :=
          zpow_le_zpow_right₀ (by norm_num) (by omega)
      _ = 1 / 4 := by norm_num
  have hlow : (4 * b.significand : ℚ) ≤ b.low + 2 := by
    have hnat : 4 * b.significand ≤ b.low + 2 := by
      unfold low
      split <;> omega
    exact_mod_cast hnat
  have hhigh : (b.high : ℚ) = 4 * b.significand + 2 := by
    unfold high
    push_cast
    rfl
  have hlower := hj.lower
  have hupper := hj.upper
  rw [← four_mul_value] at hi
  push_cast at hi
  unfold lowerEnd at hlower
  unfold upperEnd at hupper
  -- neither end is further from the number than half of one
  have hbelow : (i : ℚ) - 1 / 2 ≤ j := by
    nlinarith
  have habove : (j : ℚ) ≤ i + 1 / 2 := by
    rw [hhigh] at hupper
    nlinarith
  have hlt : (i : ℚ) < j + 1 := by linarith
  have hgt : (j : ℚ) < i + 1 := by linarith
  have hlt : i < j + 1 := by exact_mod_cast hlt
  have hgt : j < i + 1 := by exact_mod_cast hgt
  omega

theorem leadingExponent_of_value (hpos : 0 < b.significand) (hvalue : b.value = i) (hi : 0 < i) :
    b.leadingExponent = ((Decimal.digits i).length : Int) - 1 := by
  obtain ⟨hlow, hhigh⟩ := leadingExponent_spec hpos
  rw [hvalue] at hlow hhigh
  have hlength : 0 < (Decimal.digits i).length := Nat.length_toDigits_pos
  have hfirst : (10 : ℚ) ^ (((Decimal.digits i).length : Int) - 1) ≤ i := by
    rw [show ((Decimal.digits i).length : Int) - 1 = (((Decimal.digits i).length - 1 : Nat) : Int)
      by omega, zpow_natCast]
    exact_mod_cast pow_length_digits_le hi
  have hlast : (i : ℚ) < 10 ^ ((Decimal.digits i).length : Int) := by
    rw [zpow_natCast]
    exact_mod_cast lt_pow_length_digits i
  have hless := (zpow_lt_zpow_iff_right₀ (by norm_num : (1 : ℚ) < 10)).mp (hlow.trans_lt hlast)
  have hmore := (zpow_lt_zpow_iff_right₀ (by norm_num : (1 : ℚ) < 10)).mp (hfirst.trans_lt hhigh)
  omega

/-- The shortest decimal of an integer of at most seventeen digits is the integer. -/
theorem shortest_of_integer (hpos : 0 < b.significand) (hq : b.exponent ≤ 0)
    (hvalue : b.value = i) (hi : 0 < i) (hlength : (Decimal.digits i).length ≤ 17) :
    ∃ c k : Nat, b.shortest = ⟨c, k⟩ ∧ c * 10 ^ k = i := by
  have hne : 0 < (Decimal.digits i).length := Nat.length_toDigits_pos
  have hlead := leadingExponent_of_value hpos hvalue hi
  -- the search comes to the grid of the units when it has come to as many digits as there are
  have hunits : (b.onGrid? (b.leadingExponent -
      (((Decimal.digits i).length - 1 : Nat) : Int))).isSome = true := by
    apply onGrid?_isSome hpos (c := i)
    rw [hlead, show ((Decimal.digits i).length : Int) - 1 -
      (((Decimal.digits i).length - 1 : Nat) : Int) = 0 by omega]
    have hreads := reads_value hpos
    rw [hvalue] at hreads
    simpa [Scientific.value] using hreads
  obtain ⟨n, hle, hn⟩ := exists_onGrid?_shortest (by omega) hunits
  have hexponent := exponent_of_onGrid? hn
  have hreads := reads_of_contains (contains_of_onGrid? hn)
  rcases hshortest : b.shortest with ⟨c, e⟩
  rw [hshortest] at hexponent hreads
  obtain ⟨k, rfl⟩ : ∃ k : Nat, e = k := Int.eq_ofNat_of_zero_le (by
    have he : e = b.leadingExponent - n := hexponent
    omega)
  refine ⟨c, k, rfl, eq_of_reads hq hvalue ?_⟩
  have hcast : Scientific.value ⟨c, k⟩ = ((c * 10 ^ k : Nat) : ℚ) := by
    rw [Scientific.value, zpow_natCast]
    push_cast
    rfl
  rwa [hcast] at hreads

end Binary

/-- An integer of at most twenty-one digits is written out in full. -/
theorem Scientific.chars_of_integer {c k : Nat} (hc : 0 < c)
    (hlength : (Decimal.digits (c * 10 ^ k)).length ≤ 21) :
    (⟨c, k⟩ : Scientific).chars = Decimal.digits (c * 10 ^ k) := by
  obtain ⟨t, ht⟩ := digits_eq_append ⟨c, k⟩
  have hfull := Decimal.digits_mul_pow hc k
  have hplaces : (⟨c, k⟩ : Scientific).pointPosition = (Decimal.digits (c * 10 ^ k)).length := by
    rw [hfull, List.length_append, List.length_replicate]
    rfl
  have hne : (Decimal.digits (c * 10 ^ k)).length ≠ 0 := by
    simpa using Decimal.digits_ne_nil (c * 10 ^ k)
  have hzeros : Decimal.digits (c * 10 ^ k) =
      (⟨c, k⟩ : Scientific).significantDigits ++ List.replicate (t + k) '0' := by
    rw [hfull, show Decimal.digits c = _ from ht, List.append_assoc,
      List.replicate_append_replicate]
  have hshort := congrArg List.length hzeros
  rw [List.length_append, List.length_replicate] at hshort
  unfold chars
  dsimp only
  rw [hplaces, if_pos (by omega), if_pos (by omega)]
  conv => rhs; rw [hzeros]
  congr 2
  omega

namespace Number

variable {n : Number} {i : Nat}

/-- Below 2^53 the unit of an integer is at most one. -/
theorem exponent_nonpos (h : n.magnitude? = some i) (hi : i < 2 ^ 53) : n.exponent ≤ 0 := by
  obtain ⟨-, hvalue⟩ := magnitude?_eq_some_iff.mp h
  refine Int.not_lt.mp fun hmore => ?_
  -- a unit of two or more takes the significand to 2^53 and beyond
  have hbig := significand_of_exponent (Int.le_of_lt hmore)
  have hzero : (-n.exponent).toNat = 0 := by omega
  have hunit : 2 ^ 1 ≤ 2 ^ n.exponent.toNat := Nat.pow_le_pow_right (by decide) (by omega)
  have hle := Nat.mul_le_mul hbig hunit
  rw [hzero] at hvalue
  omega

/-- The shortest decimal of an integer up to 2^53 is written out in its digits. -/
theorem shortest_chars (h : n.magnitude? = some i) (hi : i ≤ 2 ^ 53) (hpos : 0 < i) :
    n.toBinary.shortest.chars = Decimal.digits i := by
  have hvalue : n.toBinary.value = i := (magnitude?_eq_some_iff_value.mp h).2
  have hsignificand : 0 < n.toBinary.significand := by
    refine Nat.pos_of_ne_zero fun hzero => ?_
    rw [Binary.value, hzero, Nat.cast_zero, zero_mul] at hvalue
    exact hpos.ne (by exact_mod_cast hvalue)
  rcases Nat.lt_or_eq_of_le hi with hlt | rfl
  · have hlength : (Decimal.digits i).length ≤ 16 :=
      Decimal.length_digits_le (by decide) (Nat.lt_trans hlt (by decide))
    obtain ⟨c, k, hshortest, hck⟩ :=
      Binary.shortest_of_integer hsignificand (exponent_nonpos h hlt) hvalue hpos (by omega)
    have hc : 0 < c := by
      refine Nat.pos_of_ne_zero ?_
      rintro rfl
      rw [Nat.zero_mul] at hck
      omega
    rw [hshortest, Scientific.chars_of_integer hc (by rw [hck]; omega), hck]
  · -- there is one binary value for 2^53
    have hsame : n.toBinary = (ofNat (2 ^ 53)).toBinary := by
      apply toBinary_eq_of_value
      have hpow : (ofNat (2 ^ 53)).magnitude? = some (2 ^ 53) := by decide
      rw [hvalue]
      exact (magnitude?_eq_some_iff_value.mp hpow).2.symm
    rw [hsame]
    decide

/-- A number that is an integer up to 2^53 is written as that integer. -/
theorem text_of_integer? {z : Int} (h : n.integer? = some z) (hz : z.natAbs ≤ 2 ^ 53) :
    n.text = Decimal.signedText z := by
  obtain ⟨hm, hsign⟩ := integer?_eq_some.mp h
  have hf : n.isFinite = true := (magnitude?_eq_some_iff.mp hm).1
  have hzero := isZero_of_magnitude? hm
  unfold text chars
  rw [isNaN_of_isFinite hf, isInfinite_of_isFinite hf, if_neg Bool.false_ne_true,
    if_neg Bool.false_ne_true]
  by_cases h0 : z.natAbs = 0
  · -- both zeros are written alike
    rw [if_pos (hzero.mpr h0), Int.natAbs_eq_zero.mp h0]
    rfl
  · rw [if_neg (mt hzero.mp h0), shortest_chars hm hz (Nat.pos_of_ne_zero h0)]
    cases z with
    | ofNat i =>
      cases hn : n.isNegative with
      | false => rfl
      | true =>
        rw [hn] at hsign
        simp at hsign h0
        omega
    | negSucc i =>
      cases hn : n.isNegative with
      | true => rfl
      | false =>
        rw [hn] at hsign
        simp at hsign

end Number
end PropertyDelete
