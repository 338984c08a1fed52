import PropertyDelete.Number.Shortest
import Mathlib.Algebra.Group.Nat.Defs

/-!
The search for the shortest decimal. It stops at the first grid that has a decimal
(`exists_onGrid?_shortest`), and a grid has only decimals that round to the number
(`contains_of_onGrid?`). If no grid had one, the number would be written out in full, which has the
value of the number (`exact_value`). All of it is between natural numbers, by the two scales that
quarter significands and coefficients are compared on.
-/
namespace PropertyDelete.Binary

variable {b : Binary}

theorem binaryScale_eq (b : Binary) (k : Int) :
    b.binaryScale k = 2 ^ (b.exponent - 2).toNat * 10 ^ (-k).toNat := rfl

theorem decimalScale_eq (b : Binary) (k : Int) :
    b.decimalScale k = 10 ^ k.toNat * 2 ^ (2 - b.exponent).toNat := rfl

theorem low_le (b : Binary) : b.low ≤ 4 * b.significand := Nat.sub_le _ _

/-- A decimal is found on a grid only if it rounds to the number. -/
theorem contains_of_onGrid? {k : Int} {s : Scientific} (h : b.onGrid? k = some s) :
    b.contains s.exponent s.coefficient = true := by
  unfold onGrid? at h
  dsimp only at h
  split at h
  · rename_i hlower hupper
    cases Option.some.inj h
    split
    · exact hupper
    · exact hlower
  · rename_i hlower _
    cases Option.some.inj h
    exact hlower
  · rename_i _ hupper
    cases Option.some.inj h
    exact hupper
  · cases h

theorem exponent_of_onGrid? {k : Int} {s : Scientific} (h : b.onGrid? k = some s) :
    s.exponent = k := by
  unfold onGrid? at h
  dsimp only at h
  split at h <;> cases h <;> rfl

/-- The shortest decimal was found on a grid, or it is the number written out in full. -/
theorem shortest_cases (b : Binary) :
    b.contains b.shortest.exponent b.shortest.coefficient = true ∨ b.shortest = b.exact := by
  unfold shortest
  cases h : (List.range 17).findSome? fun n : Nat => b.onGrid? (b.leadingExponent - (n : Int)) with
  | none => exact Or.inr rfl
  | some s =>
    obtain ⟨n, -, hn⟩ := List.exists_of_findSome?_eq_some h
    exact Or.inl (contains_of_onGrid? hn)

/-- The search stops at the first grid that has a decimal. -/
theorem exists_onGrid?_shortest {m : Nat} (hm : m < 17)
    (h : (b.onGrid? (b.leadingExponent - (m : Int))).isSome = true) :
    ∃ n ≤ m, b.onGrid? (b.leadingExponent - (n : Int)) = some b.shortest := by
  have hmem : m ∈ List.range 17 := List.mem_range.mpr hm
  unfold shortest
  cases hfound : (List.range 17).findSome?
      fun n : Nat => b.onGrid? (b.leadingExponent - (n : Int)) with
  | none =>
    rw [List.findSome?_eq_none_iff] at hfound
    rw [hfound m hmem] at h
    cases h
  | some s =>
    obtain ⟨before, n, after, hsplit, hn, hbefore⟩ := List.findSome?_eq_some_iff.mp hfound
    have hsorted := List.pairwise_lt_range (n := 17)
    rw [hsplit] at hmem hsorted
    refine ⟨n, ?_, hn⟩
    rcases List.mem_append.mp hmem with hb | hrest
    · rw [hbefore m hb] at h
      cases h
    · rcases List.mem_cons.mp hrest with rfl | hafter
      · exact Nat.le_refl _
      · have hlater := (List.pairwise_cons.mp (List.pairwise_append.mp hsorted).2.1).1 m hafter
        exact Nat.le_of_lt hlater

/-- The number written out in full is the number. -/
theorem exact_value (b : Binary) :
    b.exact.coefficient * b.decimalScale b.exact.exponent =
      4 * b.significand * b.binaryScale b.exact.exponent := by
  rw [binaryScale_eq, decimalScale_eq]
  show b.significand * 2 ^ b.exponent.toNat * 5 ^ (-b.exponent).toNat *
      (10 ^ (min b.exponent 0).toNat * 2 ^ (2 - b.exponent).toNat) =
    4 * b.significand * (2 ^ (b.exponent - 2).toNat * 10 ^ (-min b.exponent 0).toNat)
  rcases Int.le_total 0 b.exponent with hq | hq
  · -- an integer: the exponent of ten is zero
    have hk : min b.exponent 0 = 0 := by omega
    have hn : (-b.exponent).toNat = 0 := by omega
    rw [hk, hn]
    have hpow : 2 ^ b.exponent.toNat * 2 ^ (2 - b.exponent).toNat =
        4 * 2 ^ (b.exponent - 2).toNat := by
      rw [show (4 : Nat) = 2 ^ 2 from rfl, ← Nat.pow_add, ← Nat.pow_add]
      congr 1
      omega
    calc b.significand * 2 ^ b.exponent.toNat * 5 ^ 0 *
          (10 ^ (0 : Int).toNat * 2 ^ (2 - b.exponent).toNat)
        = b.significand * (2 ^ b.exponent.toNat * 2 ^ (2 - b.exponent).toNat) := by
          simp [Nat.mul_assoc]
      _ = 4 * b.significand * (2 ^ (b.exponent - 2).toNat * 10 ^ (-(0 : Int)).toNat) := by
          rw [hpow]
          simp [Nat.mul_left_comm, Nat.mul_assoc]
  · -- a fraction of a power of two, which is one of the same power of ten
    have hk : min b.exponent 0 = b.exponent := by omega
    have hp : b.exponent.toNat = 0 := by omega
    have hm : (b.exponent - 2).toNat = 0 := by omega
    have ht : (2 - b.exponent).toNat = (-b.exponent).toNat + 2 := by omega
    rw [hk, hp, hm, ht]
    generalize (-b.exponent).toNat = p
    calc b.significand * 2 ^ 0 * 5 ^ p * (10 ^ 0 * 2 ^ (p + 2))
        = b.significand * (5 ^ p * 2 ^ p) * 4 := by
          simp [Nat.pow_add, Nat.mul_assoc]
      _ = 4 * b.significand * (2 ^ 0 * 10 ^ p) := by
          rw [← Nat.mul_pow, Nat.mul_comm _ 4]
          simp [Nat.mul_assoc]

end PropertyDelete.Binary
