import PropertyDelete.Text.Decimal

/-!
The shortest decimal that rounds to a binary number. A positive number m * 2^q stands for
the interval of reals nearer to it than to its neighbours, the two ends included when m is
even. Among the decimals of that interval the one with the fewest digits is taken, of
several the nearest to the number, of two equally near the one with an even last digit.
All comparisons are between natural numbers.
-/
namespace PropertyDelete

/-- A decimal value: coefficient * 10^exponent. -/
structure Scientific where
  coefficient : Nat
  exponent : Int
  deriving DecidableEq, Repr

/-- A positive binary value significand * 2^exponent. `narrowBelow` says that its lower
neighbour is only half as far away as the upper one, as at a power of two. -/
structure Binary where
  significand : Nat
  exponent : Int
  narrowBelow : Bool

namespace Binary

/-- Four times the significand of the lower end of the rounding interval. -/
def low (b : Binary) : Nat := 4 * b.significand - (if b.narrowBelow then 1 else 2)

/-- Four times the significand of the upper end of the rounding interval. -/
def high (b : Binary) : Nat := 4 * b.significand + 2

/-- What a quarter significand is multiplied by to be compared with decimals of exponent `k`. -/
def binaryScale (b : Binary) (k : Int) : Nat :=
  Nat.pow 2 (b.exponent - 2).toNat * Nat.pow 10 (-k).toNat

/-- What a coefficient of exponent `k` is multiplied by to be compared with quarter
significands. -/
def decimalScale (b : Binary) (k : Int) : Nat :=
  Nat.pow 10 k.toNat * Nat.pow 2 (2 - b.exponent).toNat

/-- Whether the decimal `d * 10^k` rounds to the number. -/
def contains (b : Binary) (k : Int) (d : Nat) : Bool :=
  let x := d * b.decimalScale k
  let l := b.low * b.binaryScale k
  let h := b.high * b.binaryScale k
  if b.significand % 2 = 0 then l ≤ x && x ≤ h else l < x && x < h

/-- The coefficient of the largest multiple of `10^k` that is not above the number. -/
def floorAt (b : Binary) (k : Int) : Nat :=
  4 * b.significand * b.binaryScale k / b.decimalScale k

/-- Of the two multiples of `10^k` next to the number, the upper one is to be preferred: it is
nearer, or as near and even. -/
def prefersUpper (b : Binary) (k : Int) : Bool :=
  let v := 4 * b.significand * b.binaryScale k
  let below := v - b.floorAt k * b.decimalScale k
  let above := (b.floorAt k + 1) * b.decimalScale k - v
  above < below || (above == below && b.floorAt k % 2 == 1)

/-- The best decimal with exponent `k` that rounds to the number, if there is one. -/
def onGrid? (b : Binary) (k : Int) : Option Scientific :=
  let lower := b.floorAt k
  match b.contains k lower, b.contains k (lower + 1) with
  | true, true => some ⟨if b.prefersUpper k then lower + 1 else lower, k⟩
  | true, false => some ⟨lower, k⟩
  | false, true => some ⟨lower + 1, k⟩
  | false, false => none

/-- The exponent of ten of the first digit of the number. -/
def leadingExponent (b : Binary) : Int :=
  let numerator := b.significand * Nat.pow 2 b.exponent.toNat
  let denominator := Nat.pow 2 (-b.exponent).toNat
  if denominator ≤ numerator then
    ((Decimal.digits (numerator / denominator)).length : Int) - 1
  else
    -((Decimal.digits ((denominator - 1) / numerator)).length : Int)

/-- The number written out in full. -/
def exact (b : Binary) : Scientific :=
  ⟨b.significand * Nat.pow 2 b.exponent.toNat * Nat.pow 5 (-b.exponent).toNat, min b.exponent 0⟩

/-- The shortest decimal that rounds to the number: with one digit if possible, else with
two, and so on. Seventeen digits are always enough. -/
def shortest (b : Binary) : Scientific :=
  ((List.range 17).findSome? fun n : Nat => b.onGrid? (b.leadingExponent - (n : Int))).getD b.exact

end Binary
end PropertyDelete
