/-!
Numbers as IEEE 754 binary64 bit patterns. Every pattern is a number; the value of a finite
one is (-1)^s * significand * 2^exponent, with the two natural and integer parts below.
-/
namespace PropertyDelete

/-- A number by its 64 bits: sign, eleven bits of biased exponent, fifty-two of fraction. -/
structure Number where
  bits : UInt64
  deriving DecidableEq, Repr, Inhabited

namespace Number

def fraction (n : Number) : Nat := n.bits.toNat % Nat.pow 2 52

def biasedExponent (n : Number) : Nat := n.bits.toNat / Nat.pow 2 52 % Nat.pow 2 11

def isNegative (n : Number) : Bool := n.bits.toNat / Nat.pow 2 63 == 1

/-- Whether the pattern is not a number at all. -/
def isNaN (n : Number) : Bool := n.biasedExponent == 2047 && n.fraction != 0

def isInfinite (n : Number) : Bool := n.biasedExponent == 2047 && n.fraction == 0

def isFinite (n : Number) : Bool := n.biasedExponent != 2047

/-- The integer that the power of two multiplies: the fraction, with the implicit leading
bit of a normal number. -/
def significand (n : Number) : Nat :=
  if n.biasedExponent = 0 then n.fraction else Nat.pow 2 52 + n.fraction

/-- The power of two that multiplies the significand. -/
def exponent (n : Number) : Int := (max n.biasedExponent 1 : Nat) - 1075

/-- Whether the pattern is one of the two zeros. -/
def isZero (n : Number) : Bool := n.isFinite && n.significand == 0

/-- Whether the pattern is the zero with its sign bit set. -/
def isNegativeZero (n : Number) : Bool := n.isZero && n.isNegative

/-- The absolute value of a finite number, where that is an integer. -/
def magnitude? (n : Number) : Option Nat :=
  if !n.isFinite then none
  else if 0 ≤ n.exponent then some (n.significand * Nat.pow 2 n.exponent.toNat)
  else
    let unit := Nat.pow 2 (-n.exponent).toNat
    if n.significand % unit = 0 then some (n.significand / unit) else none

/-- The value of a finite number, where that is an integer; both zeros are 0. -/
def integer? (n : Number) : Option Int :=
  n.magnitude?.map fun m => if n.isNegative then -(m : Int) else m

/-- The pattern of the positive number nearest to a natural number, ties to even. -/
def bitsOfNat (n : Nat) : Nat :=
  if n = 0 then 0
  else
    let top := n.log2
    let infinity := 2047 * Nat.pow 2 52
    if top ≤ 52 then (top + 1022) * Nat.pow 2 52 + n * Nat.pow 2 (52 - top)
    else
      let unit := Nat.pow 2 (top - 52)
      let kept := n / unit
      let lost := 2 * (n % unit)
      let rounded := if lost > unit || (lost == unit && kept % 2 == 1) then kept + 1 else kept
      min infinity ((top + 1022) * Nat.pow 2 52 + rounded)

/-- The number nearest to a natural number, ties to even. -/
def ofNat (n : Nat) : Number := ⟨UInt64.ofNat (bitsOfNat n)⟩

/-- The number nearest to an integer, ties to even. -/
def ofInt (z : Int) : Number :=
  let magnitude := bitsOfNat z.natAbs
  ⟨UInt64.ofNat (if z < 0 then Nat.pow 2 63 + magnitude else magnitude)⟩

/-- The usual pattern that is not a number. -/
def nan : Number := ⟨0x7FF8000000000000⟩

def infinity : Number := ⟨0x7FF0000000000000⟩

end Number
end PropertyDelete
