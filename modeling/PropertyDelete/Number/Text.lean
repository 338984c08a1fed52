import PropertyDelete.Number.Basic
import PropertyDelete.Number.Shortest

/-!
The text of a number: the shortest digits that round to it, in plain notation while the
decimal point falls at most six places before the first digit and at most twenty-one places
after it, and with an exponent beyond that.
-/
namespace PropertyDelete

namespace Scientific

/-- The digits of the coefficient without trailing zeros. -/
def significantDigits (s : Scientific) : List Char :=
  ((Decimal.digits s.coefficient).reverse.dropWhile (· = '0')).reverse

/-- How many places after the start of the digits the decimal point falls. -/
def pointPosition (s : Scientific) : Int := (Decimal.digits s.coefficient).length + s.exponent

def exponentChars (e : Int) : List Char :=
  'e' :: (if e < 0 then '-' else '+') :: Decimal.digits e.natAbs

/-- The characters of a positive decimal value. -/
def chars (s : Scientific) : List Char :=
  let ds := s.significantDigits
  let point := s.pointPosition
  if 0 < point ∧ point ≤ 21 then
    let whole := point.toNat
    if ds.length ≤ whole then ds ++ List.replicate (whole - ds.length) '0'
    else ds.take whole ++ '.' :: ds.drop whole
  else if -6 < point ∧ point ≤ 0 then
    '0' :: '.' :: List.replicate (-point).toNat '0' ++ ds
  else
    match ds with
    | [] => []
    | [d] => d :: exponentChars (point - 1)
    | d :: more => d :: '.' :: more ++ exponentChars (point - 1)

end Scientific

namespace Number

/-- The absolute value of a finite number other than zero, as a binary value. -/
def toBinary (n : Number) : Binary :=
  ⟨n.significand, n.exponent, n.fraction == 0 && 1 < n.biasedExponent⟩

def chars (n : Number) : List Char :=
  if n.isNaN then "NaN".toList
  else if n.isZero then ['0']
  else if n.isInfinite then (if n.isNegative then "-Infinity" else "Infinity").toList
  else if n.isNegative then '-' :: n.toBinary.shortest.chars
  else n.toBinary.shortest.chars

def text (n : Number) : String := String.ofList n.chars

end Number
end PropertyDelete
