import PropertyDelete.Text.Utf16
import PropertyDelete.Text.Decimal

/-!
Array indices: the integers from 0 to 2^32 - 2, and the two places where a text is
recognised as one. `ofText?` reads the code units of a key, `slot?` the text under which a
property is stored; `slot?` also admits 2^32 - 1, which no key can be.
-/
namespace PropertyDelete.ArrayIndex

def maximum : Nat := Nat.pow 2 32 - 2

/-- The value of a code unit that is a decimal digit. -/
def unitDigit? (u : UInt16) : Option Nat :=
  if 0x30 ≤ u ∧ u ≤ 0x39 then some (u.toNat - 0x30) else none

/-- The number that `acc` becomes when more digits are written after its own. -/
def extend? : List UInt16 → Nat → Option Nat
  | [], acc => some acc
  | u :: rest, acc => (unitDigit? u).bind fun d => extend? rest (acc * 10 + d)

/-- The array index that a text writes in its one canonical form: digits only, no leading
zero, at most ten of them, and no more than the largest index. -/
def ofText? (t : Utf16) : Option Nat :=
  if t.isEmpty || 10 < t.length then none
  else if 1 < t.length && t.units.head? == some 0x30 then none
  else (extend? t.units 0).filter (· ≤ maximum)

/-- The element slot that a storage key names: a number of 32 bits whose text is the key. -/
def slot? (key : String) : Option Nat :=
  (Decimal.readUnsigned? (Nat.pow 2 32) key.toList).filter fun i => Decimal.text i == key

end PropertyDelete.ArrayIndex
