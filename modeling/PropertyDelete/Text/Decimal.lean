/-!
Natural numbers and integers as decimal text. `digits` writes a number without leading
zeros. The readers differ in what they admit: `readUnsigned?` takes an optional plus sign
and any leading zeros, below a bound; `readInteger?` takes either sign and skips
underscores after the first digit.
-/
namespace PropertyDelete.Decimal

/-- The decimal digits of a number, without leading zeros; zero has one digit. -/
def digits (n : Nat) : List Char := Nat.toDigits 10 n

def text (n : Nat) : String := String.ofList (digits n)

/-- The decimal text of an integer, with a minus sign in front of a negative one. -/
def signedText : Int → String
  | .ofNat n => text n
  | .negSucc n => String.ofList ('-' :: digits (n + 1))

def digit? (c : Char) : Option Nat :=
  if '0' ≤ c ∧ c ≤ '9' then some (c.toNat - '0'.toNat) else none

/-- The number that `acc` becomes when more decimal digits are written after its own. -/
def extend? : List Char → Nat → Option Nat
  | [], acc => some acc
  | c :: rest, acc => (digit? c).bind fun d => extend? rest (acc * 10 + d)

/-- The value of one or more decimal digits, leading zeros included. -/
def value? : List Char → Option Nat
  | [] => none
  | c :: rest => extend? (c :: rest) 0

/-- A number below `bound` written as an optional plus sign and one or more digits. -/
def readUnsigned? (bound : Nat) (cs : List Char) : Option Nat :=
  let body := match cs with
    | '+' :: rest => rest
    | _ => cs
  (value? body).filter (· < bound)

/-- Digits and underscores after a first digit; the underscores count for nothing. -/
def readGrouped? : List Char → Option Nat
  | [] => none
  | c :: rest =>
    (digit? c).bind fun d => extend? (rest.filter (· ≠ '_')) d

/-- An integer written as an optional sign, a digit, and then digits and underscores. -/
def readInteger? : List Char → Option Int
  | '-' :: rest => (readGrouped? rest).map fun n : Nat => -(n : Int)
  | '+' :: rest => (readGrouped? rest).map Int.ofNat
  | cs => (readGrouped? cs).map Int.ofNat

end PropertyDelete.Decimal
