/-!
Text as UTF-16 code units. A text need not be well formed: a surrogate may stand
without its other half. Writing a character string as units (`ofString`) never loses
anything; reading units as a character string (`toString`) puts the replacement
character U+FFFD in the place of each surrogate that stands alone.
-/
namespace PropertyDelete

/-- A text held as 16-bit code units, well formed or not. -/
structure Utf16 where
  units : List UInt16
  deriving DecidableEq, Repr, Inhabited

namespace Utf16

/-- Whether a unit is the first half of a surrogate pair. -/
def isLeading (u : UInt16) : Bool := 0xD800 ≤ u && u < 0xDC00

/-- Whether a unit is the second half of a surrogate pair. -/
def isTrailing (u : UInt16) : Bool := 0xDC00 ≤ u && u < 0xE000

def isSurrogate (u : UInt16) : Bool := isLeading u || isTrailing u

/-- The units of one character: one below U+10000, a surrogate pair from there on. -/
def encodeChar (c : Char) : List UInt16 :=
  if c.toNat < 0x10000 then
    [UInt16.ofNat c.toNat]
  else
    let offset := c.toNat - 0x10000
    [UInt16.ofNat (0xD800 + offset / 0x400), UInt16.ofNat (0xDC00 + offset % 0x400)]

/-- The character of a unit that is not part of a pair. -/
def decodeUnit (u : UInt16) : Char :=
  if isSurrogate u then '\uFFFD' else Char.ofNat u.toNat

/-- The character of a surrogate pair. -/
def decodePair (u v : UInt16) : Char :=
  Char.ofNat (0x10000 + (u.toNat - 0xD800) * 0x400 + (v.toNat - 0xDC00))

/-- The characters of a list of units, with U+FFFD for each surrogate standing alone. -/
def decodeUnits : List UInt16 → List Char
  | [] => []
  | [u] => [decodeUnit u]
  | u :: v :: rest =>
    if isLeading u && isTrailing v then decodePair u v :: decodeUnits rest
    else decodeUnit u :: decodeUnits (v :: rest)

/-- Whether every surrogate of a list of units belongs to a pair. -/
def wellFormedUnits : List UInt16 → Bool
  | [] => true
  | [u] => !isSurrogate u
  | u :: v :: rest =>
    if isLeading u && isTrailing v then wellFormedUnits rest
    else !isSurrogate u && wellFormedUnits (v :: rest)

def ofString (s : String) : Utf16 := ⟨s.toList.flatMap encodeChar⟩

/-- The characters of a text, with U+FFFD for each surrogate standing alone. -/
def toString (t : Utf16) : String := String.ofList (decodeUnits t.units)

/-- Whether every surrogate of the text belongs to a pair. -/
def wellFormed (t : Utf16) : Bool := wellFormedUnits t.units

def length (t : Utf16) : Nat := t.units.length

def isEmpty (t : Utf16) : Bool := t.units.isEmpty

/-- Whether the text has exactly the units of a character string. -/
def equalsString (t : Utf16) (s : String) : Bool := t == ofString s

end Utf16
end PropertyDelete
