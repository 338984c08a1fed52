import PropertyDelete.Text.Utf16
import PropertyDelete.Text.Decimal
import PropertyDelete.Number.Text

/-!
The values of the language. Objects are held by reference: a native object is looked up in
the heap, a foreign one belongs to the embedder and is only ever sent messages.
-/
namespace PropertyDelete

structure ObjectRef where
  index : Nat
  deriving DecidableEq, Repr, Inhabited

/-- A reference to an object of the embedder. -/
structure ForeignRef where
  index : Nat
  deriving DecidableEq, Repr, Inhabited

theorem ObjectRef.index_ne {o p : ObjectRef} (h : o ≠ p) : o.index ≠ p.index :=
  fun e => h (congrArg mk e)

theorem ForeignRef.index_ne {f g : ForeignRef} (h : f ≠ g) : f.index ≠ g.index :=
  fun e => h (congrArg mk e)

/-- A symbol. Its identity is the number; the description is for display. -/
structure Symbol where
  id : Nat
  description : Option Utf16
  deriving DecidableEq, Repr, Inhabited

inductive Value where
  | undefined
  | null
  | boolean (b : Bool)
  | number (n : Number)
  | string (t : Utf16)
  | symbol (s : Symbol)
  | bigint (z : Int)
  | object (o : ObjectRef)
  | foreign (f : ForeignRef)
  deriving DecidableEq, Repr, Inhabited

namespace Symbol

/-- The characters of the description, none for a symbol without one. -/
def descriptionChars (s : Symbol) : List Char :=
  match s.description with
  | some d => Utf16.decodeUnits d.units
  | none => []

/-- The characters of the symbol as it is displayed. -/
def displayChars (s : Symbol) : List Char :=
  "Symbol(".toList ++ s.descriptionChars ++ [')']

def display (s : Symbol) : String := String.ofList s.displayChars

/-- Whether the symbol is one of the language's own: its description says so. -/
def isWellKnown (s : Symbol) : Bool := "Symbol.".toList.isPrefixOf s.descriptionChars

/-- The text under which a property named by the symbol is stored. The language's own
symbols share one text per description; every other symbol has its number in it. -/
def storageText (s : Symbol) : String :=
  if s.isWellKnown then s.display
  else String.ofList (s.displayChars ++ '#' :: Decimal.digits s.id)

end Symbol

namespace Value

def isNullish : Value → Bool
  | .undefined | .null => true
  | _ => false

def ofString (s : String) : Value := .string (Utf16.ofString s)

end Value
end PropertyDelete
