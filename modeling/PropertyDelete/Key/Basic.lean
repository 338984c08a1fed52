import PropertyDelete.Value
import PropertyDelete.Shape
import PropertyDelete.Key.ArrayIndex

/-!
Property keys. A text that is the canonical form of an array index is an index key and never
a text key (`ofText`); a symbol is a key of its own. Each key has a storage text, under which
a native object keeps the property.
-/
namespace PropertyDelete

inductive Key where
  | text (t : Utf16)
  | index (i : Nat)
  | symbol (s : Symbol)
  deriving DecidableEq, Repr, Inhabited

namespace Key

/-- The key that a text names. -/
def ofText (t : Utf16) : Key :=
  match ArrayIndex.ofText? t with
  | some i => .index i
  | none => .text t

def ofString (s : String) : Key := ofText (Utf16.ofString s)

/-- The key that a number names: its value, where that is an array index, else its text. -/
def ofNumber (n : Number) : Key :=
  match n.integer? with
  | some (.ofNat i) => if i ≤ ArrayIndex.maximum then .index i else .text (Utf16.ofString n.text)
  | _ => .text (Utf16.ofString n.text)

/-- Whether two keys name the same property. Symbols are compared by their numbers. -/
def same : Key → Key → Bool
  | .text a, .text b => a == b
  | .index i, .index j => i == j
  | .symbol a, .symbol b => a.id == b.id
  | _, _ => false

def shape : Key → KeyShape
  | .text _ => .string
  | .index _ => .index
  | .symbol _ => .symbol

def index? : Key → Option Nat
  | .index i => some i
  | _ => none

/-- The text under which a native object keeps the property. -/
def storageText : Key → String
  | .text t => t.toString
  | .index i => Decimal.text i
  | .symbol s => s.storageText

def name? : Key → Option String
  | .text t => some t.toString
  | .index i => some (Decimal.text i)
  | .symbol _ => none

/-- Whether a key is the text key of a given name. -/
def isNamed (k : Key) (name : String) : Bool :=
  match k with
  | .text t => t.equalsString name
  | _ => false

/-- The value that stands for a key. -/
def toValue : Key → Value
  | .text t => .string t
  | .index i => Value.ofString (Decimal.text i)
  | .symbol s => .symbol s

/-- The text of a key as it is displayed. -/
def display : Key → String
  | .text t => t.toString
  | .index i => Decimal.text i
  | .symbol s => s.display

end Key
end PropertyDelete
