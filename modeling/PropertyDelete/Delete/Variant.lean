import PropertyDelete.Shape

/-!
The variants of the delete operation, each made for the targets and keys of certain shapes.
Several may accept the same pair of shapes; one of them is the narrowest.
-/
namespace PropertyDelete

inductive DeleteVariant where
  | ordinaryObject
  | arrayIndex
  | arrayProperty
  | stringIndex
  | stringProperty
  | symbol
  | numeric
  | otherPrimitive
  | foreignMember
  | foreignElement
  | foreignObject
  deriving DecidableEq, Repr, Inhabited

namespace DeleteVariant

/-- All variants, in the order of their declaration. -/
def all : List DeleteVariant :=
  [ordinaryObject, arrayIndex, arrayProperty, stringIndex, stringProperty, symbol, numeric,
    otherPrimitive, foreignMember, foreignElement, foreignObject]

def name : DeleteVariant → String
  | ordinaryObject => "OrdinaryObject"
  | arrayIndex => "ArrayIndex"
  | arrayProperty => "ArrayProperty"
  | stringIndex => "StringIndex"
  | stringProperty => "StringProperty"
  | symbol => "Symbol"
  | numeric => "Numeric"
  | otherPrimitive => "OtherPrimitive"
  | foreignMember => "ForeignMember"
  | foreignElement => "ForeignElement"
  | foreignObject => "ForeignObject"

/-- Whether a variant serves a pair of shapes. -/
def accepts : DeleteVariant → Shapes → Bool
  | ordinaryObject, p => p.target == .ordinaryObject
  | arrayIndex, p => p.target == .arrayLikeObject && p.key == .index
  | arrayProperty, p => p.target == .arrayLikeObject
  | stringIndex, p => p.target == .primitiveString && p.key == .index
  | stringProperty, p => p.target == .primitiveString
  | symbol, p => p.target == .symbolValue
  | numeric, p => p.target == .numericValue
  | otherPrimitive, p => p.target == .otherPrimitive
  | foreignMember, p => p.target == .foreignObject && p.key == .string
  | foreignElement, p => p.target == .foreignObject && p.key == .index
  | foreignObject, p => p.target == .foreignObject

/-- The narrowest variant that serves a pair of shapes. -/
def narrowest (p : Shapes) : DeleteVariant :=
  match p.target, p.key with
  | .ordinaryObject, _ => ordinaryObject
  | .arrayLikeObject, .index => arrayIndex
  | .arrayLikeObject, _ => arrayProperty
  | .primitiveString, .index => stringIndex
  | .primitiveString, _ => stringProperty
  | .symbolValue, _ => symbol
  | .numericValue, _ => numeric
  | .otherPrimitive, _ => otherPrimitive
  | .foreignObject, .string => foreignMember
  | .foreignObject, .index => foreignElement
  | .foreignObject, .symbol => foreignObject

end DeleteVariant

end PropertyDelete
