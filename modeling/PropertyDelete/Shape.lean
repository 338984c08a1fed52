/-!
Shapes: the closed set of categories by which the operands of a delete are told apart. The
entries of a site are guarded on a pair of shapes, never on the operands themselves.
-/
namespace PropertyDelete

/-- The category of a delete's target. -/
inductive TargetShape where
  /-- A native object without element storage. -/
  | ordinaryObject
  /-- A native object with element storage. -/
  | arrayLikeObject
  | primitiveString
  /-- A number or a big integer. -/
  | numericValue
  | symbolValue
  /-- A boolean, undefined or null. -/
  | otherPrimitive
  | foreignObject
  deriving DecidableEq, Repr, Inhabited

/-- The category of a property key. -/
inductive KeyShape where
  | string
  | index
  | symbol
  deriving DecidableEq, Repr, Inhabited

structure Shapes where
  target : TargetShape
  key : KeyShape
  deriving DecidableEq, Repr, Inhabited

end PropertyDelete
