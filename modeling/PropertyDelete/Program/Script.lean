import PropertyDelete.Value

/-!
Compiled programs. A node is an expression in which every property delete carries the number
of its site; the site itself is kept in the arena of the interpreter that compiled it.
-/
namespace PropertyDelete

/-- A compiled expression. -/
inductive Node where
  | constant (v : Value)
  | global (name : String)
  | member (object key : Node)
  /-- The delete of a property, at a site. -/
  | deleteProperty (object key : Node) (site : UInt32)
  /-- The delete of an identifier. -/
  | deleteBinding (name : String)
  /-- The delete of anything that is not a reference. -/
  | deleteValue (operand : Node)
  | sequence (items : List Node)
  deriving Repr

structure Script where
  root : Node
  strict : Bool
  deriving Repr

end PropertyDelete
