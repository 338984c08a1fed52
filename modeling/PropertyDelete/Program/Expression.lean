import PropertyDelete.Identifier.Basic
import PropertyDelete.Number.Basic

/-!
Expressions, as far as they can have a delete in them: literals, identifiers, the three forms
of member access, deletes, and sequences.
-/
namespace PropertyDelete

inductive Literal where
  | undefined
  | null
  | boolean (b : Bool)
  | number (n : Number)
  | string (s : String)
  | bigint (text : String)
  deriving DecidableEq, Repr

inductive Expression where
  | literal (l : Literal)
  | identifier (i : Identifier)
  /-- A member named in the source. -/
  | dot (object : Expression) (name : Identifier)
  /-- A member whose key is computed. -/
  | index (object key : Expression)
  /-- A private member. -/
  | privateMember (object : Expression) (name : Identifier)
  | delete (operand : Expression)
  | sequence (items : List Expression)
  deriving Repr

namespace Expression

/-- The identifier expression of a name. -/
def ident (name : String) : Expression := .identifier (.new ⟨0, 0⟩ name)

/-- The member of a name. -/
def member (object : Expression) (name : String) : Expression :=
  .dot object ((Identifier.new ⟨0, 0⟩ name).set .propertyName)

end Expression
end PropertyDelete
