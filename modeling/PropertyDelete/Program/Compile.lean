import PropertyDelete.Delete.Operation
import PropertyDelete.Options
import PropertyDelete.Program.Expression
import PropertyDelete.Program.Script

/-!
Compilation. Operands are compiled before the delete around them, so sites are numbered in
the order in which evaluation reaches them. The first early error ends the compilation; sites
that were allocated before it stay.
-/
namespace PropertyDelete

/-- The errors that a program can be found to have before it runs. -/
inductive CompileError where
  /-- A delete of an identifier in strict mode. -/
  | strictIdentifierDelete (name : String)
  /-- A private member. -/
  | privateMember (name : String)
  | invalidBigint (text : String)
  deriving DecidableEq, Repr, Inhabited

def CompileError.message : CompileError → String
  | .strictIdentifierDelete name =>
    "Delete of an unqualified identifier '" ++ name ++ "' in strict mode"
  | .privateMember name => "Private field '#" ++ name ++ "' cannot be deleted"
  | .invalidBigint text => "Invalid BigInt literal: " ++ text

/-- A computation that may allocate delete sites and end in a compile error. -/
abbrev Compilation := ExceptT CompileError (StateM DeleteArena)

namespace Literal

def value : Literal → Except CompileError Value
  | .undefined => .ok .undefined
  | .null => .ok .null
  | .boolean b => .ok (.boolean b)
  | .number n => .ok (.number n)
  | .string s => .ok (Value.ofString s)
  | .bigint text =>
    match Decimal.readInteger? text.toList with
    | some z => .ok (.bigint z)
    | none => .error (.invalidBigint text)

end Literal

namespace Expression

/-- The number of a new delete site for programs of an engine. -/
def allocateSite (o : Options) (strict : Bool) : Compilation UInt32 :=
  modifyGet fun a =>
    a.allocate { strict, foreignHash := o.foreignHash, interruptible := true } o.limit

mutual

/-- The node of an expression. -/
def compile (o : Options) (strict : Bool) : Expression → Compilation Node
  | .literal l => return .constant (← liftExcept l.value)
  | .identifier i => return .global i.name
  | .dot object name => do
    let object ← compile o strict object
    return .member object (.constant (Value.ofString name.name))
  | .index object key => do
    let object ← compile o strict object
    let key ← compile o strict key
    return .member object key
  | .privateMember object name => do
    let _ ← compile o strict object
    throw (.privateMember name.name)
  | .delete (.dot object name) => do
    let object ← compile o strict object
    return .deleteProperty object (.constant (Value.ofString name.name))
      (← allocateSite o strict)
  | .delete (.index object key) => do
    let object ← compile o strict object
    let key ← compile o strict key
    return .deleteProperty object key (← allocateSite o strict)
  | .delete (.identifier i) =>
    if strict then throw (.strictIdentifierDelete i.name) else return .deleteBinding i.name
  | .delete operand => return .deleteValue (← compile o strict operand)
  | .sequence items => return .sequence (← compileAll o strict items)

/-- The nodes of expressions, first one first. -/
def compileAll (o : Options) (strict : Bool) : List Expression → Compilation (List Node)
  | [] => return []
  | e :: rest => do
    let node ← compile o strict e
    let nodes ← compileAll o strict rest
    return node :: nodes

end

end Expression
end PropertyDelete
