import PropertyDelete.Program.Compile

/-!
Interpreters: options, global variables, and the arena of delete sites of the programs that
were compiled by it. All interpreters of a store share its heap.
-/
namespace PropertyDelete

structure Interpreter where
  options : Options
  arena : DeleteArena := {}
  globals : Dictionary Value := {}
  /-- The prototype of the errors that the interpreter makes. -/
  errorPrototype : ObjectRef
  deriving Inhabited

namespace Interpreter

/-- The object that all errors of an interpreter inherit from. -/
def errorPrototypeObject : NativeObject :=
  NativeObject.insert
    (NativeObject.insert { className := "Error" } "name" (.plain (Value.ofString "Error")))
    "message" (.plain (Value.ofString ""))

/-- The variables that every program finds defined. -/
def initialGlobals : Dictionary Value :=
  ⟨[("undefined", .undefined), ("NaN", .number .nan), ("Infinity", .number .infinity)]⟩

/-- A new interpreter. -/
def new (options : Options) : StoreM Interpreter := do
  let o ← modifyGet fun s => s.allocate errorPrototypeObject
  return { options, globals := initialGlobals, errorPrototype := o }

/-- The interpreter with a global variable. -/
def define (i : Interpreter) (name : String) (v : Value) : Interpreter :=
  { i with globals := i.globals.insert name v }

/-- The interpreter with the flag of its sites set or cleared. -/
def interrupt (i : Interpreter) (b : Bool) : Interpreter :=
  { i with arena := { i.arena with interrupted := i.arena.interrupted.put .main b } }

def compile (i : Interpreter) (e : Expression) (strict : Bool) :
    Except CompileError Script × Interpreter :=
  let answer := (Expression.compile i.options strict e).run.run i.arena
  (answer.1.map fun root => ⟨root, strict⟩, { i with arena := answer.2 })

end Interpreter
end PropertyDelete
