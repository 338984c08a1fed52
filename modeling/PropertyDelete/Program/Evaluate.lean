import PropertyDelete.Program.Interpreter

/-!
Evaluation of compiled programs. A program ends normally with a value or throws one. The base
of a member access is evaluated before the key, and is checked for undefined and null only
when the key has been evaluated.
-/
namespace PropertyDelete

/-- What evaluation works on: the interpreter and the store. -/
structure Machine where
  interpreter : Interpreter
  store : Store
  deriving Inhabited

/-- How a program ends: with a thrown value, or normally. -/
abbrev Completion := Except Value Value

/-- A computation that may change the machine and throw a value. -/
abbrev Evaluation := ExceptT Value (StateM Machine)

namespace Interpreter

def errorObject (i : Interpreter) (name message : String) : NativeObject :=
  NativeObject.insert
    (NativeObject.insert { className := name, prototype := some i.errorPrototype } "message"
      (.plain (Value.ofString message)))
    "name" (.plain (Value.ofString name))

end Interpreter

namespace Evaluation

/-- Performs a computation on the store. -/
def onStore {α : Type} (x : StoreM α) : Evaluation α :=
  modifyGet fun m =>
    let answer := x.run m.store
    (answer.1, { m with store := answer.2 })

def raise {α : Type} (name message : String) : Evaluation α := do
  let error := (← get).interpreter.errorObject name message
  let o ← onStore (modifyGet fun s => s.allocate error)
  throw (.object o)

def raiseTypeError {α : Type} (message : String) : Evaluation α := raise "TypeError" message

def global (name : String) : Evaluation Value := do
  match (← get).interpreter.globals.get? name with
  | some v => return v
  | none => raise "ReferenceError" (name ++ " is not defined")

/-- Requires a base that is neither undefined nor null. -/
def requireObject (base key : Value) : Evaluation Unit := do
  if base.isNullish then
    let heap := (← get).store.heap
    raiseTypeError ("Cannot convert " ++ heap.display base ++ " to object (property '" ++
      (heap.toKey key).display ++ "')")

def readMember (base key : Value) : Evaluation Value := do
  requireObject base key
  let key := (← get).store.heap.toKey key
  onStore (Store.read base key)

/-- Deletes a property at a site of the interpreter. -/
def deleteMember (base key : Value) (site : UInt32) : Evaluation Value := do
  requireObject base key
  let i := (← get).interpreter
  let answer ← onStore (i.arena.execute deletion site.toNat base key)
  modify fun m => { m with interpreter := { m.interpreter with arena := answer.2 } }
  match answer.1 with
  | none => raiseTypeError "Unknown delete site"
  | some (.ok deleted) => return .boolean deleted
  | some (.error e) => raiseTypeError e.message

end Evaluation

namespace Node

open Evaluation

mutual

/-- The value of a node. -/
def evaluate : Node → Evaluation Value
  | .constant v => return v
  | .global name => Evaluation.global name
  | .member object key => do
    let base ← evaluate object
    let key ← evaluate key
    readMember base key
  | .deleteProperty object key site => do
    let base ← evaluate object
    let key ← evaluate key
    deleteMember base key site
  | .deleteBinding name => return .boolean (!(← get).interpreter.globals.contains name)
  | .deleteValue operand => do
    let _ ← evaluate operand
    return .boolean true
  | .sequence items => evaluateAll items .undefined

/-- The value of the last of some nodes, after all before it; `last` if there are none. -/
def evaluateAll : List Node → (last : Value) → Evaluation Value
  | [], last => return last
  | node :: rest, _ => do
    let v ← evaluate node
    evaluateAll rest v

end

end Node

namespace Machine

def evaluate (m : Machine) (script : Script) : Completion × Machine :=
  script.root.evaluate.run.run m

/-- Compiles a program and evaluates it. -/
def run (m : Machine) (e : Expression) (strict : Bool) :
    Except CompileError Completion × Machine :=
  match m.interpreter.compile e strict with
  | (.error err, interpreter) => (.error err, { m with interpreter })
  | (.ok script, interpreter) =>
    let answer := { m with interpreter : Machine }.evaluate script
    (.ok answer.1, answer.2)

end Machine

namespace Heap

/-- The text of a thrown value: name and message of an object that has both as strings, else
as it is displayed. -/
def errorMessage (h : Heap) (v : Value) : String :=
  match v with
  | .object o =>
    match h.property o "name", h.property o "message" with
    | .string name, .string message => name.toString ++ ": " ++ message.toString
    | _, _ => h.display v
  | _ => h.display v

end Heap
end PropertyDelete
