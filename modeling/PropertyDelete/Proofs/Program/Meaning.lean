import PropertyDelete.Program.Evaluate
import PropertyDelete.Proofs.Text.Decimal

/-!
The meaning of expressions, told of the expressions themselves: no sites, no nodes and no
caches. The base of a member comes before its key, and is checked for undefined and null when
both are known. A delete of a member then asks whether it may run, and goes the generic way.
The values of literals, what a member reads as and the messages of errors are spelled out here,
so that evaluation is compared with what the source says and not with itself. A private member
has no meaning, since no program with one compiles; it counts as undefined.
-/
namespace PropertyDelete

/-! ## Reading -/

/-- The value that an object itself has under a text: that of the entry in its table, else that
of an array-like object's length or of one of its slots. -/
def NativeObject.ownValue? (o : NativeObject) (name : String) : Option Value :=
  match o.table.find? name, o.elements with
  | some d, _ => some (d.value.getD .undefined)
  | none, none => none
  | none, some slots =>
    if name = "length" then some (.number (.ofNat slots.length))
    else (ArrayIndex.slot? name).bind fun i => slots[i]?.join

/-- The value under a text that is found first among `bound` objects: the object itself, its
prototype, the prototype of that, and so on. -/
def Heap.valueWithin (h : Heap) (name : String) : (bound : Nat) → ObjectRef → Value
  | 0, _ => .undefined
  | bound + 1, o =>
    match (h.native o).ownValue? name, (h.native o).prototype with
    | some v, _ => v
    | none, some p => h.valueWithin name bound p
    | none, none => .undefined

/-- What the member of a value under a key is: the value that an object has or inherits, a unit of
a string or its length, the value of a property of a host object; in every other case undefined. -/
def Store.member (base : Value) (key : Key) : StoreM Value := do
  let heap := (← get).heap
  match base, key with
  | .object o, _ => return heap.valueWithin key.storageText (heap.natives.length + 1) o
  | .string t, .index i =>
    match t.units[i]? with
    | some unit => return .string ⟨[unit]⟩
    | none => return .undefined
  | .string t, .text name =>
    return if name = Utf16.ofString "length" then .number (.ofNat t.units.length) else .undefined
  | .foreign f, _ =>
    match ← (Foreign.ownProperty? key).runWith f with
    | some d => return d.value.getD .undefined
    | none => return .undefined
  | _, _ => return .undefined

/-! ## Expressions -/

/-- What the meaning of an expression depends on beside the store. -/
structure Scope where
  strict : Bool
  /-- Whether hash entries of foreign objects count as properties. -/
  foreignHash : Bool
  globals : Dictionary Value
  /-- Whether the host has asked to stop. -/
  interrupted : Bool
  /-- The prototype of the errors that are thrown. -/
  errorPrototype : ObjectRef

/-- The scope in which an interpreter evaluates programs of a given strictness. -/
def Interpreter.scope (i : Interpreter) (strict : Bool) : Scope where
  strict := strict
  foreignHash := i.options.foreignHash
  globals := i.globals
  interrupted := i.arena.interrupted.isSet .main
  errorPrototype := i.errorPrototype

/-- A meaning: it may change the store, and throw a value. -/
abbrev Meaning := ExceptT Value StoreM

namespace Scope

def policy (c : Scope) : DeletePolicy where
  strict := c.strict
  foreignHash := c.foreignHash
  interruptible := true

def error (c : Scope) (name message : String) : NativeObject :=
  let plain : NativeObject := { className := name, prototype := some c.errorPrototype }
  (plain.insert "message" (.plain (Value.ofString message))).insert "name"
    (.plain (Value.ofString name))

def raise {α : Type} (c : Scope) (name message : String) : Meaning α := do
  let o ← modifyGet fun s => s.allocate (c.error name message)
  throw (.object o)

/-- The error of a member of undefined or null. -/
def raiseNoObject (c : Scope) (base : String) (key : Value) : Meaning Unit := do
  let name := ((← get).heap.toKey key).display
  c.raise "TypeError" ("Cannot convert " ++ base ++ " to object (property '" ++ name ++ "')")

/-- Requires a base that is neither undefined nor null. -/
def requireObject (c : Scope) (base key : Value) : Meaning Unit :=
  match base with
  | .undefined => c.raiseNoObject "undefined" key
  | .null => c.raiseNoObject "null" key
  | _ => return

def read (c : Scope) (base key : Value) : Meaning Value := do
  c.requireObject base key
  let key := (← get).heap.toKey key
  Store.member base key

/-- What the answer of a delete comes to. -/
def settle (c : Scope) : Outcome → Meaning Value
  | .ok deleted => return .boolean deleted
  | .error (.notConfigurable key) =>
    c.raise "TypeError" ("Cannot delete non-configurable property '" ++ key ++ "'")
  | .error (.foreignRefusal key reason) =>
    c.raise "TypeError" ("Cannot delete property '" ++ key ++ "' of foreign object: " ++ reason)
  | .error .interrupted => c.raise "TypeError" "Execution interrupted"

/-- The delete of a member of a base that is neither undefined nor null. -/
def perform (c : Scope) (base key : Value) : Meaning Value := do
  if c.interrupted then c.raise "TypeError" "Execution interrupted"
  else
    let key := (← get).heap.toKey key
    c.settle (← Delete.generic c.policy base key)

def delete (c : Scope) (base key : Value) : Meaning Value := do
  c.requireObject base key
  c.perform base key

end Scope

/-- The value of a literal. A text that is no numeral stands for the number of its digits, though
no program with such a text compiles. -/
def Literal.meaning : Literal → Value
  | .undefined => .undefined
  | .null => .null
  | .boolean b => .boolean b
  | .number n => .number n
  | .string s => .string (Utf16.ofString s)
  | .bigint text => .bigint (Decimal.numeralValue text.toList)

namespace Expression

mutual

/-- The meaning of an expression. -/
def meaning (c : Scope) : Expression → Meaning Value
  | .literal l => return l.meaning
  | .identifier i =>
    match c.globals.get? i.name with
    | some v => return v
    | none => c.raise "ReferenceError" (i.name ++ " is not defined")
  | .dot object name => do
    let base ← meaning c object
    c.read base (Value.ofString name.name)
  | .index object key => do
    let base ← meaning c object
    let key ← meaning c key
    c.read base key
  | .privateMember _ _ => return .undefined
  | .delete (.dot object name) => do
    let base ← meaning c object
    c.delete base (Value.ofString name.name)
  | .delete (.index object key) => do
    let base ← meaning c object
    let key ← meaning c key
    c.delete base key
  | .delete (.identifier i) => return .boolean (!c.globals.contains i.name)
  | .delete operand => do
    let _ ← meaning c operand
    return .boolean true
  | .sequence items => meaningAll c items .undefined

/-- The meaning of the last of some expressions, after all before it; `last` if there are
none. -/
def meaningAll (c : Scope) : List Expression → (last : Value) → Meaning Value
  | [], last => return last
  | e :: rest, _ => do
    let v ← meaning c e
    meaningAll c rest v

end

end Expression
end PropertyDelete
