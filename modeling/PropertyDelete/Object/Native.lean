import PropertyDelete.Object.Table
import PropertyDelete.Key.ArrayIndex

/-!
Native objects: a property table, and for array-like objects a row of element slots, some of
which may be holes. The length of the row is an own property that cannot be deleted; it does
not change when an element is deleted.
-/
namespace PropertyDelete

/-- An object of the engine. -/
structure NativeObject where
  className : String := "Object"
  table : PropertyTable := {}
  prototype : Option ObjectRef := none
  /-- The element slots of an array-like object; `none` in a slot is a hole. -/
  elements : Option (List (Option Value)) := none
  /-- The primitive value that the object wraps. -/
  primitive : Option Value := none
  deriving Inhabited

namespace NativeObject

/-- An array without holes. -/
def array (values : List Value) : NativeObject where
  className := "Array"
  elements := some (values.map some)

def isArrayLike (o : NativeObject) : Bool := o.elements.isSome

def length (o : NativeObject) : Nat := (o.elements.map List.length).getD 0

/-- The value in an element slot. -/
def element? (o : NativeObject) (i : Nat) : Option Value :=
  o.elements.bind fun slots => (slots[i]?).join

/-- The object with a hole in an element slot, if it has that slot. -/
def punchHole (o : NativeObject) (i : Nat) : NativeObject :=
  { o with elements := o.elements.map fun slots => slots.set i none }

/-- The length of an array-like object as a property. -/
def lengthProperty (o : NativeObject) : Descriptor :=
  .data (.number (.ofNat o.length)) true false false

/-- The own property stored under a text: from the table, else the length or a filled element
slot of an array-like object. -/
def ownProperty? (o : NativeObject) (key : String) : Option Descriptor :=
  match o.table.find? key with
  | some d => some d
  | none =>
    if !o.isArrayLike then none
    else if key = "length" then some o.lengthProperty
    else (ArrayIndex.slot? key).bind fun i => (o.element? i).map Descriptor.plain

def hasOwnProperty (o : NativeObject) (key : String) : Bool := (o.ownProperty? key).isSome

/-- The object with a property in its table. -/
def insert (o : NativeObject) (key : String) (d : Descriptor) : NativeObject :=
  { o with table := o.table.insert key d }

/-- The object without a property in its table, whatever its attributes. -/
def erase (o : NativeObject) (key : String) : NativeObject :=
  { o with table := o.table.erase key }

end NativeObject
end PropertyDelete
