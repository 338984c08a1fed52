import PropertyDelete.Object.Native
import PropertyDelete.Delete.Outcome

/-!
Deletes on native objects and on strings. Only own properties are looked at. An element slot
is emptied without moving the others; a string has no property that can be deleted.
-/
namespace PropertyDelete

namespace NativeObject

/-- Deletes an own property by its storage text. -/
def deleteOrdinary (o : NativeObject) (key : Key) (strict : Bool) : Outcome × NativeObject :=
  match o.ownProperty? key.storageText with
  | none => (.ok true, o)
  | some d =>
    if d.isConfigurable then (.ok true, o.erase key.storageText)
    else (.notConfigurable key strict, o)

def deleteElement (o : NativeObject) (i : Nat) : Outcome × NativeObject :=
  (.ok true, o.punchHole i)

/-- Deletes a property of an array-like object: an element for an index, else as usual. -/
def deleteArrayProperty (o : NativeObject) (key : Key) (strict : Bool) :
    Outcome × NativeObject :=
  match key with
  | .index i => o.deleteElement i
  | _ => o.deleteOrdinary key strict

end NativeObject

namespace Utf16

/-- Deletes an index of a string: units in range are fixed. -/
def deleteIndex (t : Utf16) (i : Nat) (key : Key) (strict : Bool) : Outcome :=
  if i < t.length then .notConfigurable key strict else .ok true

/-- Deletes a property of a string: its units and its length are fixed. -/
def deleteProperty (t : Utf16) (key : Key) (strict : Bool) : Outcome :=
  match key with
  | .index i => t.deleteIndex i key strict
  | _ => if key.isNamed "length" then .notConfigurable key strict else .ok true

end Utf16
end PropertyDelete
