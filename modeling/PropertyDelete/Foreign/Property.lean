import PropertyDelete.Foreign.Dialogue
import PropertyDelete.Object.Descriptor
import PropertyDelete.Key.Basic

/-!
The properties of a foreign object, as far as it admits them: members first, then indexed
elements. A member or element that may be removed is a configurable property.
-/
namespace PropertyDelete.Foreign

/-- The member of a key's name as a property. -/
def memberProperty? (name : String) : Dialogue (Option Descriptor) := do
  if !(← .capability .hasMembers) then return none
  if !(← .capability (.isMemberExisting name)) then return none
  match Reply.value? (← .send (.readMember name)) with
  | none => return none
  | some value =>
    let removable ← .capability (.isMemberRemovable name)
    return some (.data value true true removable)

/-- The element of an index as a property. -/
def elementProperty? (i : Nat) : Dialogue (Option Descriptor) := do
  if !(← .capability .hasArrayElements) then return none
  if !(← .capability (.isArrayElementExisting i)) then return none
  match Reply.value? (← .send (.readArrayElement i)) with
  | none => return none
  | some value =>
    let removable ← .capability (.isArrayElementRemovable i)
    return some (.data value true true removable)

/-- The own property that a key names. -/
def ownProperty? (key : Key) : Dialogue (Option Descriptor) := do
  if let some name := key.name? then
    if let some d ← memberProperty? name then return some d
  match key.index? with
  | some i => elementProperty? i
  | none => return none

def hasMember (name : String) : Dialogue Bool := do
  if !(← .capability .hasMembers) then return false
  .capability (.isMemberExisting name)

/-- Whether there is an element at an index. An object that does not say is asked its size. -/
def hasElement (i : Nat) : Dialogue Bool := do
  if !(← .capability .hasArrayElements) then return false
  match ← .send (.isArrayElementExisting i) with
  | .ok present => return present
  | .error _ =>
    match Reply.size? (← .send .arraySize) with
    | some size => return decide (i < size)
    | none => return false

/-- Whether a key names an existing member or element. -/
def hasProperty (key : Key) : Dialogue Bool := do
  if let some name := key.name? then
    if ← hasMember name then return true
  match key.index? with
  | some i => hasElement i
  | none => return false

end PropertyDelete.Foreign
