import PropertyDelete.Foreign.Dialogue
import PropertyDelete.Delete.Outcome

/-!
Deletes on foreign objects, as dialogues. With the hash option on, an object that has hash
entries is first asked to remove the one under the key; if it does not implement that, the
delete goes on as if it had none. Next come members, by name. An index names a member only
of an object without indexed elements; of one that has them, it names an element, which is
fixed while it is in range.
-/
namespace PropertyDelete.Foreign

/-- Removal of a hash entry. No answer means that the delete goes on to members. -/
def deleteHashEntry (key : Key) (policy : DeletePolicy) : Dialogue (Option Outcome) := do
  if !policy.foreignHash then return none
  if !(← .capability .hasHashEntries) then return none
  match ← .send (.removeHashEntry key.toValue) with
  | .ok () | .error .unknownKey => return some (.ok true)
  | .error (.unsupported _) => return none
  | .error r => return some (.refused key r policy.strict)

/-- Removal of a member. Only an object that says outright that the member is not removable
is not asked to remove it. -/
def deleteMember (name : String) (key : Key) (strict : Bool) : Dialogue Outcome := do
  if !(← .capability (.isMemberExisting name)) then return .ok true
  match ← .send (.isMemberRemovable name) with
  | .ok false => return .notConfigurable key strict
  | _ =>
    match ← .send (.removeMember name) with
    | .ok () => return .ok true
    | .error r => return .refused key r strict

/-- Deletion of an element: refused in range, and trivial beyond. -/
def deleteElement (i : Nat) (key : Key) (strict : Bool) : Dialogue Outcome := do
  match Reply.size? (← .send .arraySize) with
  | none => return .ok true
  | some size => return if i < size then .notConfigurable key strict else .ok true

/-- Deletion by a text key: hash entries, then members. -/
def deleteNamed (key : Key) (policy : DeletePolicy) : Dialogue Outcome := do
  if let some outcome ← deleteHashEntry key policy then return outcome
  match key.name? with
  | some name =>
    if ← .capability .hasMembers then deleteMember name key policy.strict else return .ok true
  | none => return .ok true

/-- The name by which a key reaches members, where the object may have indexed elements. -/
def memberName? (key : Key) (indexed : Bool) : Option String :=
  match key with
  | .text _ => key.name?
  | .index _ => if indexed then none else key.name?
  | .symbol _ => none

def delete (key : Key) (policy : DeletePolicy) : Dialogue Outcome := do
  if let some outcome ← deleteHashEntry key policy then return outcome
  let indexed ← .capability .hasArrayElements
  let members ← .capability .hasMembers
  match memberName? key indexed, members with
  | some name, true => deleteMember name key policy.strict
  | _, _ =>
    match key, indexed with
    | .index i, true => deleteElement i key policy.strict
    | _, _ => return .ok true

end PropertyDelete.Foreign
