import PropertyDelete.Dictionary
import PropertyDelete.Foreign.Message

/-!
The foreign objects an embedder has ready: a record of members, a list of elements, a map of
hash entries, and a scripted object that gives fixed replies and passes on what it has no
reply for. Each host object is a value; receiving a message yields the reply and the object
afterwards.
-/
namespace PropertyDelete

structure Member where
  name : String
  value : Value
  removable : Bool
  deriving DecidableEq, Repr

/-- Named members, in order; a name may occur more than once. A locked record still says that
its members are removable, but removes none. -/
structure MemberRecord where
  members : List Member := []
  locked : Bool := false
  deriving DecidableEq, Repr, Inhabited

namespace MemberRecord

def withMember (r : MemberRecord) (name : String) (value : Value) (removable : Bool) :
    MemberRecord :=
  { r with members := r.members ++ [⟨name, value, removable⟩] }

def find? (r : MemberRecord) (name : String) : Option Member :=
  r.members.find? fun m => m.name == name

/-- Removal of all members of a name, if the first one is removable and nothing is locked. -/
def remove (r : MemberRecord) (name : String) : Reply .done × MemberRecord :=
  match r.find? name with
  | none => (.error (.unknownIdentifier name), r)
  | some m =>
    if !m.removable then (.error (.unsupported "removeMember"), r)
    else if r.locked then (.error (.failed ("record is locked: " ++ name)), r)
    else (.ok (), { r with members := r.members.filter fun m => m.name ≠ name })

/-- What a record replies, and the record afterwards. -/
def receive (r : MemberRecord) : {k : ReplyKind} → Message k → Reply k × MemberRecord
  | _, .hasMembers => (.ok true, r)
  | _, .isMemberExisting name => (.ok (r.find? name).isSome, r)
  | _, .isMemberRemovable name => (.ok ((r.find? name).any Member.removable), r)
  | _, .removeMember name => r.remove name
  | _, .readMember name =>
    match r.find? name with
    | some m => (.ok m.value, r)
    | none => (.error (.unknownIdentifier name), r)
  | _, m => (m.unanswered, r)

end MemberRecord

/-- A fixed row of elements. It has no holes, so no element is removable. -/
structure ElementList where
  elements : List Value := []
  deriving DecidableEq, Repr, Inhabited

/-- What a list replies. -/
def ElementList.reply (l : ElementList) : {k : ReplyKind} → Message k → Reply k
  | _, .hasArrayElements => .ok true
  | _, .arraySize => .ok l.elements.length
  | _, .isArrayElementExisting i => .ok (decide (i < l.elements.length))
  | _, .isArrayElementRemovable _ => .ok false
  | _, .readArrayElement i =>
    match l.elements[i]? with
    | some v => .ok v
    | none => .error (.invalidArrayIndex i)
  | _, m => m.unanswered

/-- Hash entries under the texts of their keys. A frozen map removes none. -/
structure EntryMap where
  entries : Dictionary Value := {}
  frozen : Bool := false
  deriving Inhabited

namespace EntryMap

/-- Removal of the entry under the text of a key. -/
def remove (m : EntryMap) (key : String) : Reply .done × EntryMap :=
  if !m.entries.contains key then (.error .unknownKey, m)
  else if m.frozen then (.error (.failed "map is frozen"), m)
  else (.ok (), { m with entries := m.entries.erase key })

/-- What a map replies, and the map afterwards, where `text` is the text of a value. -/
def receive (m : EntryMap) (text : Value → String) :
    {k : ReplyKind} → Message k → Reply k × EntryMap
  | _, .hasHashEntries => (.ok true, m)
  | _, .removeHashEntry key => m.remove (text key)
  | _, message => (message.unanswered, m)

end EntryMap

/-- An object that gives fixed replies. A message without a reply is passed on to the base,
if there is one. -/
structure ScriptedObject where
  reply? : {k : ReplyKind} → Message k → Option (Reply k)
  base : Option ForeignRef := none

inductive ForeignObject where
  | record (r : MemberRecord)
  | list (l : ElementList)
  | map (m : EntryMap)
  | scripted (s : ScriptedObject)

end PropertyDelete
