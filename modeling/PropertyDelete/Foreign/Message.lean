import PropertyDelete.Value

/-!
The messages that a foreign object may be sent. The engine knows nothing of such an object
but what it replies: any message may be refused, and a refused capability counts as absent.
Every message fixes the kind of its reply.
-/
namespace PropertyDelete

/-- Why a foreign object did not do what a message asked. -/
inductive Refusal where
  /-- The object does not implement the message. -/
  | unsupported (message : String)
  | unknownIdentifier (name : String)
  /-- There is no hash entry under the key. -/
  | unknownKey
  | invalidArrayIndex (index : Nat)
  /-- The embedder refused, for a reason of its own. -/
  | failed (reason : String)
  deriving DecidableEq, Repr, Inhabited

namespace Refusal

def message : Refusal → String
  | .unsupported m => "unsupported message: " ++ m
  | .unknownIdentifier name => "unknown identifier: " ++ name
  | .unknownKey => "unknown key"
  | .invalidArrayIndex i => "invalid array index: " ++ Decimal.text i
  | .failed reason => reason

end Refusal

/-- The kinds of replies: yes or no, mere success, a value, or a size. -/
inductive ReplyKind where
  | flag
  | done
  | value
  | size
  deriving DecidableEq, Repr

/-- What a granted message of each kind brings back. -/
def ReplyKind.Content : ReplyKind → Type
  | .flag => Bool
  | .done => Unit
  | .value => Value
  | .size => Nat

/-- A reply: the content asked for, or a refusal. -/
abbrev Reply (k : ReplyKind) := Except Refusal k.Content

namespace Reply

/-- Whether a reply grants what was asked: a refusal grants nothing. -/
def granted : Reply .flag → Bool
  | .ok present => present
  | .error _ => false

def size? : Reply .size → Option Nat
  | .ok size => some size
  | .error _ => none

def value? : Reply .value → Option Value
  | .ok value => some value
  | .error _ => none

end Reply

/-- A message to a foreign object, by the kind of its reply. -/
inductive Message : ReplyKind → Type where
  | hasMembers : Message .flag
  | isMemberExisting (name : String) : Message .flag
  | isMemberRemovable (name : String) : Message .flag
  | removeMember (name : String) : Message .done
  | readMember (name : String) : Message .value
  | hasArrayElements : Message .flag
  | arraySize : Message .size
  | isArrayElementExisting (index : Nat) : Message .flag
  | isArrayElementRemovable (index : Nat) : Message .flag
  | readArrayElement (index : Nat) : Message .value
  | hasHashEntries : Message .flag
  | removeHashEntry (key : Value) : Message .done

namespace Message

/-- The reply of an object that does not implement the message: it has no capability, and
refuses everything else. -/
def unanswered : {k : ReplyKind} → Message k → Reply k
  | _, .hasMembers | _, .hasArrayElements | _, .hasHashEntries => .ok false
  | _, .isMemberExisting _ => .error (.unsupported "isMemberExisting")
  | _, .isMemberRemovable _ => .error (.unsupported "isMemberRemovable")
  | _, .removeMember _ => .error (.unsupported "removeMember")
  | _, .readMember _ => .error (.unsupported "readMember")
  | _, .arraySize => .error (.unsupported "getArraySize")
  | _, .isArrayElementExisting _ => .error (.unsupported "isArrayElementExisting")
  | _, .isArrayElementRemovable _ => .error (.unsupported "isArrayElementRemovable")
  | _, .readArrayElement _ => .error (.unsupported "readArrayElement")
  | _, .removeHashEntry _ => .error (.unsupported "removeHashEntry")

end Message
end PropertyDelete
