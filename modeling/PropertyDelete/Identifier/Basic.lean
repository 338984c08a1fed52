import PropertyDelete.Identifier.StartRanges
import PropertyDelete.Identifier.ContinueRanges

/-!
Identifiers as they occur in a program: a name, the span of source text it was read from,
and a set of flags that say how the occurrence is used. Flags are only ever added; adding
one keeps the name, the span and all flags that were there.
-/
namespace PropertyDelete

structure Span where
  start : Nat
  stop : Nat
  deriving DecidableEq, Repr, Inhabited

/-- One use that an identifier occurrence can have. -/
inductive IdentifierFlag where
  | propertyName
  | initializedHere
  | functionName
  | newTarget
  | declaredHere
  | thisReference
  | superReference
  | directSuper
  | restParameter
  | catchParameter
  | importMeta
  | arguments
  | applyArguments
  | privateName
  | privateInCheck
  deriving DecidableEq, Repr

namespace IdentifierFlag

def all : List IdentifierFlag :=
  [propertyName, initializedHere, functionName, newTarget, declaredHere, thisReference,
    superReference, directSuper, restParameter, catchParameter, importMeta, arguments,
    applyArguments, privateName, privateInCheck]

/-- The place of the flag's own bit. -/
def position (f : IdentifierFlag) : Nat := all.idxOf f

/-- The bits that setting the flag sets: its own, and for the target of a super call also
the bit of `superReference`. -/
def mask (f : IdentifierFlag) : Nat :=
  match f with
  | .directSuper => Nat.pow 2 superReference.position ||| Nat.pow 2 directSuper.position
  | _ => Nat.pow 2 f.position

end IdentifierFlag

/-- An occurrence of a name in the source text. -/
structure Identifier where
  name : String
  span : Span := ⟨0, 0⟩
  flags : Nat := 0
  deriving DecidableEq, Repr, Inhabited

namespace Identifier

/-- A fresh occurrence without flags. -/
def new (span : Span) (name : String) : Identifier := { name, span }

def set (i : Identifier) (f : IdentifierFlag) : Identifier :=
  { i with flags := i.flags ||| f.mask }

/-- Whether all bits of a flag are set. -/
def has (i : Identifier) (f : IdentifierFlag) : Bool := i.flags &&& f.mask == f.mask

/-- The flags that hold of an occurrence, in the order of their bits. -/
def held (i : Identifier) : List IdentifierFlag := IdentifierFlag.all.filter i.has

/-- Whether the occurrence stands for `new.target` or `import.meta`. -/
def isMetaProperty (i : Identifier) : Bool := i.has .newTarget || i.has .importMeta

/-- Whether the name was made by the compiler: it starts with a colon. -/
def isInternal (i : Identifier) : Bool := i.name.toList.head? == some ':'

/-- Whether a code point lies in one of the ranges. -/
def inRanges (ranges : Array (Nat × Nat)) (n : Nat) : Bool :=
  ranges.any fun r => r.1 ≤ n && n ≤ r.2

/-- Whether a character may start an identifier name. -/
def canStart (c : Char) : Bool := c == '$' || c == '_' || inRanges startRanges c.toNat

/-- Whether a character may follow the first one of an identifier name: also the two
zero-width joiners. -/
def canContinue (c : Char) : Bool :=
  c == '$' || c == '\u200C' || c == '\u200D' ||
    inRanges startRanges c.toNat || inRanges continueRanges c.toNat

/-- Whether the name is a valid identifier name. -/
def isIdentifierName (i : Identifier) : Bool :=
  match i.name.toList with
  | [] => false
  | c :: rest => canStart c && rest.all canContinue

end Identifier
end PropertyDelete
