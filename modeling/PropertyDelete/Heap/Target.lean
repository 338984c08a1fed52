import PropertyDelete.Foreign.Delivery
import PropertyDelete.Foreign.Property

/-!
Values as the target of a property access: what is known about a value once its shape is
known, and the questions that can be put to every target alike, whether a key names an own
property of it and what reading the key gives.
-/
namespace PropertyDelete

/-- A value seen as the target of a property access. -/
inductive Target where
  | ordinary (o : ObjectRef)
  | arrayLike (o : ObjectRef)
  | text (t : Utf16)
  | numeric
  | symbol
  | other
  | foreign (f : ForeignRef)
  deriving DecidableEq, Repr

namespace Target

def shape : Target → TargetShape
  | ordinary _ => .ordinaryObject
  | arrayLike _ => .arrayLikeObject
  | text _ => .primitiveString
  | numeric => .numericValue
  | symbol => .symbolValue
  | other => .otherPrimitive
  | foreign _ => .foreignObject

end Target

namespace Heap

def target (h : Heap) : Value → Target
  | .foreign f => .foreign f
  | .object o => if (h.native o).isArrayLike then .arrayLike o else .ordinary o
  | .string t => .text t
  | .number _ | .bigint _ => .numeric
  | .symbol _ => .symbol
  | .boolean _ | .undefined | .null => .other

def shape (h : Heap) (v : Value) : TargetShape := (h.target v).shape

end Heap

namespace Store

def hasOwn (target : Value) (key : Key) : StoreM Bool := do
  let heap := (← get).heap
  match heap.target target with
  | .ordinary o | .arrayLike o => return (heap.native o).hasOwnProperty key.storageText
  | .text t =>
    match key with
    | .index i => return decide (i < t.length)
    | _ => return key.isNamed "length"
  | .numeric | .symbol | .other => return false
  | .foreign f => (Foreign.hasProperty key).runWith f

/-- The value of a key of a value that is neither undefined nor null. -/
def read (base : Value) (key : Key) : StoreM Value := do
  let heap := (← get).heap
  match heap.target base with
  | .ordinary o | .arrayLike o => return heap.property o key.storageText
  | .text t =>
    match key with
    | .index i =>
      match t.units[i]? with
      | some u => return .string ⟨[u]⟩
      | none => return .undefined
    | _ => return if key.isNamed "length" then .number (.ofNat t.length) else .undefined
  | .foreign f =>
    let d ← (Foreign.ownProperty? key).runWith f
    return (d.bind Descriptor.value).getD .undefined
  | .numeric | .symbol | .other => return .undefined

end Store
end PropertyDelete
