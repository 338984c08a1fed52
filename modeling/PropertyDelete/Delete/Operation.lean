import PropertyDelete.Delete.Native
import PropertyDelete.Delete.Foreign
import PropertyDelete.Delete.Variant
import PropertyDelete.Site.Arena

/-!
The delete operation: the generic way, which serves every target and key, and the ways of the
eleven variants, each a short cut for it where it applies.
-/
namespace PropertyDelete

namespace Delete

/-- Performs a delete on a native object of the heap. -/
def onNative (o : ObjectRef) (act : NativeObject → Outcome × NativeObject) : StoreM Outcome :=
  modifyGet fun s =>
    let answer := act (s.heap.native o)
    (answer.1, s.setNative o answer.2)

/-- The delete of any key on any target. -/
def generic (policy : DeletePolicy) (target : Value) (key : Key) : StoreM Outcome := do
  match (← get).heap.target target with
  | .ordinary o => onNative o fun obj => obj.deleteOrdinary key policy.strict
  | .arrayLike o => onNative o fun obj => obj.deleteArrayProperty key policy.strict
  | .text t => return t.deleteProperty key policy.strict
  | .numeric | .symbol | .other => return .ok true
  | .foreign f => (Foreign.delete key policy).runWith f

/-- The delete the way of a variant. A target or key that the variant is not made for takes
the generic way. -/
def invoke (v : DeleteVariant) (policy : DeletePolicy) (target : Value) (key : Key) :
    StoreM Outcome := do
  match v, (← get).heap.target target, key with
  | .ordinaryObject, .ordinary o, _ =>
    onNative o fun obj => obj.deleteOrdinary key policy.strict
  | .arrayIndex, .arrayLike o, .index i => onNative o fun obj => obj.deleteElement i
  | .arrayProperty, .arrayLike o, _ =>
    onNative o fun obj => obj.deleteArrayProperty key policy.strict
  | .stringIndex, .text t, .index i => return t.deleteIndex i key policy.strict
  | .stringProperty, .text t, _ => return t.deleteProperty key policy.strict
  | .symbol, .symbol, _ | .numeric, .numeric, _ | .otherPrimitive, .other, _ => return .ok true
  | .foreignMember, .foreign f, .text _ => (Foreign.deleteNamed key policy).runWith f
  | .foreignElement, .foreign f, _ | .foreignObject, .foreign f, _ =>
    (Foreign.delete key policy).runWith f
  | _, _, _ => generic policy target key

/-- Whether a delete may run: not when the host can interrupt it and has set its flag. -/
def budget (policy : DeletePolicy) (interrupted : Flags) : Except DeleteError Unit :=
  if policy.interruptible && interrupted.isSet policy.flag then .error .interrupted else .ok ()

/-- Deletes without a site, the generic way. -/
def uncached (target key : Value) (strict : Bool) : StoreM Outcome := do
  generic { strict } target ((← get).heap.toKey key)

end Delete

def deletion : Operation DeleteVariant DeletePolicy DeleteError Bool where
  guard v p _ := v.accepts p
  narrowest p _ := DeleteVariant.narrowest p
  invoke := Delete.invoke
  generic := Delete.generic
  budget := Delete.budget

abbrev DeleteSite := Site DeleteVariant DeletePolicy

abbrev DeleteArena := Arena DeleteVariant DeletePolicy

end PropertyDelete
