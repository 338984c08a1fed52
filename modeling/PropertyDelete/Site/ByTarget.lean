import PropertyDelete.Site.Basic

/-!
An operation that does nothing but report which way a call went. Its entries are the target
shapes, each serving all keys of targets of its shape, so a site for it needs one entry per
target shape.
-/
namespace PropertyDelete

/-- What the reporting operation saw of a call. -/
structure PathReport where
  shapes : Shapes
  generic : Bool
  deriving DecidableEq, Repr

namespace PathReport

def ofCall (generic : Bool) (target : Value) (key : Key) : StoreM (Except Empty PathReport) := do
  return .ok ⟨⟨(← get).heap.shape target, key.shape⟩, generic⟩

end PathReport

/-- The operation that reports the way of each call, guarded by the target's shape alone. -/
def byTarget : Operation TargetShape Unit Empty PathReport where
  guard e p _ := e == p.target
  narrowest p _ := p.target
  invoke _ _ := PathReport.ofCall false
  generic _ := PathReport.ofCall true

end PropertyDelete
