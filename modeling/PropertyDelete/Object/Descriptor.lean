import PropertyDelete.Value

/-!
Property descriptors: a value and three attributes, each of which may be absent.
-/
namespace PropertyDelete

structure Descriptor where
  value : Option Value
  writable : Option Bool
  enumerable : Option Bool
  configurable : Option Bool
  deriving DecidableEq, Repr, Inhabited

namespace Descriptor

/-- A property with all four parts given. -/
def data (value : Value) (writable enumerable configurable : Bool) : Descriptor :=
  ⟨some value, some writable, some enumerable, some configurable⟩

/-- A property that may be written, listed and deleted. -/
def plain (value : Value) : Descriptor := data value true true true

/-- Whether the property may be deleted: an absent attribute does not forbid it. -/
def isConfigurable (d : Descriptor) : Bool := d.configurable != some false

end Descriptor
end PropertyDelete
