import PropertyDelete.Dictionary
import PropertyDelete.Object.Descriptor

/-!
The property table of a native object: a map from storage texts to descriptors, and beside
it the storage texts in the order in which the properties are listed. A property that is
inserted again keeps its place; one that is removed and inserted again goes to the end.
-/
namespace PropertyDelete

/-- The named properties of an object and the order in which they are listed. -/
structure PropertyTable where
  slots : Dictionary Descriptor := {}
  order : List String := []
  deriving Inhabited

namespace PropertyTable

def find? (t : PropertyTable) (key : String) : Option Descriptor := t.slots.get? key

/-- The table with a property, listed last if it is new. -/
def insert (t : PropertyTable) (key : String) (d : Descriptor) : PropertyTable where
  slots := t.slots.insert key d
  order := if t.slots.contains key then t.order else t.order ++ [key]

def erase (t : PropertyTable) (key : String) : PropertyTable where
  slots := t.slots.erase key
  order := if t.slots.contains key then t.order.filter (· ≠ key) else t.order

end PropertyTable
end PropertyDelete
