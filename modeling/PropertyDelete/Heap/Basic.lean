import PropertyDelete.Object.Native
import PropertyDelete.Foreign.Host
import PropertyDelete.Foreign.Dialogue

/-!
The heap: all native and all foreign objects, by reference. Beside it the store keeps the
log of the messages that scripted objects have received. A reference to nothing reads as a
plain object without properties, and writing through it changes nothing.
-/
namespace PropertyDelete

structure Heap where
  natives : List NativeObject := []
  foreigns : List ForeignObject := []
  deriving Inhabited

namespace Heap

def native (h : Heap) (o : ObjectRef) : NativeObject := (h.natives[o.index]?).getD {}

def setNative (h : Heap) (o : ObjectRef) (obj : NativeObject) : Heap :=
  { h with natives := h.natives.set o.index obj }

/-- A reference to nothing reads as an object without anything. -/
theorem native_of_le {h : Heap} {o : ObjectRef} (ho : h.natives.length ≤ o.index) :
    h.native o = {} := by
  rw [native, List.getElem?_eq_none ho]
  rfl

/-- Writing a native object changes no other one. -/
theorem native_setNative_of_ne (h : Heap) {o p : ObjectRef} (hp : p ≠ o) (obj : NativeObject) :
    (h.setNative o obj).native p = h.native p := by
  simp [native, setNative, List.getElem?_set_ne (ObjectRef.index_ne (Ne.symm hp))]

/-- A native object that exists reads as it was written. -/
theorem native_setNative_self (h : Heap) {o : ObjectRef} (ho : o.index < h.natives.length)
    (obj : NativeObject) : (h.setNative o obj).native o = obj := by
  simp [native, setNative, ho]

/-- An object reads as it is written, and a reference to nothing reads as before. -/
theorem native_setNative (h : Heap) (o : ObjectRef) (obj : NativeObject) :
    (h.setNative o obj).native o = obj ∨ (h.setNative o obj).native o = h.native o := by
  by_cases ho : o.index < h.natives.length
  · exact Or.inl (h.native_setNative_self ho obj)
  · have hkeep : h.natives.set o.index obj = h.natives :=
      List.set_eq_of_length_le (Nat.le_of_not_lt ho)
    exact Or.inr (by rw [setNative, hkeep])

/-- Writing a native object back changes nothing. -/
theorem setNative_native (h : Heap) (o : ObjectRef) : h.setNative o (h.native o) = h := by
  have e : h.natives.set o.index (h.native o) = h.natives := by
    by_cases ho : o.index < h.natives.length
    · simp [native, ho]
    · exact List.set_eq_of_length_le (by omega)
  simp [setNative, e]

def foreign? (h : Heap) (f : ForeignRef) : Option ForeignObject := h.foreigns[f.index]?

def setForeign (h : Heap) (f : ForeignRef) (obj : ForeignObject) : Heap :=
  { h with foreigns := h.foreigns.set f.index obj }

/-- A reference to a new native object, and the heap with it. -/
def allocate (h : Heap) (obj : NativeObject) : ObjectRef × Heap :=
  (⟨h.natives.length⟩, { h with natives := h.natives ++ [obj] })

/-- The first objects of a prototype chain, as many as `bound` allows. -/
def chain (h : Heap) : (bound : Nat) → ObjectRef → List ObjectRef
  | 0, _ => []
  | bound + 1, o =>
    o :: match (h.native o).prototype with
      | some p => h.chain bound p
      | none => []

/-- An object, its prototype, the prototype of that, and so on. The bound is longer than any
chain without a cycle. -/
def prototypeChain (h : Heap) (o : ObjectRef) : List ObjectRef :=
  h.chain (h.natives.length + 1) o

/-- The property found first along the prototype chain. -/
def findProperty? (h : Heap) (o : ObjectRef) (key : String) : Option Descriptor :=
  (h.prototypeChain o).findSome? fun p => (h.native p).ownProperty? key

/-- The value of a property, own or inherited; undefined if there is none or it has no value. -/
def property (h : Heap) (o : ObjectRef) (key : String) : Value :=
  ((h.findProperty? o key).bind Descriptor.value).getD .undefined

end Heap

/-- A message that a scripted object received. -/
structure Call where
  receiver : ForeignRef
  sent : Sent

/-- The heap and the log of the messages that scripted objects received. -/
structure Store where
  heap : Heap := {}
  calls : List Call := []
  deriving Inhabited

namespace Store

def setNative (s : Store) (o : ObjectRef) (obj : NativeObject) : Store :=
  { s with heap := s.heap.setNative o obj }

def setForeign (s : Store) (f : ForeignRef) (obj : ForeignObject) : Store :=
  { s with heap := s.heap.setForeign f obj }

/-- A reference to a new native object, and the store with it. -/
def allocate (s : Store) (obj : NativeObject) : ObjectRef × Store :=
  let answer := s.heap.allocate obj
  (answer.1, { s with heap := answer.2 })

theorem native_allocate (s : Store) (obj : NativeObject) :
    (s.allocate obj).2.heap.native (s.allocate obj).1 = obj := by
  simp [allocate, Heap.allocate, Heap.native]

/-- The store after a scripted object has received a message. -/
def logged {k : ReplyKind} (s : Store) (f : ForeignRef) (m : Message k) : Store :=
  { s with calls := s.calls ++ [⟨f, ⟨m⟩⟩] }

end Store

/-- A computation that may change the store. -/
abbrev StoreM := StateM Store

end PropertyDelete
