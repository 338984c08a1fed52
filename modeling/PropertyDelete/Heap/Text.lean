import PropertyDelete.Heap.Basic
import PropertyDelete.Key.Basic

/-!
The texts of values. `display` is the short form that messages use; `text` is the string
conversion, which follows wrapped primitive values and joins the elements of array-like
objects with commas. The references of the objects being converted form a stack: an object
is pushed when its conversion starts and popped when it ends, and one that is met again in
between has an empty text. So the conversion ends on every heap, whatever its links.
-/
namespace PropertyDelete

/-- The display text of a value that is not a native object. -/
def Value.displayPrimitive : Value → String
  | .undefined => "undefined"
  | .null => "null"
  | .boolean true => "true"
  | .boolean false => "false"
  | .number n => n.text
  | .string t => t.toString
  | .symbol s => s.display
  | .bigint z => Decimal.signedText z ++ "n"
  | .object _ => ""
  | .foreign _ => "[foreign object]"

/-- The text of a value that is not a native object: as it is displayed, but a big integer
without its mark. -/
def Value.textPrimitive : Value → String
  | .bigint z => Decimal.signedText z
  | v => v.displayPrimitive

/-- The text of an object that has nothing better to show than its class. -/
def NativeObject.classText (o : NativeObject) : String := "[object " ++ o.className ++ "]"

namespace Heap

def display (h : Heap) : Value → String
  | .object o => (h.native o).classText
  | v => v.displayPrimitive

/-- The text of an element slot by `one`, which may use the stack and hands it on. Holes,
undefined and null have an empty text. -/
def slotText (one : Value → List ObjectRef → String × List ObjectRef) :
    Option Value → List ObjectRef → String × List ObjectRef
  | none, active | some .undefined, active | some .null, active => ("", active)
  | some v, active => one v active

def slotTexts (one : Value → List ObjectRef → String × List ObjectRef) :
    List (Option Value) → List ObjectRef → List String × List ObjectRef
  | [], active => ([], active)
  | slot :: rest, active =>
    let first := slotText one slot active
    let others := slotTexts one rest first.2
    (first.1 :: others.1, others.2)

/-- The text of a value while the conversions of `active` are under way, and the stack
afterwards. `depth` bounds how many conversions of objects may be nested. -/
def convert (h : Heap) : (depth : Nat) → Value → List ObjectRef → String × List ObjectRef
  | 0, .object _, active => ("", active)
  | depth + 1, .object o, active =>
    if active.contains o then ("", active)
    else
      let obj := h.native o
      let inner := match obj.primitive, obj.elements with
        | some p, _ => h.convert depth p (o :: active)
        | none, some slots =>
          let parts := slotTexts (h.convert depth) slots (o :: active)
          (String.intercalate "," parts.1, parts.2)
        | none, none => (obj.classText, o :: active)
      (inner.1, inner.2.tail)
  | _, v, active => (v.textPrimitive, active)

/-- Texts of element slots leave the stack as it was if the text of each value does. -/
theorem slotTexts_stack {one : Value → List ObjectRef → String × List ObjectRef}
    (h : ∀ v active, (one v active).2 = active) (slots : List (Option Value))
    (active : List ObjectRef) : (slotTexts one slots active).2 = active := by
  induction slots generalizing active with
  | nil => rfl
  | cons slot rest ih =>
    have hs : (slotText one slot active).2 = active := by
      unfold slotText
      split <;> simp [h]
    simp [slotTexts, ih, hs]

/-- A conversion leaves the stack as it was: what is pushed is popped. -/
theorem convert_stack (h : Heap) (depth : Nat) (v : Value) (active : List ObjectRef) :
    (h.convert depth v active).2 = active := by
  induction depth generalizing v active with
  | zero => cases v <;> rfl
  | succ depth ih =>
    cases v <;> simp only [convert]
    split
    · rfl
    · split <;> simp [ih, slotTexts_stack]

/-- The text of a value. No more conversions than there are objects can be nested, and one
for a reference to nothing. -/
def text (h : Heap) (v : Value) : String := (h.convert (h.natives.length + 1) v []).1

/-- The key that a value which is not a native object names. -/
def primitiveKey : Value → Key
  | .string t => Key.ofText t
  | .symbol s => .symbol s
  | .number n => Key.ofNumber n
  | v => Key.ofString v.textPrimitive

/-- The key that a value names. An object stands for the primitive value it wraps, or for its
text if it wraps none or another object. -/
def toKey (h : Heap) : Value → Key
  | .object o =>
    match (h.native o).primitive with
    | none | some (.object _) => Key.ofString (h.text (.object o))
    | some p => primitiveKey p
  | v => primitiveKey v

end Heap
end PropertyDelete
