import PropertyDelete.Proofs.Object.Own

/-!
Objects as they come to be: a plain object or an array, and then any edits by the operations of
the engine, deletes included. No edit moves an element slot, so an array never has more of them
than it was made with (`bounded_edited`).
-/
namespace PropertyDelete

/-- What can be done to a native object. -/
inductive NativeEdit where
  | insert (key : String) (d : Descriptor)
  | erase (key : String)
  | punchHole (i : Nat)
  | delete (key : Key) (strict : Bool)

def NativeEdit.apply (o : NativeObject) : NativeEdit → NativeObject
  | .insert key d => o.insert key d
  | .erase key => o.erase key
  | .punchHole i => o.punchHole i
  | .delete key strict => (o.delete key strict).2

namespace NativeObject

/-- An object after edits, first one first. -/
def edited (o : NativeObject) (edits : List NativeEdit) : NativeObject :=
  edits.foldl NativeEdit.apply o

/-- Whether an object is as it is made: plain, or an array of no more elements than an array can
have. -/
def New (o : NativeObject) : Prop :=
  o = {} ∨ ∃ values, values.length ≤ 2 ^ 32 - 1 ∧ o = array values

variable {o : NativeObject}

theorem New.bounded (h : o.New) : o.Bounded := by
  rcases h with rfl | ⟨values, hvalues, rfl⟩
  · intro slots hs
    cases hs
  · exact bounded_array hvalues

theorem Bounded.apply (hb : o.Bounded) (e : NativeEdit) : (e.apply o).Bounded := by
  cases e with
  | insert key d => exact hb
  | erase key => exact hb.erase key
  | punchHole i => exact hb.punchHole i
  | delete key strict => exact hb.delete key strict

theorem bounded_edited (hb : o.Bounded) (edits : List NativeEdit) : (o.edited edits).Bounded := by
  induction edits generalizing o with
  | nil => exact hb
  | cons e rest ih => exact ih (hb.apply e)

end NativeObject
end PropertyDelete
