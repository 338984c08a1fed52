import PropertyDelete.Key.Basic
import PropertyDelete.Foreign.Message
import PropertyDelete.Site.Flag

/-!
What a delete can come to: true, false, or an error. Outside strict mode a refused delete is
answered by false; in strict mode it is an error that says what was refused.
-/
namespace PropertyDelete

inductive DeleteError where
  /-- In strict mode: the property exists and is not configurable. -/
  | notConfigurable (key : String)
  /-- In strict mode: the foreign object refused. -/
  | foreignRefusal (key : String) (reason : String)
  | interrupted
  deriving DecidableEq, Repr, Inhabited

def DeleteError.message : DeleteError → String
  | .notConfigurable key => "Cannot delete non-configurable property '" ++ key ++ "'"
  | .foreignRefusal key reason =>
    "Cannot delete property '" ++ key ++ "' of foreign object: " ++ reason
  | .interrupted => "Execution interrupted"

abbrev Outcome := Except DeleteError Bool

namespace Outcome

instance : DecidableEq Outcome
  | .ok a, .ok b => decidable_of_iff (a = b) (by simp)
  | .error a, .error b => decidable_of_iff (a = b) (by simp)
  | .ok _, .error _ => isFalse (by simp)
  | .error _, .ok _ => isFalse (by simp)

/-- The answer when a property is not configurable. -/
def notConfigurable (key : Key) (strict : Bool) : Outcome :=
  if strict then .error (.notConfigurable key.display) else .ok false

/-- The answer when a foreign object has refused. -/
def refused (key : Key) (r : Refusal) (strict : Bool) : Outcome :=
  if strict then .error (.foreignRefusal key.display r.message) else .ok false

end Outcome

/-- What is settled about a delete where it stands in the program. -/
structure DeletePolicy where
  strict : Bool
  /-- Whether hash entries of foreign objects count as properties. -/
  foreignHash : Bool := false
  /-- Whether the host can interrupt it. -/
  interruptible : Bool := false
  /-- The flag by which the host interrupts it, if it can. -/
  flag : Flag := .main
  deriving DecidableEq, Repr, Inhabited

end PropertyDelete
