/-!
The flags by which the host asks for calls to stop. A site that can be interrupted names the
flag that it heeds, and sites that name one flag are interrupted together.
-/
namespace PropertyDelete

/-- The name of a flag. -/
structure Flag where
  index : Nat
  deriving DecidableEq, Repr, Inhabited

/-- The flag that is heeded where no other one is named. -/
def Flag.main : Flag := ⟨0⟩

/-- Which flags are set. -/
structure Flags where
  isSet : Flag → Bool
  deriving Inhabited

namespace Flags

/-- All flags set, or all cleared. -/
instance : Coe Bool Flags := ⟨fun b => ⟨fun _ => b⟩⟩

/-- The flags with one of them set or cleared. -/
def put (flags : Flags) (flag : Flag) (b : Bool) : Flags where
  isSet other := if other = flag then b else flags.isSet other

end Flags
end PropertyDelete
