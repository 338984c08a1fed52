import PropertyDelete.Site.Basic

/-!
Arenas: the sites of one program, by number, and the flags by which the host interrupts them.
Sites are only ever added. The number of a new site is kept in 32 bits, so it is that of another
site once there are 2^32 of them.
-/
namespace PropertyDelete

/-- The sites of a program and the flags that interrupt them. -/
structure Arena (Entry Policy : Type) where
  sites : List (Site Entry Policy) := []
  interrupted : Flags := false
  deriving Inhabited

namespace Arena

variable {Entry Policy Error Result : Type}

def size (a : Arena Entry Policy) : Nat := a.sites.length

def site? (a : Arena Entry Policy) (i : Nat) : Option (Site Entry Policy) := a.sites[i]?

/-- The arena with another site under a number. -/
def setSite (a : Arena Entry Policy) (i : Nat) (s : Site Entry Policy) : Arena Entry Policy :=
  { a with sites := a.sites.set i s }

/-- The number of a new site, and the arena with it. -/
def allocate (a : Arena Entry Policy) (policy : Policy) (limit : Nat) :
    UInt32 × Arena Entry Policy :=
  (UInt32.ofNat a.sites.length, { a with sites := a.sites ++ [.new policy limit] })

/-- A call at a site of the arena, if there is one of that number. -/
def execute (op : Operation Entry Policy Error Result) (a : Arena Entry Policy) (i : Nat)
    (target key : Value) : StoreM (Option (Except Error Result) × Arena Entry Policy) := do
  match a.site? i with
  | none => return (none, a)
  | some site =>
    let answer ← op.execute a.interrupted site target key
    return (some answer.1, a.setSite i answer.2)

end Arena
end PropertyDelete
