import PropertyDelete.Heap.Target
import PropertyDelete.Site.Flag

/-!
Sites that specialize themselves. An operation has a closed set of guarded entries, each a
short cut for the shapes that its guard accepts, and one generic way that serves all shapes.
A site remembers the entries it has come to need, in the order in which it came to need them,
up to its limit. When one more would be needed it generalizes: it drops its entries, and from
then on every call goes the generic way.
-/
namespace PropertyDelete

/-- An operation on a target and a key whose implementations are guarded by shapes. -/
structure Operation (Entry Policy Error Result : Type) where
  /-- Whether an entry serves a pair of shapes. -/
  guard : Entry → Shapes → Policy → Bool
  /-- The narrowest entry that serves a pair of shapes. -/
  narrowest : Shapes → Policy → Entry
  /-- The operation the way of an entry. -/
  invoke : Entry → Policy → Value → Key → StoreM (Except Error Result)
  /-- The operation for all shapes. -/
  generic : Policy → Value → Key → StoreM (Except Error Result)
  /-- Whether a call may run at all, given the flags by which the host asks for calls to stop. -/
  budget : Policy → (interrupted : Flags) → Except Error Unit := fun _ _ => .ok ()

/-- What a site remembers. -/
structure SiteCache (Entry : Type) where
  entries : List Entry := []
  generalized : Bool := false
  /-- The number of changes so far. -/
  version : Nat := 0
  deriving DecidableEq, Repr, Inhabited

namespace SiteCache

variable {Entry : Type}

def withEntry (s : SiteCache Entry) (e : Entry) : SiteCache Entry where
  entries := s.entries ++ [e]
  version := s.version + 1

/-- The cache without entries, from now on without effect. -/
def generalize (s : SiteCache Entry) : SiteCache Entry :=
  if s.generalized then s else { generalized := true, version := s.version + 1 }

@[simp] theorem generalize_generalize (s : SiteCache Entry) :
    s.generalize.generalize = s.generalize := by
  unfold generalize
  split <;> simp_all

end SiteCache

/-- A place in a program where an operation is performed. -/
structure Site (Entry Policy : Type) where
  policy : Policy
  /-- The number of entries the site holds before it generalizes. -/
  limit : Nat
  cache : SiteCache Entry := {}
  limit_pos : 0 < limit

namespace Site

variable {Entry Policy : Type}

/-- A site that has not been used. A limit of zero counts as one. -/
def new (policy : Policy) (limit : Nat) : Site Entry Policy where
  policy := policy
  limit := max limit 1
  limit_pos := by omega

def withCache (s : Site Entry Policy) (cache : SiteCache Entry) : Site Entry Policy :=
  { s with cache }

/-- The site without entries, going the generic way from now on. -/
def generalize (s : Site Entry Policy) : Site Entry Policy := s.withCache s.cache.generalize

end Site

namespace Operation

variable {Entry Policy Error Result : Type}

/-- The first entry of a site that serves a pair of shapes. -/
def lookup (op : Operation Entry Policy Error Result) (site : Site Entry Policy)
    (p : Shapes) : Option Entry :=
  site.cache.entries.find? fun e => op.guard e p site.policy

/-- The entry that a site lets a pair of shapes go by, none for the generic way, and the cache
of the site afterwards. -/
def choose (op : Operation Entry Policy Error Result) (site : Site Entry Policy)
    (p : Shapes) : Option Entry × SiteCache Entry :=
  if site.cache.generalized then (none, site.cache)
  else match op.lookup site p with
    | some e => (some e, site.cache)
    | none =>
      if site.cache.entries.length < site.limit then
        let e := op.narrowest p site.policy
        (some e, site.cache.withEntry e)
      else (none, site.cache.generalize)

/-- The operation the way of an entry, or the generic way without one. -/
def perform (op : Operation Entry Policy Error Result) (entry : Option Entry) (policy : Policy)
    (target : Value) (key : Key) : StoreM (Except Error Result) :=
  match entry with
  | some e => op.invoke e policy target key
  | none => op.generic policy target key

/-- A call at a site: its answer and the site afterwards. -/
def execute (op : Operation Entry Policy Error Result) (interrupted : Flags)
    (site : Site Entry Policy) (target key : Value) :
    StoreM (Except Error Result × Site Entry Policy) := do
  match op.budget site.policy interrupted with
  | .error e => return (.error e, site)
  | .ok () =>
    let heap := (← get).heap
    let key := heap.toKey key
    let choice := op.choose site ⟨heap.shape target, key.shape⟩
    let answer ← op.perform choice.1 site.policy target key
    return (answer, site.withCache choice.2)

end Operation
end PropertyDelete
