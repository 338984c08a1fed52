import PropertyDelete.Proofs.Delete.Paths
import PropertyDelete.Proofs.Object.Edits

/-!
The host at work: what it does, step by step, to the delete sites of a program and to the
objects they work on. A run gives the answer of every step. `World` is the program as it is,
with sites that remember; `MemorylessWorld` is the same program as if it had no memory: of each
site only the policy is left, a delete checks the budget and goes the generic way, and a
forced generalization does nothing at all.
-/
namespace PropertyDelete

/-- The heap with a record locked or a map frozen, or with that undone. No other object can
be locked. -/
def Heap.lock (h : Heap) (f : ForeignRef) (flag : Bool) : Heap :=
  match h.foreign? f with
  | some (.record r) => h.setForeign f (.record { r with locked := flag })
  | some (.map m) => h.setForeign f (.map { m with frozen := flag })
  | _ => h

/-- A change that the host makes to an object of the heap. -/
inductive HeapEdit where
  | native (o : ObjectRef) (e : NativeEdit)
  | lock (f : ForeignRef) (flag : Bool)

def HeapEdit.apply (h : Heap) : HeapEdit → Heap
  | native o e => h.setNative o (e.apply (h.native o))
  | lock f flag => h.lock f flag

/-- What the host does next. -/
inductive HostStep where
  /-- A delete at the site of a number. -/
  | delete (site : Nat) (target key : Value)
  /-- A forced generalization. -/
  | generalize (site : Nat)
  /-- A flag that interrupts deletes is set or cleared. -/
  | interrupt (flag : Flag) (b : Bool)
  | edit (e : HeapEdit)

/-- The delete sites of a program, and the store that they work on. -/
structure World where
  arena : DeleteArena := {}
  store : Store := {}
  deriving Inhabited

namespace World

/-- The answer of one step, if it is a delete at a site that there is, and the world after
it. -/
def step (w : World) : HostStep → Option Outcome × World
  | .delete i target key =>
    let call := (w.arena.execute deletion i target key).run w.store
    (call.1.1, ⟨call.1.2, call.2⟩)
  | .generalize i =>
    match w.arena.site? i with
    | some site => (none, { w with arena := w.arena.setSite i site.generalize })
    | none => (none, w)
  | .interrupt flag b =>
    (none, { w with arena := { w.arena with interrupted := w.arena.interrupted.put flag b } })
  | .edit e => (none, { w with store := { w.store with heap := e.apply w.store.heap } })

/-- The answers of some steps, in order, and the world after them. -/
def run (w : World) : List HostStep → List (Option Outcome) × World
  | [] => ([], w)
  | a :: rest =>
    let first := w.step a
    let others := first.2.run rest
    (first.1 :: others.1, others.2)

end World

/-- The sites of a program without memory, and the store that they work on. -/
structure MemorylessWorld where
  policies : List DeletePolicy
  interrupted : Flags
  store : Store

namespace MemorylessWorld

/-- The answer of one step, if it is a delete at a site that there is, and the world after
it. -/
def step (w : MemorylessWorld) : HostStep → Option Outcome × MemorylessWorld
  | .delete i target key =>
    match w.policies[i]? with
    | some policy =>
      let call := (Delete.checked policy w.interrupted target key).run w.store
      (some call.1, { w with store := call.2 })
    | none => (none, w)
  | .generalize _ => (none, w)
  | .interrupt flag b => (none, { w with interrupted := w.interrupted.put flag b })
  | .edit e => (none, { w with store := { w.store with heap := e.apply w.store.heap } })

/-- The answers of some steps, in order, and the world after them. -/
def run (w : MemorylessWorld) : List HostStep → List (Option Outcome) × MemorylessWorld
  | [] => ([], w)
  | a :: rest =>
    let first := w.step a
    let others := first.2.run rest
    (first.1 :: others.1, others.2)

end MemorylessWorld

/-- A world without the caches and the limits of its sites. -/
def World.forget (w : World) : MemorylessWorld :=
  ⟨w.arena.policies, w.arena.interrupted, w.store⟩

end PropertyDelete
