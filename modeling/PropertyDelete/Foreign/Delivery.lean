import PropertyDelete.Heap.Text

/-!
Delivery of messages to the foreign objects of the heap. A scripted object logs every message
it receives; one it has no reply for goes on to its base, which must be an object made before
it, so passing on comes to an end. An object that is not there implements nothing.
-/
namespace PropertyDelete

namespace Store

/-- The reply of a foreign object to a message, and the store afterwards. -/
def deliver {k : ReplyKind} (s : Store) (f : ForeignRef) (m : Message k) : Reply k × Store :=
  match s.heap.foreign? f with
  | none => (m.unanswered, s)
  | some (.record r) =>
    let answer := r.receive m
    (answer.1, s.setForeign f (.record answer.2))
  | some (.list l) => (l.reply m, s)
  | some (.map t) =>
    let answer := t.receive s.heap.text m
    (answer.1, s.setForeign f (.map answer.2))
  | some (.scripted c) =>
    match c.reply? m, c.base with
    | some reply, _ => (reply, s.logged f m)
    | none, none => (m.unanswered, s.logged f m)
    | none, some b =>
      if b.index < f.index then (s.logged f m).deliver b m else (m.unanswered, s.logged f m)
termination_by f.index

end Store

/-- Runs a dialogue with a foreign object of the heap. -/
def Dialogue.runWith {α : Type} (f : ForeignRef) : Dialogue α → StoreM α
  | .done a => pure a
  | .ask m next => do
    let reply ← modifyGet fun s => s.deliver f m
    (next reply).runWith f

/-- A dialogue that goes on with another one is run by running both, one after the other. -/
theorem Dialogue.runWith_bind {α β : Type} (f : ForeignRef) (d : Dialogue α)
    (g : α → Dialogue β) (s : Store) :
    ((d >>= g).runWith f).run s =
      ((g ((d.runWith f).run s).1).runWith f).run ((d.runWith f).run s).2 := by
  induction d generalizing s with
  | done a => rfl
  | ask m next ih => exact ih _ _

end PropertyDelete
