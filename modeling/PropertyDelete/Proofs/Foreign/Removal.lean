import PropertyDelete.Heap.Target
import PropertyDelete.Proofs.Foreign.Delivery

/-!
What a dialogue can do to the heap, read off the dialogue itself. A careful dialogue
(`Dialogue.Careful`) asks nothing more once a removal has been granted, and its result then says
so. Since only granted removals change the heap, a careful dialogue leaves the heap as it is
unless its result is of that kind (`Dialogue.Careful.runWith`), whatever object it is held with.
Reading a property is careful, and no result says that anything has been removed.
-/
namespace PropertyDelete

/-- Whether a computation leaves the heap as it is, unless its value is of a certain kind. -/
def SparesUnless {α : Type} (P : α → Prop) (x : StoreM α) : Prop :=
  ∀ s : Store, P (x.run s).1 ∨ (x.run s).2.heap = s.heap

namespace SparesUnless

variable {α : Type} {P : α → Prop}

theorem pure' (a : α) : SparesUnless P (pure a) := fun _ => Or.inr rfl

theorem get_bind {f : Store → StoreM α} (h : ∀ s, SparesUnless P (f s)) :
    SparesUnless P (get >>= f) := fun s => h s s

end SparesUnless

/-- Whether a dialogue asks nothing more once a removal has been granted, and then comes to a
result of a certain kind. -/
inductive Dialogue.Careful {α : Type} (P : α → Prop) : Dialogue α → Prop
  | done (a : α) : Careful P (.done a)
  | query {k : ReplyKind} (m : Message k) {next : Reply k → Dialogue α} (hk : k ≠ .done)
    (h : ∀ r, Careful P (next r)) : Careful P (.ask m next)
  | removal (m : Message .done) {next : Reply .done → Dialogue α} {a : α} (ha : P a)
    (granted : next (.ok ()) = .done a) (refused : ∀ e, Careful P (next (.error e))) :
    Careful P (.ask m next)

namespace Dialogue.Careful

variable {α β : Type} {P : α → Prop} {Q : β → Prop}

theorem pure' (a : α) : Careful P (pure a) := .done a

/-- A careful dialogue goes on with another one, if not after a removal. -/
theorem bind {d : Dialogue α} {f : α → Dialogue β} (h : Careful P d)
    (hf : ∀ a, Careful Q (f a)) (hend : ∀ a, P a → ∃ b, f a = .done b ∧ Q b) :
    Careful Q (d >>= f) := by
  induction h with
  | done a => exact hf a
  | query m hk _ ih => exact .query m hk ih
  | removal m ha granted _ ih =>
    obtain ⟨b, hb, hq⟩ := hend _ ha
    refine .removal m hq ?_ ih
    rw [granted]
    exact hb

theorem send {k : ReplyKind} {m : Message k} {f : Reply k → Dialogue α} (hk : k ≠ .done)
    (h : ∀ r, Careful P (f r)) : Careful P (Dialogue.send m >>= f) := .query m hk h

theorem capability {m : Message .flag} {f : Bool → Dialogue α} (h : ∀ b, Careful P (f b)) :
    Careful P (Dialogue.capability m >>= f) := .query m (by decide) fun r => h r.granted

/-- Held with any object, a careful dialogue leaves the heap as it is, unless its result says
otherwise. -/
theorem runWith {d : Dialogue α} (h : Careful P d) (f : ForeignRef) :
    SparesUnless P (d.runWith f) := by
  induction h with
  | done a => exact .pure' a
  | query m hk _ ih =>
    intro s
    have hheap := Store.deliver_heap m hk f s
    exact (ih (s.deliver f m).1 (s.deliver f m).2).imp_right (·.trans hheap)
  | @removal m next a ha granted _ ih =>
    intro s
    show P (((next (s.deliver f m).1).runWith f).run (s.deliver f m).2).1 ∨
      (((next (s.deliver f m).1).runWith f).run (s.deliver f m).2).2.heap = s.heap
    -- a removal that was refused has changed nothing yet; one that was granted ends the dialogue
    rcases hr : (s.deliver f m).1 with e | u
    · exact (ih e (s.deliver f m).2).imp_right (·.trans (Store.deliver_refused m hr))
    · left
      rw [show next (.ok u) = .done a from granted]
      exact ha

end Dialogue.Careful

namespace Foreign

open Dialogue (Careful)

/-- Asking for a property: whether there are any of its kind, whether there is this one, what its
value is, and whether it may be removed. -/
theorem property_careful (kind existing removable : Message .flag) (read : Message .value) :
    Careful (fun _ => False) (do
      if !(← .capability kind) then return none
      if !(← .capability existing) then return none
      match Reply.value? (← .send read) with
      | none => return none
      | some value =>
        let removable ← .capability removable
        return some (Descriptor.data value true true removable)) := by
  refine .capability fun kind => ?_
  cases kind with
  | false => exact .pure' none
  | true =>
    refine .capability fun existing => ?_
    cases existing with
    | false => exact .pure' none
    | true =>
      refine .send (by decide) fun reply => ?_
      cases Reply.value? reply with
      | none => exact .pure' none
      | some value => exact .capability fun removable => .pure' _

theorem memberProperty?_careful (name : String) :
    Careful (fun _ => False) (memberProperty? name) :=
  property_careful .hasMembers (.isMemberExisting name) (.isMemberRemovable name)
    (.readMember name)

theorem elementProperty?_careful (i : Nat) : Careful (fun _ => False) (elementProperty? i) :=
  property_careful .hasArrayElements (.isArrayElementExisting i) (.isArrayElementRemovable i)
    (.readArrayElement i)

theorem ownProperty?_careful (key : Key) : Careful (fun _ => False) (ownProperty? key) := by
  unfold ownProperty?
  cases key.name? with
  | none =>
    cases key.index? with
    | some i => exact elementProperty?_careful i
    | none => exact .pure' none
  | some name =>
    refine (memberProperty?_careful name).bind (fun d => ?_) (fun _ h => h.elim)
    cases d with
    | some d => exact .pure' _
    | none =>
      cases key.index? with
      | some i => exact elementProperty?_careful i
      | none => exact .pure' none

end Foreign

/-- Reading a key of a value leaves the heap as it is. -/
theorem Store.read_heap (base : Value) (key : Key) (s : Store) :
    ((Store.read base key).run s).2.heap = s.heap := by
  have h : SparesUnless (fun _ => False) (Store.read base key) := by
    unfold Store.read
    refine .get_bind fun t => ?_
    dsimp only
    cases t.heap.target base with
    | foreign f =>
      intro s
      exact ((Foreign.ownProperty?_careful key).runWith f s).imp_left False.elim
    | text u =>
      cases key with
      | index i =>
        dsimp only
        cases u.units[i]? with
        | some unit => exact .pure' _
        | none => exact .pure' _
      | _ => exact .pure' _
    | _ => exact .pure' _
  exact (h s).resolve_left id

end PropertyDelete
