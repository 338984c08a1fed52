import PropertyDelete.Heap.Target
import PropertyDelete.Proofs.Foreign.Delivery

/-!
Computations that the heap cannot tell apart. `Agree x y` says that `x` and `y`, started on
stores with the same heap, give the same value and leave the same heap; what they log may
differ. Agreement goes through `bind`, so it is proved along the shape of a computation. A
dialogue agrees with itself, since delivery never reads the log, and with the same dialogue
without a question whose reply is not used (`ask_agree`).
-/
namespace PropertyDelete

theorem run_get_bind {α : Type} (x : Store → StoreM α) (s : Store) :
    (get >>= x).run s = (x s).run s := rfl

/-- Whether two computations on stores cannot be told apart by the heap: from stores with the
same heap they give the same value and leave the same heap. -/
def Agree {α : Type} (x y : StoreM α) : Prop :=
  ∀ s t : Store, s.heap = t.heap →
    (x.run s).1 = (y.run t).1 ∧ (x.run s).2.heap = (y.run t).2.heap

namespace Agree

variable {α β : Type}

theorem pure' (a : α) : Agree (pure a) (pure a) := fun _ _ h => ⟨rfl, h⟩

theorem bind {x y : StoreM α} {f g : α → StoreM β} (hx : Agree x y)
    (hf : ∀ a, Agree (f a) (g a)) : Agree (x >>= f) (y >>= g) := by
  intro s t h
  obtain ⟨hv, hh⟩ := hx s t h
  have hrest := hf (x.run s).1 (x.run s).2 (y.run t).2 hh
  show ((f (x.run s).1).run (x.run s).2).1 = ((g (y.run t).1).run (y.run t).2).1 ∧
    ((f (x.run s).1).run (x.run s).2).2.heap = ((g (y.run t).1).run (y.run t).2).2.heap
  rwa [← hv]

/-- A computation that looks at the heap first goes on with the same heap on both sides. -/
theorem get_bind {f g : Store → StoreM α}
    (h : ∀ s t : Store, s.heap = t.heap → Agree (f s) (g t)) : Agree (get >>= f) (get >>= g) :=
  fun s t e => h s t e s t e

theorem symm {x y : StoreM α} (h : Agree x y) : Agree y x := by
  intro s t e
  obtain ⟨hv, hh⟩ := h t s e.symm
  exact ⟨hv.symm, hh.symm⟩

end Agree

namespace Dialogue

variable {α β : Type}

theorem runWith_agree (f : ForeignRef) (d : Dialogue α) : Agree (d.runWith f) (d.runWith f) := by
  induction d with
  | done a => exact Agree.pure' a
  | ask m next ih => exact Agree.bind (Store.deliver_agree m f) ih

theorem runWith_bind_eq (f : ForeignRef) (d : Dialogue α) (g : α → Dialogue β) :
    (d >>= g).runWith f = d.runWith f >>= fun a => (g a).runWith f :=
  funext (runWith_bind f d g)

/-- A question whose reply is not used can be left out. -/
theorem ask_agree (f : ForeignRef) {k : ReplyKind} (m : Message k) (hk : k ≠ .done)
    {next : Reply k → Dialogue α} {d : Dialogue α} (h : ∀ r, next r = d) :
    Agree ((ask m next).runWith f) (d.runWith f) := by
  intro s t e
  have hd := runWith_agree f d (s.deliver f m).2 t ((Store.deliver_heap m hk f s).trans e)
  show ((next (s.deliver f m).1).runWith f (s.deliver f m).2).1 = _ ∧
    ((next (s.deliver f m).1).runWith f (s.deliver f m).2).2.heap = _
  rw [h]
  exact hd

end Dialogue

namespace Store

theorem allocate_agree (obj : NativeObject) {s t : Store} (h : s.heap = t.heap) :
    (s.allocate obj).1 = (t.allocate obj).1 ∧
      (s.allocate obj).2.heap = (t.allocate obj).2.heap := by
  unfold allocate
  rw [h]
  exact ⟨rfl, rfl⟩

/-- What a key of a value reads as does not depend on the log. -/
theorem read_agree (base : Value) (key : Key) : Agree (read base key) (read base key) := by
  unfold read
  refine Agree.get_bind fun s t h => ?_
  rw [h]
  dsimp only
  cases t.heap.target base with
  | ordinary o => exact Agree.pure' _
  | arrayLike o => exact Agree.pure' _
  | text u =>
    cases key with
    | index i =>
      dsimp only
      cases u.units[i]? with
      | some unit => exact Agree.pure' _
      | none => exact Agree.pure' _
    | _ => exact Agree.pure' _
  | foreign f => exact Agree.bind (Dialogue.runWith_agree f _) fun d => Agree.pure' _
  | _ => exact Agree.pure' _

end Store
end PropertyDelete
