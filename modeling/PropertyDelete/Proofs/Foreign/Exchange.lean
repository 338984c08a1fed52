import PropertyDelete.Proofs.Heap.Agreement

/-!
Dialogues without the log. Neither a reply nor the heap depends on the log, so a dialogue with an
object is followed on the heap alone: `Heap.reply` and `Heap.told` are the two sides of one
message, and `Dialogue.heldOn` is all of a dialogue. It says what a run comes to
(`Dialogue.runWith_heldOn`), and the equations take a dialogue apart question by question; only a
removal moves on to another heap (`Heap.told_query`).
-/
namespace PropertyDelete

theorem Reply.granted_iff {r : Reply .flag} : r.granted = true ↔ r = .ok true := by
  cases r with
  | error e => exact ⟨nofun, nofun⟩
  | ok there => exact ⟨congrArg Except.ok, Except.ok.inj⟩

namespace Heap

theorem setForeign_self {h : Heap} {f : ForeignRef} {obj : ForeignObject}
    (hobj : h.foreign? f = some obj) : h.setForeign f obj = h :=
  congrArg Store.heap (Store.setForeign_self (s := { heap := h }) hobj)

/-- A foreign object that exists reads as it was written. -/
theorem foreign?_setForeign_self {h : Heap} {f : ForeignRef} {obj : ForeignObject}
    (hobj : h.foreign? f = some obj) (new : ForeignObject) :
    (h.setForeign f new).foreign? f = some new :=
  List.getElem?_set_self (List.getElem?_eq_some_iff.mp hobj).1

/-- Writing a foreign object changes no other one. -/
theorem foreign?_setForeign_of_ne (h : Heap) {f g : ForeignRef} (hne : g ≠ f)
    (new : ForeignObject) : (h.setForeign f new).foreign? g = h.foreign? g :=
  List.getElem?_set_ne (ForeignRef.index_ne (Ne.symm hne))

variable {k : ReplyKind} (h : Heap) (f : ForeignRef) (m : Message k)

/-- The reply of a foreign object of the heap to a message. -/
def reply : Reply k := (Store.deliver { heap := h } f m).1

/-- The heap after a foreign object has received a message. -/
def told : Heap := (Store.deliver { heap := h } f m).2.heap

variable {h f}

theorem told_query (hk : k ≠ .done) : h.told f m = h := Store.deliver_heap m hk f { heap := h }

/-! ## One pair of equations for each kind of receiver -/

theorem reply_record {r : MemberRecord} (hr : h.foreign? f = some (.record r)) :
    h.reply f m = (r.receive m).1 := by
  rw [reply, Store.deliver_record m hr]

theorem told_record {r : MemberRecord} (hr : h.foreign? f = some (.record r)) :
    h.told f m = h.setForeign f (.record (r.receive m).2) := by
  rw [told, Store.deliver_record m hr]
  rfl

theorem reply_list {l : ElementList} (hl : h.foreign? f = some (.list l)) :
    h.reply f m = l.reply m := by
  rw [reply, Store.deliver_list m hl]

theorem told_list {l : ElementList} (hl : h.foreign? f = some (.list l)) : h.told f m = h := by
  rw [told, Store.deliver_list m hl]

theorem reply_map {e : EntryMap} (he : h.foreign? f = some (.map e)) :
    h.reply f m = (e.receive h.text m).1 := by
  rw [reply, Store.deliver_map m he]

theorem told_map {e : EntryMap} (he : h.foreign? f = some (.map e)) :
    h.told f m = h.setForeign f (.map (e.receive h.text m).2) := by
  rw [told, Store.deliver_map m he]
  rfl

theorem reply_answered {c : ScriptedObject} (hf : h.foreign? f = some (.scripted c))
    (hc : c.passesTo? f m = none) : h.reply f m = (c.reply? m).getD m.unanswered := by
  rw [reply, Store.deliver_answered m hf hc]

theorem told_answered {c : ScriptedObject} (hf : h.foreign? f = some (.scripted c))
    (hc : c.passesTo? f m = none) : h.told f m = h := by
  rw [told, Store.deliver_answered m hf hc]
  rfl

theorem reply_passed {c : ScriptedObject} {b : ForeignRef}
    (hf : h.foreign? f = some (.scripted c)) (hc : c.passesTo? f m = some b) :
    h.reply f m = h.reply b m := by
  rw [reply, Store.deliver_passed m hf hc]
  exact (Store.deliver_agree m b (Store.logged { heap := h } f m) { heap := h } rfl).1

theorem told_passed {c : ScriptedObject} {b : ForeignRef}
    (hf : h.foreign? f = some (.scripted c)) (hc : c.passesTo? f m = some b) :
    h.told f m = h.told b m := by
  rw [told, Store.deliver_passed m hf hc]
  exact (Store.deliver_agree m b (Store.logged { heap := h } f m) { heap := h } rfl).2

/-- A message changes no object that was made after its receiver. -/
theorem foreign?_told_of_lt {f g : ForeignRef} (hlt : f.index < g.index) :
    (h.told f m).foreign? g = h.foreign? g := by
  induction hn : f.index using Nat.strongRecOn generalizing f with
  | ind n ih =>
    have hne : g ≠ f := by
      rintro rfl
      omega
    cases hf : h.foreign? f with
    | none => rw [told, Store.deliver_absent m hf]
    | some obj =>
      cases obj with
      | record r => rw [told_record m hf, foreign?_setForeign_of_ne h hne]
      | list l => rw [told_list m hf]
      | map e => rw [told_map m hf, foreign?_setForeign_of_ne h hne]
      | scripted c =>
        cases hc : c.passesTo? f m with
        | none => rw [told_answered m hf hc]
        | some b =>
          have hb := ScriptedObject.passesTo?_lt hc
          rw [told_passed m hf hc]
          exact ih b.index (by omega) (by omega) rfl

end Heap

theorem Store.deliver_eq {k : ReplyKind} (s : Store) (f : ForeignRef) (m : Message k) :
    (s.deliver f m).1 = s.heap.reply f m ∧ (s.deliver f m).2.heap = s.heap.told f m :=
  Store.deliver_agree m f s { heap := s.heap } rfl

namespace Dialogue

variable {α β : Type}

/-- A dialogue held with a foreign object of a heap: its result, and the heap afterwards. -/
def heldOn (f : ForeignRef) : Dialogue α → Heap → α × Heap
  | done a, h => (a, h)
  | ask m next, h => (next (h.reply f m)).heldOn f (h.told f m)

/-- What the run of a dialogue comes to, and the heap that it leaves. -/
theorem runWith_heldOn (f : ForeignRef) (d : Dialogue α) (s : Store) :
    ((d.runWith f).run s).1 = (d.heldOn f s.heap).1 ∧
      ((d.runWith f).run s).2.heap = (d.heldOn f s.heap).2 := by
  induction d generalizing s with
  | done a => exact ⟨rfl, rfl⟩
  | ask m next ih =>
    obtain ⟨hreply, hheap⟩ := s.deliver_eq f m
    have hrest := ih (s.deliver f m).1 (s.deliver f m).2
    rw [hreply, hheap] at hrest
    show (((next (s.deliver f m).1).runWith f).run (s.deliver f m).2).1 = _ ∧
      (((next (s.deliver f m).1).runWith f).run (s.deliver f m).2).2.heap = _
    rw [hreply]
    exact hrest

section Equations

variable (f : ForeignRef) (h : Heap)

@[simp] theorem heldOn_pure (a : α) : (pure a : Dialogue α).heldOn f h = (a, h) := rfl

@[simp] theorem heldOn_bind (d : Dialogue α) (g : α → Dialogue β) :
    (d >>= g).heldOn f h = (g (d.heldOn f h).1).heldOn f (d.heldOn f h).2 := by
  induction d generalizing h with
  | done a => rfl
  | ask m next ih => exact ih _ _

@[simp] theorem heldOn_send {k : ReplyKind} (m : Message k) :
    (send m).heldOn f h = (h.reply f m, h.told f m) := rfl

@[simp] theorem heldOn_capability (m : Message .flag) :
    (capability m).heldOn f h = (Reply.granted (h.reply f m), h) := by
  rw [capability, heldOn_bind, heldOn_send, heldOn_pure, Heap.told_query m (by decide)]

end Equations

end Dialogue
end PropertyDelete
