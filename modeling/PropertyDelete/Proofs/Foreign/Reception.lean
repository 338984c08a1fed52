import PropertyDelete.Proofs.Foreign.Exchange

/-!
What foreign objects receive. A message that a scripted object has no reply for goes on to its
base, so it may reach several objects (`Heap.receivers`); `Dialogue.receptions` lists what every
object receives in a dialogue, host objects included, in order. The log is that list, of the
scripted objects only (`Dialogue.runWith_calls`).

`Dialogue.Omits` relates a dialogue to the same one with questions of some kind left out whose
replies it made no use of. What is received in the two differs by the questions that are left out
and by nothing else (`Omits.receptions`).
-/
namespace PropertyDelete

namespace Heap

variable {k : ReplyKind} {h : Heap} {f : ForeignRef} (m : Message k)

/-- The objects that a message reaches, in order: the one it is sent to, and every base that it is
passed on to. -/
def receivers {k : ReplyKind} (h : Heap) (f : ForeignRef) (m : Message k) : List ForeignRef :=
  match h.foreign? f with
  | none => []
  | some (.scripted c) =>
    match _hc : c.passesTo? f m with
    | some b => f :: h.receivers b m
    | none => [f]
  | some _ => [f]
termination_by f.index
decreasing_by exact ScriptedObject.passesTo?_lt _hc

theorem receivers_answered {c : ScriptedObject} (hf : h.foreign? f = some (.scripted c))
    (hc : c.passesTo? f m = none) : h.receivers f m = [f] := by
  rw [receivers, hf]
  dsimp only
  split
  · next b hb => cases hc.symm.trans hb
  · rfl

theorem receivers_passed {c : ScriptedObject} {b : ForeignRef}
    (hf : h.foreign? f = some (.scripted c)) (hc : c.passesTo? f m = some b) :
    h.receivers f m = f :: h.receivers b m := by
  rw [receivers, hf]
  dsimp only
  split
  · next b' hb => rw [Option.some.inj (hc.symm.trans hb)]
  · next hb => cases hc.symm.trans hb

/-- What is received when a message is sent. -/
def receptions (h : Heap) (f : ForeignRef) (m : Message k) : List Call :=
  (h.receivers f m).map fun g => ⟨g, ⟨m⟩⟩

/-- Whether there is a scripted object behind a reference. -/
def isScripted (h : Heap) (f : ForeignRef) : Bool :=
  match h.foreign? f with
  | some (.scripted _) => true
  | _ => false

theorem isScripted_setForeign {new : ForeignObject} (hold : h.isScripted f = false)
    (hnew : (h.setForeign f new).isScripted f = false) (g : ForeignRef) :
    (h.setForeign f new).isScripted g = h.isScripted g := by
  by_cases hg : g = f
  · rw [hg, hold, hnew]
  · rw [isScripted, foreign?_setForeign_of_ne h hg]
    rfl

/-- No message makes a host object of a scripted one, nor the other way round. -/
theorem isScripted_told (g : ForeignRef) : (h.told f m).isScripted g = h.isScripted g := by
  induction hn : f.index using Nat.strongRecOn generalizing f with
  | ind n ih =>
    cases hf : h.foreign? f with
    | none => rw [told, Store.deliver_absent m hf]
    | some obj =>
      cases obj with
      | record r =>
        rw [told_record m hf]
        exact isScripted_setForeign (by rw [isScripted, hf])
          (by rw [isScripted, foreign?_setForeign_self hf]) g
      | list l => rw [told_list m hf]
      | map e =>
        rw [told_map m hf]
        exact isScripted_setForeign (by rw [isScripted, hf])
          (by rw [isScripted, foreign?_setForeign_self hf]) g
      | scripted c =>
        cases hc : c.passesTo? f m with
        | none => rw [told_answered m hf hc]
        | some b =>
          have hlt := ScriptedObject.passesTo?_lt hc
          rw [told_passed m hf hc]
          exact ih b.index (by omega) rfl

end Heap

/-- What is received when a message is sent, by scripted objects, is logged. -/
theorem Store.deliver_calls {k : ReplyKind} (m : Message k) (f : ForeignRef) (s : Store) :
    (s.deliver f m).2.calls =
      s.calls ++ (s.heap.receptions f m).filter (s.heap.isScripted ·.receiver) := by
  induction hn : f.index using Nat.strongRecOn generalizing f s with
  | ind n ih =>
    unfold Heap.receptions
    cases hf : s.heap.foreign? f with
    | none => simp [deliver_absent m hf, Heap.receivers, hf]
    | some obj =>
      cases obj with
      | record r =>
        simp [deliver_record m hf, Heap.receivers, Heap.isScripted, hf, setForeign]
      | list l => simp [deliver_list m hf, Heap.receivers, Heap.isScripted, hf]
      | map e => simp [deliver_map m hf, Heap.receivers, Heap.isScripted, hf, setForeign]
      | scripted c =>
        have hlogged : s.heap.isScripted f = true := by rw [Heap.isScripted, hf]
        cases hc : c.passesTo? f m with
        | none =>
          rw [deliver_answered m hf hc, Heap.receivers_answered m hf hc]
          simp [hlogged, logged]
        | some b =>
          have hlt := ScriptedObject.passesTo?_lt hc
          have hrest := ih b.index (by omega) b (s.logged f m) rfl
          rw [deliver_passed m hf hc, hrest, Heap.receivers_passed m hf hc]
          simp [hlogged, logged, Heap.receptions]

namespace Dialogue

variable {α β : Type}

/-- What foreign objects receive in a dialogue with one of them. -/
def receptions (f : ForeignRef) : Dialogue α → Heap → List Call
  | done _, _ => []
  | ask m next, h => h.receptions f m ++ (next (h.reply f m)).receptions f (h.told f m)

/-- What scripted objects receive in a dialogue is logged. -/
theorem runWith_calls (f : ForeignRef) (d : Dialogue α) (s : Store) :
    ((d.runWith f).run s).2.calls =
      s.calls ++ (d.receptions f s.heap).filter (s.heap.isScripted ·.receiver) := by
  induction d generalizing s with
  | done a => exact (List.append_nil _).symm
  | ask m next ih =>
    obtain ⟨hreply, hheap⟩ := s.deliver_eq f m
    have hrest := ih (s.deliver f m).1 (s.deliver f m).2
    rw [s.deliver_calls m f, hreply, hheap] at hrest
    simp only [Heap.isScripted_told] at hrest
    show (((next (s.deliver f m).1).runWith f).run (s.deliver f m).2).2.calls = _
    rw [hreply, hrest, receptions, List.filter_append, List.append_assoc]

/-- Whether a dialogue is another one less the questions of some kind, whose replies make no
difference to that one. -/
inductive Omits (P : Sent → Bool) : Dialogue α → Dialogue α → Prop
  | done (a : α) : Omits P (.done a) (.done a)
  | keep {k : ReplyKind} (m : Message k) {next next' : Reply k → Dialogue α}
    (hm : P ⟨m⟩ = false) (h : ∀ r, Omits P (next r) (next' r)) :
    Omits P (.ask m next) (.ask m next')
  | drop {k : ReplyKind} (m : Message k) {next : Reply k → Dialogue α} {d : Dialogue α}
    (hm : P ⟨m⟩ = true) (hk : k ≠ .done) (h : ∀ r, Omits P (next r) d) : Omits P (.ask m next) d

namespace Omits

variable {P : Sent → Bool} {d e : Dialogue α}

theorem pure' (a : α) : Omits P (pure a) (pure a) := .done a

theorem bind {f g : α → Dialogue β} (h : Omits P d e) (hf : ∀ a, Omits P (f a) (g a)) :
    Omits P (d >>= f) (e >>= g) := by
  induction h with
  | done a => exact hf a
  | keep m hm _ ih => exact .keep m hm ih
  | drop m hm hk _ ih => exact .drop m hm hk ih

theorem send {k : ReplyKind} {m : Message k} {f g : Reply k → Dialogue α} (hm : P ⟨m⟩ = false)
    (h : ∀ r, Omits P (f r) (g r)) : Omits P (Dialogue.send m >>= f) (Dialogue.send m >>= g) :=
  .keep m hm h

theorem capability {m : Message .flag} {f g : Bool → Dialogue α} (hm : P ⟨m⟩ = false)
    (h : ∀ b, Omits P (f b) (g b)) :
    Omits P (Dialogue.capability m >>= f) (Dialogue.capability m >>= g) :=
  .keep m hm fun r => h r.granted

theorem drop_capability {m : Message .flag} {f : Bool → Dialogue α} (hm : P ⟨m⟩ = true)
    (h : ∀ b, Omits P (f b) e) : Omits P (Dialogue.capability m >>= f) e :=
  .drop m hm (by decide) fun r => h r.granted

/-- What is received without the questions is all the rest, in the same order. -/
theorem receptions (hd : Omits P d e) (f : ForeignRef) (h : Heap) :
    e.receptions f h = (d.receptions f h).filter fun c => !P c.sent := by
  induction hd generalizing h with
  | done a => rfl
  | keep m hm _ ih =>
    have hkept : (h.receptions f m).filter (fun c => !P c.sent) = h.receptions f m := by
      simp [Heap.receptions, hm]
    rw [Dialogue.receptions, Dialogue.receptions, List.filter_append, hkept, ih]
  | drop m hm hk _ ih =>
    have hgone : (h.receptions f m).filter (fun c => !P c.sent) = [] := by
      simp [Heap.receptions, hm]
    rw [Dialogue.receptions, List.filter_append, hgone, List.nil_append, Heap.told_query m hk]
    exact ih _ h

end Omits

end Dialogue
end PropertyDelete
