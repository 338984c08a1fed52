import PropertyDelete.Foreign.Delivery

/-!
Delivery of messages, case by case: what each kind of foreign object does with a message it
receives. From the cases follow the two facts that the rest builds on: neither the reply nor
the heap afterwards depends on the log (`deliver_agree`), and a message changes the heap only if
it is a removal and is granted (`deliver_unchanged`). The kind of reply tells removals from other
messages: they, and only they, are replied to by mere success.
-/
namespace PropertyDelete

/-- The object to which a scripted object in the place of `f` passes a message on: its base, if
it has no reply of its own and the base was made before it. -/
def ScriptedObject.passesTo? (c : ScriptedObject) (f : ForeignRef) {k : ReplyKind}
    (m : Message k) : Option ForeignRef :=
  if (c.reply? m).isSome then none else c.base.filter (·.index < f.index)

theorem ScriptedObject.passesTo?_lt {c : ScriptedObject} {f b : ForeignRef} {k : ReplyKind}
    {m : Message k} (h : c.passesTo? f m = some b) : b.index < f.index := by
  unfold passesTo? at h
  split at h
  · cases h
  · simpa using (Option.filter_eq_some_iff.mp h).2

/-- A record grants a removal, or stays as it is. -/
theorem MemberRecord.remove_cases (r : MemberRecord) (name : String) :
    (r.remove name).1 = .ok () ∨ (r.remove name).2 = r := by
  unfold remove
  split
  · exact Or.inr rfl
  · split
    · exact Or.inr rfl
    · split
      · exact Or.inr rfl
      · exact Or.inl rfl

/-- A map grants a removal, or stays as it is. -/
theorem EntryMap.remove_cases (t : EntryMap) (key : String) :
    (t.remove key).1 = .ok () ∨ (t.remove key).2 = t := by
  unfold remove
  split
  · exact Or.inr rfl
  · split
    · exact Or.inr rfl
    · exact Or.inl rfl

/-- A record is changed only by removals that it grants. -/
theorem MemberRecord.receive_unchanged {k : ReplyKind} {r : MemberRecord} {m : Message k}
    (h : k ≠ .done ∨ ∃ e, (r.receive m).1 = .error e) : (r.receive m).2 = r := by
  cases m with
  | removeMember name =>
    rcases h with hk | ⟨e, he⟩
    · exact absurd rfl hk
    · refine (r.remove_cases name).resolve_left fun hok => ?_
      have he : (r.remove name).1 = .error e := he
      rw [hok] at he
      cases he
  | readMember name => simp only [receive]; split <;> rfl
  | _ => rfl

/-- A map is changed only by removals that it grants. -/
theorem EntryMap.receive_unchanged {k : ReplyKind} {t : EntryMap} {text : Value → String}
    {m : Message k} (h : k ≠ .done ∨ ∃ e, (t.receive text m).1 = .error e) :
    (t.receive text m).2 = t := by
  cases m with
  | removeHashEntry key =>
    rcases h with hk | ⟨e, he⟩
    · exact absurd rfl hk
    · refine (t.remove_cases (text key)).resolve_left fun hok => ?_
      have he : (t.remove (text key)).1 = .error e := he
      rw [hok] at he
      cases he
  | _ => rfl

namespace Store

variable {k : ReplyKind} {s : Store} {f : ForeignRef} (m : Message k)

theorem setForeign_self {obj : ForeignObject} (h : s.heap.foreign? f = some obj) :
    s.setForeign f obj = s := by
  obtain ⟨hlt, he⟩ := List.getElem?_eq_some_iff.mp h
  have hset : s.heap.foreigns.set f.index obj = s.heap.foreigns := by
    rw [← he, List.set_getElem_self]
  simp only [setForeign, Heap.setForeign, hset]

/-! ## One equation for each kind of receiver -/

theorem deliver_absent (h : s.heap.foreign? f = none) : s.deliver f m = (m.unanswered, s) := by
  rw [deliver, h]

theorem deliver_record {r : MemberRecord} (h : s.heap.foreign? f = some (.record r)) :
    s.deliver f m = ((r.receive m).1, s.setForeign f (.record (r.receive m).2)) := by
  rw [deliver, h]

theorem deliver_list {l : ElementList} (h : s.heap.foreign? f = some (.list l)) :
    s.deliver f m = (l.reply m, s) := by
  rw [deliver, h]

theorem deliver_map {e : EntryMap} (h : s.heap.foreign? f = some (.map e)) :
    s.deliver f m =
      ((e.receive s.heap.text m).1, s.setForeign f (.map (e.receive s.heap.text m).2)) := by
  rw [deliver, h]

theorem deliver_answered {c : ScriptedObject} (h : s.heap.foreign? f = some (.scripted c))
    (hc : c.passesTo? f m = none) :
    s.deliver f m = ((c.reply? m).getD m.unanswered, s.logged f m) := by
  rw [deliver, h]
  cases hr : c.reply? m with
  | some r => simp [hr]
  | none =>
    cases hb : c.base with
    | none => simp [hr, hb]
    | some b =>
      have hle : ¬ b.index < f.index := by
        simpa [ScriptedObject.passesTo?, hr, hb, Option.filter_eq_none_iff] using hc
      simp [hr, hb, hle]

theorem deliver_passed {c : ScriptedObject} {b : ForeignRef}
    (h : s.heap.foreign? f = some (.scripted c)) (hc : c.passesTo? f m = some b) :
    s.deliver f m = (s.logged f m).deliver b m := by
  have hlt := ScriptedObject.passesTo?_lt hc
  unfold ScriptedObject.passesTo? at hc
  split at hc
  · cases hc
  · next hr =>
    rw [deliver, h]
    simp [Option.not_isSome_iff_eq_none.mp hr, (Option.filter_eq_some_iff.mp hc).1, hlt]

/-! ## What delivery depends on, and what it changes -/

/-- What a foreign object replies, and what becomes of the heap, does not depend on the log. -/
theorem deliver_agree (f : ForeignRef) (s t : Store) (h : s.heap = t.heap) :
    (s.deliver f m).1 = (t.deliver f m).1 ∧ (s.deliver f m).2.heap = (t.deliver f m).2.heap := by
  -- a base is made before the objects that pass on to it, so the places decrease
  induction hn : f.index using Nat.strongRecOn generalizing f s t with
  | ind n ih =>
    cases hf : s.heap.foreign? f with
    | none =>
      rw [deliver_absent m hf, deliver_absent m (h ▸ hf)]
      exact ⟨rfl, h⟩
    | some obj =>
      have hg : t.heap.foreign? f = some obj := h ▸ hf
      cases obj with
      | record r =>
        rw [deliver_record m hf, deliver_record m hg]
        exact ⟨rfl, congrArg (Heap.setForeign · f _) h⟩
      | list l =>
        rw [deliver_list m hf, deliver_list m hg]
        exact ⟨rfl, h⟩
      | map e =>
        rw [deliver_map m hf, deliver_map m hg, h]
        exact ⟨rfl, congrArg (Heap.setForeign · f _) h⟩
      | scripted c =>
        cases hc : c.passesTo? f m with
        | none =>
          rw [deliver_answered m hf hc, deliver_answered m hg hc]
          exact ⟨rfl, h⟩
        | some b =>
          rw [deliver_passed m hf hc, deliver_passed m hg hc]
          have hlt := ScriptedObject.passesTo?_lt hc
          exact ih b.index (by omega) b _ _ h rfl

/-- Only a removal that is granted can change the heap. -/
theorem deliver_unchanged (f : ForeignRef) (s : Store)
    (h : k ≠ .done ∨ ∃ e, (s.deliver f m).1 = .error e) : (s.deliver f m).2.heap = s.heap := by
  induction hn : f.index using Nat.strongRecOn generalizing f s with
  | ind n ih =>
    cases hf : s.heap.foreign? f with
    | none => rw [deliver_absent m hf]
    | some obj =>
      cases obj with
      | record r =>
        rw [deliver_record m hf] at h ⊢
        rw [MemberRecord.receive_unchanged h, setForeign_self hf]
      | list l => rw [deliver_list m hf]
      | map t =>
        rw [deliver_map m hf] at h ⊢
        rw [EntryMap.receive_unchanged h, setForeign_self hf]
      | scripted c =>
        cases hc : c.passesTo? f m with
        | none =>
          rw [deliver_answered m hf hc]
          rfl
        | some b =>
          rw [deliver_passed m hf hc] at h ⊢
          have hlt := ScriptedObject.passesTo?_lt hc
          exact ih b.index (by omega) b (s.logged f m) h rfl

/-- Only a removal can change the heap. -/
theorem deliver_heap (hk : k ≠ .done) (f : ForeignRef) (s : Store) :
    (s.deliver f m).2.heap = s.heap := deliver_unchanged m f s (Or.inl hk)

/-- A message that is refused leaves the heap as it is. -/
theorem deliver_refused {e : Refusal} (h : (s.deliver f m).1 = .error e) :
    (s.deliver f m).2.heap = s.heap := deliver_unchanged m f s (Or.inr ⟨e, h⟩)

end Store
end PropertyDelete
