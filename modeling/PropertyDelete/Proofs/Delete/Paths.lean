import PropertyDelete.Delete.Operation
import PropertyDelete.Proofs.Heap.Agreement
import PropertyDelete.Proofs.Site.Call

/-!
The ways a delete can go. Every variant, whether or not its guard accepts the operands, comes
to the same answer and the same heap as the generic way (`invoke_agree`). All but one do so by
running the same code (`invoke_run`); the way of `foreignMember` leaves out one question to
the object, whose reply a text key makes no use of. So what a site remembers decides only what
is logged, and a call at a site agrees with a call that checks the budget and goes the generic
way (`execute_agree`).
-/
namespace PropertyDelete

namespace Foreign

/-- For a text key it does not matter whether the object has indexed elements. -/
theorem delete_agree_deleteNamed (t : Utf16) (policy : DeletePolicy) (f : ForeignRef) :
    Agree ((delete (.text t) policy).runWith f) ((deleteNamed (.text t) policy).runWith f) := by
  unfold deleteNamed delete
  rw [Dialogue.runWith_bind_eq, Dialogue.runWith_bind_eq]
  refine Agree.bind (Dialogue.runWith_agree f _) fun answer => ?_
  cases answer with
  | some o => exact Agree.pure' o
  | none =>
    refine Dialogue.ask_agree f .hasArrayElements (by decide) fun r => ?_
    show (Dialogue.capability .hasMembers >>= _) = (Dialogue.capability .hasMembers >>= _)
    congr 1
    funext members
    cases members <;> rfl

end Foreign

theorem Heap.target_eq_foreign {h : Heap} {v : Value} {f : ForeignRef} :
    h.target v = .foreign f ↔ v = .foreign f := by
  cases v with
  | object o => by_cases ho : (h.native o).isArrayLike <;> simp [Heap.target, ho]
  | _ => simp [Heap.target]

namespace Delete

/-- A delete with no site: the budget is checked, and then it goes the generic way. -/
def checked (policy : DeletePolicy) (interrupted : Flags) (target key : Value) :
    StoreM Outcome := do
  match budget policy interrupted with
  | .error e => return .error e
  | .ok () => generic policy target ((← get).heap.toKey key)

/-- A variant runs the generic way, save that `foreignMember` has its own way with a text key
on a foreign object. -/
theorem invoke_run (v : DeleteVariant) (policy : DeletePolicy) (target : Value) (key : Key)
    (s : Store) :
    (invoke v policy target key).run s = (generic policy target key).run s ∨
      ∃ f t, target = .foreign f ∧ key = .text t ∧
        (invoke v policy target key).run s =
          ((Foreign.deleteNamed key policy).runWith f).run s ∧
        (generic policy target key).run s = ((Foreign.delete key policy).runWith f).run s := by
  unfold invoke generic
  simp only [run_get_bind]
  split
  case h_9 f t ht =>
    refine Or.inr ⟨f, t, Heap.target_eq_foreign.mp ht, rfl, rfl, ?_⟩
    rw [ht]
  case h_12 => exact Or.inl rfl
  case h_2 o i ho =>
    -- an index on an array-like object: the dispatch on the key is done already
    rw [ho]
    exact Or.inl rfl
  case h_4 t i ht =>
    rw [ht]
    exact Or.inl rfl
  all_goals
    left
    simp only [‹s.heap.target target = _›]

theorem onNative_agree (o : ObjectRef) (act : NativeObject → Outcome × NativeObject) :
    Agree (onNative o act) (onNative o act) := by
  intro s t h
  show (act (s.heap.native o)).1 = (act (t.heap.native o)).1 ∧
    s.heap.setNative o (act (s.heap.native o)).2 = t.heap.setNative o (act (t.heap.native o)).2
  rw [h]
  exact ⟨rfl, rfl⟩

theorem generic_agree (policy : DeletePolicy) (target : Value) (key : Key) :
    Agree (generic policy target key) (generic policy target key) := by
  unfold generic
  refine Agree.get_bind fun s t h => ?_
  rw [h]
  cases t.heap.target target with
  | ordinary o => exact onNative_agree o _
  | arrayLike o => exact onNative_agree o _
  | foreign f => exact Dialogue.runWith_agree f _
  | _ => exact Agree.pure' _

/-- No variant can be told from the generic way by its answer or by the heap, whether or not
its guard accepts the operands. -/
theorem invoke_agree (v : DeleteVariant) (policy : DeletePolicy) (target : Value) (key : Key) :
    Agree (invoke v policy target key) (generic policy target key) := by
  intro s t h
  rcases invoke_run v policy target key s with e | ⟨f, u, -, rfl, ei, eg⟩
  · rw [e]
    exact generic_agree policy target key s t h
  · rw [ei]
    obtain ⟨hv, hh⟩ := (Foreign.delete_agree_deleteNamed u policy f).symm s s rfl
    rw [hv, hh, ← eg]
    exact generic_agree policy target (.text u) s t h

/-- Whatever entry a site has chosen, or none, the answer and the heap are those of the generic
way. -/
theorem perform_agree (entry : Option DeleteVariant) (policy : DeletePolicy) (target : Value)
    (key : Key) : Agree (deletion.perform entry policy target key) (generic policy target key) := by
  cases entry with
  | some v => exact invoke_agree v policy target key
  | none => exact generic_agree policy target key

theorem checked_refused {policy : DeletePolicy} {interrupted : Flags} {e : DeleteError}
    (h : budget policy interrupted = .error e) (target key : Value) (s : Store) :
    (checked policy interrupted target key).run s = (.error e, s) := by
  unfold checked
  rw [h]
  rfl

theorem checked_run {policy : DeletePolicy} {interrupted : Flags}
    (h : budget policy interrupted = .ok ()) (target key : Value) (s : Store) :
    (checked policy interrupted target key).run s =
      (generic policy target (s.heap.toKey key)).run s := by
  unfold checked
  rw [h]
  exact run_get_bind _ s

/-- The answer of a call at a site, and the heap after it, do not depend on what the site
remembers nor on how much it may. -/
theorem execute_agree (interrupted : Flags) (site : DeleteSite) (target key : Value)
    {s t : Store} (h : s.heap = t.heap) :
    ((deletion.execute interrupted site target key).run s).1.1 =
        ((checked site.policy interrupted target key).run t).1 ∧
      ((deletion.execute interrupted site target key).run s).2.heap =
        ((checked site.policy interrupted target key).run t).2.heap := by
  cases hb : deletion.budget site.policy interrupted with
  | error e =>
    rw [Operation.execute_refused hb, checked_refused hb]
    exact ⟨rfl, h⟩
  | ok u =>
    rw [Operation.execute_run hb, checked_run hb, h]
    exact perform_agree _ site.policy target (t.heap.toKey key) s t h

end Delete
end PropertyDelete
