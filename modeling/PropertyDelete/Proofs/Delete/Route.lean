import PropertyDelete.Proofs.Delete.Paths
import PropertyDelete.Proofs.Foreign.Exchange
import PropertyDelete.Proofs.Object.Own

/-!
The two ways in to a delete: with no site, or at a site, whatever it remembers and whatever its
limit. On a target that is not foreign both come to the generic way, store and log included, as
long as the budget lets them through (`run_native`); and the generic way is a delete on one
native object, a delete on a string, or nothing at all. On a foreign object the answer and the heap
are those of one dialogue with it (`run_foreign`).
-/
namespace PropertyDelete.Delete

/-- A way in to a delete. -/
inductive Route where
  /-- With no site. -/
  | direct (strict : Bool)
  /-- At a site, with the interrupt flags as they are given. -/
  | cached (interrupted : Flags) (site : DeleteSite)

namespace Route

/-- What is settled about the deletes of a route. -/
def policy : Route → DeletePolicy
  | .direct strict => { strict }
  | .cached _ site => site.policy

def budget : Route → Except DeleteError Unit
  | .direct _ => .ok ()
  | .cached interrupted site => Delete.budget site.policy interrupted

/-- Deletes by a route, and hands on the route for the next delete. -/
def run (r : Route) (target key : Value) : StoreM (Outcome × Route) :=
  match r with
  | .direct strict => do
    return (← uncached target key strict, r)
  | .cached interrupted site => do
    let answer ← deletion.execute interrupted site target key
    return (answer.1, .cached interrupted answer.2)

/-- The routes that differ from each other only in what a site remembers. -/
def Same (r r' : Route) : Prop := r'.policy = r.policy ∧ r'.budget = r.budget

variable {r : Route}

theorem run_direct (strict : Bool) (target key : Value) (s : Store) :
    ((direct strict).run target key).run s =
      let answer := (uncached target key strict).run s
      ((answer.1, .direct strict), answer.2) := rfl

theorem run_cached (interrupted : Flags) (site : DeleteSite) (target key : Value) (s : Store) :
    ((cached interrupted site).run target key).run s =
      let answer := (deletion.execute interrupted site target key).run s
      ((answer.1.1, .cached interrupted answer.1.2), answer.2) := rfl

theorem run_refused {e : DeleteError} (h : r.budget = .error e) (target key : Value) (s : Store) :
    (r.run target key).run s = ((.error e, r), s) := by
  cases r with
  | direct strict => cases h
  | cached interrupted site =>
    have hrefused : deletion.budget site.policy interrupted = .error e := h
    rw [run_cached, Operation.execute_refused hrefused]

/-- A route that answers true is within its budget. -/
theorem budget_of_true {target key : Value} {s : Store}
    (h : ((r.run target key).run s).1.1 = .ok true) : r.budget = .ok () := by
  cases hb : r.budget with
  | ok u => rfl
  | error e =>
    rw [run_refused hb] at h
    cases h

end Route

/-! ## Targets that are not foreign -/

theorem invoke_native (v : DeleteVariant) (policy : DeletePolicy) {target : Value}
    (ht : ∀ f, target ≠ .foreign f) (key : Key) (s : Store) :
    (invoke v policy target key).run s = (generic policy target key).run s := by
  rcases invoke_run v policy target key s with h | ⟨f, -, hf, -⟩
  · exact h
  · exact absurd hf (ht f)

theorem perform_native (entry : Option DeleteVariant) (policy : DeletePolicy) {target : Value}
    (ht : ∀ f, target ≠ .foreign f) (key : Key) (s : Store) :
    (deletion.perform entry policy target key).run s = (generic policy target key).run s := by
  cases entry with
  | none => rfl
  | some v => exact invoke_native v policy ht key s

theorem uncached_run (target key : Value) (strict : Bool) (s : Store) :
    (uncached target key strict).run s =
      (generic { strict } target (s.heap.toKey key)).run s := run_get_bind _ s

/-- A route that the budget lets through goes the generic way. -/
theorem Route.run_native {r : Route} (hb : r.budget = .ok ()) {target : Value}
    (ht : ∀ f, target ≠ .foreign f) (key : Value) (s : Store) :
    ∃ r', r.Same r' ∧
      (r.run target key).run s =
        ((((generic r.policy target (s.heap.toKey key)).run s).1, r'),
          ((generic r.policy target (s.heap.toKey key)).run s).2) := by
  cases r with
  | direct strict =>
    refine ⟨.direct strict, ⟨rfl, rfl⟩, ?_⟩
    rw [run_direct, uncached_run]
    rfl
  | cached interrupted site =>
    -- whichever entry the site chooses, only its cache tells that it has been called
    have hbudget : deletion.budget site.policy interrupted = .ok () := hb
    have hrun := Operation.execute_run hbudget target key s
    dsimp only at hrun
    rw [perform_native _ _ ht] at hrun
    refine ⟨.cached interrupted (site.withCache
      (deletion.choose site ⟨s.heap.shape target, (s.heap.toKey key).shape⟩).2), ⟨rfl, rfl⟩, ?_⟩
    rw [run_cached, hrun]
    rfl

/-- A route that the budget lets through answers as the generic way does and leaves the same
heap, whatever the target. -/
theorem Route.run_agree {r : Route} (hb : r.budget = .ok ()) (target key : Value) (s : Store) :
    ((r.run target key).run s).1.1 = ((generic r.policy target (s.heap.toKey key)).run s).1 ∧
      ((r.run target key).run s).2.heap =
        ((generic r.policy target (s.heap.toKey key)).run s).2.heap := by
  cases r with
  | direct strict =>
    rw [run_direct, uncached_run]
    exact ⟨rfl, rfl⟩
  | cached interrupted site =>
    obtain ⟨hanswer, hheap⟩ := execute_agree interrupted site target key (rfl : s.heap = s.heap)
    rw [checked_run hb] at hanswer hheap
    exact ⟨hanswer, hheap⟩

/-- On a foreign object a route that the budget lets through holds the dialogue of a delete. -/
theorem Route.run_foreign {r : Route} (hb : r.budget = .ok ()) (f : ForeignRef) (key : Value)
    (s : Store) :
    let held := (Foreign.delete (s.heap.toKey key) r.policy).heldOn f s.heap
    ((r.run (.foreign f) key).run s).1.1 = held.1 ∧
      ((r.run (.foreign f) key).run s).2.heap = held.2 := by
  obtain ⟨hanswer, hheap⟩ := run_agree hb (.foreign f) key s
  obtain ⟨hresult, hafter⟩ :=
    Dialogue.runWith_heldOn f (Foreign.delete (s.heap.toKey key) r.policy) s
  exact ⟨hanswer.trans hresult, hheap.trans hafter⟩

/-- The generic way on a native object is a delete on that object. -/
theorem generic_object (policy : DeletePolicy) (o : ObjectRef) (key : Key) (s : Store) :
    (generic policy (.object o) key).run s =
      (((s.heap.native o).delete key policy.strict).1,
        s.setNative o ((s.heap.native o).delete key policy.strict).2) := by
  unfold generic NativeObject.delete
  rw [run_get_bind, Heap.target]
  cases (s.heap.native o).isArrayLike with
  | true => rfl
  | false => rfl

theorem generic_text (policy : DeletePolicy) (t : Utf16) (key : Key) (s : Store) :
    (generic policy (.string t) key).run s = (t.deleteProperty key policy.strict, s) := rfl

end PropertyDelete.Delete
