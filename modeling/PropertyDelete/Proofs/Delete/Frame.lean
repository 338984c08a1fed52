import PropertyDelete.Proofs.Delete.Contract
import PropertyDelete.Proofs.Object.Frame

/-!
The frame of a delete on a target that is not foreign, whichever way it is made. All that it can
write is the object that is the target (`Way.run_writes`), so prototypes, objects that inherit from
the target, objects that it holds and foreign objects are as they were; and of the target it leaves
everything but what the key names (`native_frame`). Nothing is asked of the heap.
-/
namespace PropertyDelete.Delete

/-- A way of a delete: by a route, which converts a value to the key; or, with the key at hand, the
generic way or that of a variant. -/
inductive Way where
  | route (r : Route) (key : Value)
  | generic (policy : DeletePolicy) (key : Key)
  | variant (v : DeleteVariant) (policy : DeletePolicy) (key : Key)

namespace Way

def key (h : Heap) : Way → Key
  | .route _ key => h.toKey key
  | .generic _ key | .variant _ _ key => key

def run (target : Value) : Way → StoreM Outcome
  | .route r key => do
    return (← r.run target key).1
  | .generic policy key => Delete.generic policy target key
  | .variant v policy key => invoke v policy target key

end Way

variable {target : Value}

/-- Whether a store is an earlier one, or that with the target written as a delete under a key
leaves it. -/
def WritesTarget (target : Value) (key : Key) (s s' : Store) : Prop :=
  s' = s ∨ ∃ o strict, target = .object o ∧
    s' = s.setNative o ((s.heap.native o).delete key strict).2

theorem generic_writes (policy : DeletePolicy) (ht : ∀ f, target ≠ .foreign f) (key : Key)
    (s : Store) : WritesTarget target key s ((generic policy target key).run s).2 := by
  cases target with
  | object o =>
    rw [generic_object]
    exact Or.inr ⟨o, policy.strict, rfl, rfl⟩
  | foreign f => exact absurd rfl (ht f)
  | _ => exact Or.inl rfl

/-- A delete writes the target at most, whichever way it is made. -/
theorem Way.run_writes (w : Way) (ht : ∀ f, target ≠ .foreign f) (s : Store) :
    WritesTarget target (w.key s.heap) s ((w.run target).run s).2 := by
  cases w with
  | route r key =>
    show WritesTarget target (s.heap.toKey key) s ((r.run target key).run s).2
    cases hb : r.budget with
    | error e =>
      rw [Route.run_refused hb]
      exact Or.inl rfl
    | ok u =>
      obtain ⟨r', -, hrun⟩ := r.run_native hb ht key s
      rw [hrun]
      exact generic_writes r.policy ht _ s
  | generic policy key => exact generic_writes policy ht key s
  | variant v policy key =>
    show WritesTarget target key s ((invoke v policy target key).run s).2
    rw [invoke_native v policy ht]
    exact generic_writes policy ht key s

/-- Whatever the heap and the way, a delete of a target that is not foreign leaves the foreign
objects, the log and all native objects but the target; and of the target it leaves everything but
what the key names. -/
theorem native_frame (ht : ∀ f, target ≠ .foreign f) (w : Way) (s : Store) :
    let s' := ((w.run target).run s).2
    s'.heap.foreigns = s.heap.foreigns ∧ s'.calls = s.calls ∧
      s'.heap.natives.length = s.heap.natives.length ∧
      (∀ p, target ≠ .object p → s'.heap.native p = s.heap.native p) ∧
      ∀ o, target = .object o →
        (s.heap.native o).Framed (w.key s.heap) (s'.heap.native o) := by
  intro s'
  obtain hkeep | ⟨o, strict, rfl, hwrite⟩ := w.run_writes ht s
  · have hs : s' = s := hkeep
    rw [hs]
    exact ⟨rfl, rfl, rfl, fun _ _ => rfl, fun o _ => .refl _ _⟩
  · have hs : s' = s.setNative o ((s.heap.native o).delete (w.key s.heap) strict).2 := hwrite
    rw [hs]
    refine ⟨rfl, rfl, List.length_set, ?_, ?_⟩
    · intro p hp
      exact s.heap.native_setNative_of_ne (fun e => hp (congrArg Value.object e.symm)) _
    · rintro _ ⟨⟩
      show (s.heap.native o).Framed _ ((s.heap.setNative o _).native o)
      rcases s.heap.native_setNative o _ with hread | hread <;> rw [hread]
      · exact NativeObject.delete_framed _ _ strict
      · exact .refl _ _

/-- An array that holds its own prototype, with a property in its table named like its first
element: the element goes, and the rest is as it was. -/
theorem native_frame_shadowed :
    let a := (NativeObject.array [.object ⟨1⟩, .null]).insert "0" (.plain .null)
    let s : Store := { heap := { natives := [{ a with prototype := some ⟨1⟩ }, {}] } }
    let w := Way.route (.cached false (.new { strict := true } 4)) (Value.ofString "0")
    let s' := ((w.run (.object ⟨0⟩)).run s).2
    (∀ f, Value.object ⟨0⟩ ≠ .foreign f) ∧ s'.heap.native ⟨1⟩ = s.heap.native ⟨1⟩ ∧
      (s.heap.native ⟨0⟩).Framed (.index 0) (s'.heap.native ⟨0⟩) ∧
      (s'.heap.native ⟨0⟩).elements = some [none, some .null] := by
  intro a s w s'
  have hnative : ∀ f, Value.object ⟨0⟩ ≠ .foreign f := fun f => nofun
  obtain ⟨-, -, -, hothers, htarget⟩ := native_frame hnative w s
  have hkey : w.key s.heap = .index 0 := by decide
  refine ⟨hnative, hothers ⟨1⟩ (by decide), ?_, by decide⟩
  rw [← hkey]
  exact htarget ⟨0⟩ rfl

end PropertyDelete.Delete
