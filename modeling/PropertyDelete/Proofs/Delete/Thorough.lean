import PropertyDelete.Proofs.Delete.Contract
import PropertyDelete.Proofs.Object.Edits

/-!
What a successful delete leaves. A delete of a native object that answers true leaves no
property under the key, and answers true again and changes nothing when it is repeated, unless
the object has element slots and its table has a property under the name of a slot or of the
length (`thorough_iff`). A delete by index then empties the slot and leaves the property of the
table; one of the length takes the property of the table and leaves the length of the slots,
which cannot be deleted.
-/
namespace PropertyDelete

namespace Delete

variable {s : Store} {o : ObjectRef} {r : Route}

/-- A delete of a native object, by any route within its budget. -/
theorem Route.run_object (hb : r.budget = .ok ()) (o : ObjectRef) (key : Value) (s : Store) :
    ∃ r', r.Same r' ∧
      (r.run (.object o) key).run s =
        ((((s.heap.native o).delete (s.heap.toKey key) r.policy.strict).1, r'),
          s.setNative o ((s.heap.native o).delete (s.heap.toKey key) r.policy.strict).2) := by
  have hnative : ∀ f, Value.object o ≠ .foreign f := fun f => nofun
  obtain ⟨r', hsame, hrun⟩ := r.run_native hb hnative key s
  refine ⟨r', hsame, ?_⟩
  rw [hrun, generic_object]

/-- When a successful delete is thorough: exactly where the property was not shadowed. The
object is any one that the engine can make, the key any value that is no object, and the route
any one at all. -/
theorem thorough_iff {start : NativeObject} (hnew : start.New) (edits : List NativeEdit)
    (hobject : s.heap.native o = start.edited edits) {key : Value} (hkey : ∀ p, key ≠ .object p)
    (htrue : ((r.run (.object o) key).run s).1.1 = .ok true) :
    let call := (r.run (.object o) key).run s
    let own := (Store.hasOwn (.object o) (call.2.heap.toKey key)).run call.2
    let again := (call.1.2.run (.object o) key).run call.2
    (own.1 = false ∧ again.1.1 = .ok true ∧ again.2 = call.2) ↔
      ¬ (start.edited edits).Shadowed (s.heap.toKey key) := by
  intro call own again
  have hk := s.heap.toKey_normal key
  have hbounded : (s.heap.native o).Bounded := by
    rw [hobject]
    exact NativeObject.bounded_edited hnew.bounded edits
  have hbudget := Route.budget_of_true htrue
  obtain ⟨r', hsame, hrun⟩ := Route.run_object hbudget o key s
  have hanswer : ((s.heap.native o).delete (s.heap.toKey key) r.policy.strict).1 = .ok true := by
    rw [hrun] at htrue
    exact htrue
  have hroute : call.1.2 = r' := congrArg (fun a => a.1.2) hrun
  have hstore : call.2 =
      s.setNative o ((s.heap.native o).delete (s.heap.toKey key) r.policy.strict).2 :=
    congrArg Prod.snd hrun
  -- the object as the first delete has left it, and the key, which is still the same
  have hleft : call.2.heap.native o =
      ((s.heap.native o).delete (s.heap.toKey key) r.policy.strict).2 := by
    rw [hstore]
    exact s.heap.native_setNative_delete o hk _
  have hsamekey : call.2.heap.toKey key = s.heap.toKey key := by
    rw [Heap.toKey_of_ne_object _ hkey, Heap.toKey_of_ne_object _ hkey]
  have hown : own.1 = false ↔
      ((s.heap.native o).delete (s.heap.toKey key) r.policy.strict).2.ownProperty?
        (s.heap.toKey key).storageText = none := by
    show ((Store.hasOwn (.object o) (call.2.heap.toKey key)).run call.2).1 = false ↔ _
    rw [Store.hasOwn_object, hsamekey, hleft, NativeObject.hasOwnProperty,
      Option.isSome_eq_false_iff, Option.isNone_iff_eq_none]
  have hgone := NativeObject.delete_gone_iff hbounded hk hanswer
  rw [← hobject]
  constructor
  · rintro ⟨hfalse, -, -⟩
    exact hgone.mp (hown.mp hfalse)
  · intro hclear
    have hnone := hgone.mpr hclear
    refine ⟨hown.mpr hnone, ?_⟩
    -- a delete of what is not there
    have hagain := NativeObject.delete_absent (hbounded.delete _ _) hk hnone r'.policy.strict
    obtain ⟨r'', -, hrun'⟩ := Route.run_object (hsame.2.trans hbudget) o key call.2
    rw [hsamekey, hleft, hagain] at hrun'
    show ((call.1.2.run (.object o) key).run call.2).1.1 = .ok true ∧
      ((call.1.2.run (.object o) key).run call.2).2 = call.2
    rw [hroute, hrun', ← hleft, Store.setNative_native]
    exact ⟨rfl, rfl⟩

/-- An array with a property in its table, and a delete of its first element at a site. -/
theorem thorough_element :
    let start := NativeObject.array [.null]
    let edits := [NativeEdit.insert "size" (.plain .null)]
    let s : Store := { heap := { natives := [start.edited edits] } }
    let key := Value.ofString "0"
    let call := ((Route.cached false (.new { strict := true } 4)).run (.object ⟨0⟩) key).run s
    let own := (Store.hasOwn (.object ⟨0⟩) (call.2.heap.toKey key)).run call.2
    let again := (call.1.2.run (.object ⟨0⟩) key).run call.2
    call.1.1 = .ok true ∧ own.1 = false ∧ again.1.1 = .ok true ∧ again.2 = call.2 := by
  intro start edits s key call own again
  have hnew : start.New := Or.inr ⟨[.null], by decide, rfl⟩
  have htrue : call.1.1 = .ok true := by decide
  have hclear : ¬ (start.edited edits).Shadowed (s.heap.toKey key) := by
    rintro ⟨-, hsome, -⟩
    exact absurd hsome (by decide)
  have hkey : ∀ p, Value.ofString "0" ≠ .object p := by
    intro p hp
    cases hp
  exact ⟨htrue, (thorough_iff hnew edits rfl hkey htrue).mpr hclear⟩

/-- An array whose table was given a property named like its first element: the delete answers
true, and the property is there. -/
theorem delete_leaves_shadowed_element :
    let start := NativeObject.array [.boolean true]
    let s : Store :=
      { heap := { natives := [start.edited [.insert "0" (.plain (.boolean false))]] } }
    let key := Value.ofString "0"
    let call := ((Route.direct false).run (.object ⟨0⟩) key).run s
    call.1.1 = .ok true ∧
      ((Store.hasOwn (.object ⟨0⟩) (call.2.heap.toKey key)).run call.2).1 = true := by
  decide

end Delete
end PropertyDelete
