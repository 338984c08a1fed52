import PropertyDelete.Proofs.Delete.Atomicity
import PropertyDelete.Proofs.Delete.Commutation
import PropertyDelete.Proofs.Delete.Existence
import PropertyDelete.Proofs.Heap.Prototype
import PropertyDelete.Proofs.Object.Frame

/-!
What a key reads as after a delete. A delete that answers true leaves nothing of the property on
the target itself, so what is read is what the prototype of a native object has, found along the
whole chain above it, and nothing on any other target; a delete that is refused or interrupted
leaves what is read as it was (`read_after_delete`). On a string, reading, asking for a property
and deleting agree on what there is.
-/
namespace PropertyDelete

namespace Store

variable {s : Store} {key : Key}

theorem read_object (o : ObjectRef) (key : Key) (s : Store) :
    (read (.object o) key).run s = (s.heap.property o key.storageText, s) := by
  unfold read
  rw [run_get_bind]
  dsimp only
  rw [Heap.target]
  cases (s.heap.native o).isArrayLike with
  | true => rfl
  | false => rfl

/-- A key of a string reads as a unit or as the length, if it names one. -/
theorem read_text_ne (t : Utf16) (key : Key) (s : Store) :
    ((read (.string t) key).run s).1 ≠ .undefined ↔
      ((hasOwn (.string t) key).run s).1 = true := by
  have hnamed : ∀ key : Key,
      (if key.isNamed "length" then Value.number (.ofNat t.length) else .undefined) ≠ .undefined ↔
        key.isNamed "length" = true := by
    intro key
    split
    · next hname => exact ⟨fun _ => hname, fun _ => nofun⟩
    · next hname => exact ⟨fun h => absurd rfl h, fun h => absurd h hname⟩
  cases key with
  | index i =>
    show ((read (.string t) (.index i)).run s).1 ≠ .undefined ↔ decide (i < t.length) = true
    rw [decide_eq_true_eq]
    unfold read
    rw [run_get_bind]
    dsimp only [Heap.target]
    cases hunit : t.units[i]? with
    | some u => exact ⟨fun _ => (List.getElem?_eq_some_iff.mp hunit).1, fun _ => nofun⟩
    | none =>
      have hle := List.getElem?_eq_none_iff.mp hunit
      exact ⟨fun h => absurd rfl h, fun hi => absurd hi (Nat.not_lt_of_le hle)⟩
  | text u => exact hnamed (.text u)
  | symbol v => exact hnamed (.symbol v)

theorem read_host {f : ForeignRef} {obj : ForeignObject} (hobj : s.heap.foreign? f = some obj)
    (hhost : obj.IsHost) (key : Key) :
    ((read (.foreign f) key).run s).1 =
      ((obj.ownProperty? key).bind Descriptor.value).getD .undefined := by
  have hheld := (Dialogue.runWith_heldOn f (Foreign.ownProperty? key) s).1
  rw [Foreign.ownProperty?_host key hobj hhost] at hheld
  show (((((Foreign.ownProperty? key).runWith f).run s).1.bind Descriptor.value).getD _) = _
  rw [hheld]

end Store

/-- A host object has no property left that a delete has answered true for. -/
theorem ForeignObject.ownProperty?_delete {obj : ForeignObject} {key : Key} {policy : DeletePolicy}
    (htrue : (obj.delete key policy).1 = .ok true) :
    (obj.delete key policy).2.ownProperty? key = none := by
  cases obj with
  | record r =>
    have htrue : (r.delete key policy.strict).1 = .ok true := htrue
    have hmember : (r.delete key policy.strict).2.member? key = none := by
      unfold MemberRecord.delete at htrue ⊢
      cases hm : r.member? key with
      | none => exact hm
      | some m =>
        rw [hm] at htrue
        dsimp only at htrue ⊢
        split at htrue
        · exact absurd htrue (Outcome.notConfigurable_ne_true key policy.strict)
        · split at htrue
          · exact absurd htrue (Outcome.refused_ne_true key _ policy.strict)
          · next hfree hopen =>
            rw [if_neg hfree, if_neg hopen, MemberRecord.member?, MemberRecord.name_of_member? hm]
            exact MemberRecord.find?_eq_none_of_subset (List.Subset.refl _)
    show (((r.delete key policy.strict).2.member? key).map _) = none
    rw [hmember]
    rfl
  | list l =>
    have htrue : l.delete key policy.strict = .ok true := htrue
    show ((l.element? key).map _) = none
    unfold ElementList.delete at htrue
    split at htrue
    · exact absurd htrue (Outcome.notConfigurable_ne_true key policy.strict)
    · next hnone => rw [Option.not_isSome_iff_eq_none.mp hnone]; rfl
  | map m => rfl
  | scripted c => rfl

namespace Delete

variable {s : Store} {r : Route} {target : Value}

/-- A route leaves the heap as it is unless it answers true. -/
theorem Route.run_spares (r : Route) (target key : Value) :
    SparesUnless (·.1 = .ok true) (r.run target key) := by
  intro s
  cases r with
  | direct strict =>
    rw [run_direct]
    exact uncached_spares target key strict s
  | cached interrupted site =>
    rw [run_cached]
    exact execute_spares target interrupted site key s

/-- On a target that is no scripted object, a route within its budget is an act on the heap. -/
theorem Route.run_plain (hb : r.budget = .ok ()) (hp : s.heap.Plain target) (key : Value) :
    let answer := s.heap.delete r.policy target (s.heap.toKey key)
    ((r.run target key).run s).1.1 = answer.1 ∧ ((r.run target key).run s).2.heap = answer.2 := by
  obtain ⟨hanswer, hheap⟩ := r.run_agree hb target key s
  obtain ⟨hgeneric, hafter⟩ := generic_plain hp r.policy (s.heap.toKey key)
  exact ⟨hanswer.trans hgeneric, hheap.trans hafter⟩

/-- What a delete has answered true for reads as undefined on a target without a prototype. -/
theorem undefined_after_delete {h : Heap} {k : Key} {policy : DeletePolicy} (hp : h.Plain target)
    (ho : ∀ o, target ≠ .object o) (htrue : (h.delete policy target k).1 = .ok true)
    (hheap : s.heap = (h.delete policy target k).2) :
    ((Store.read target k).run s).1 = .undefined := by
  cases target with
  | object o => exact absurd rfl (ho o)
  | foreign f =>
    obtain ⟨obj, hobj, hhost⟩ := hp f rfl
    rw [Heap.delete_foreign hobj] at htrue hheap
    have hthere : s.heap.foreign? f = some (obj.delete k policy).2 := by
      rw [hheap, Heap.foreign?_setForeign_self hobj]
    have hstill := ForeignObject.delete_isHost hhost k policy
    rw [Store.read_host hthere hstill k, ForeignObject.ownProperty?_delete htrue]
    rfl
  | string t =>
    have hnone : ((Store.hasOwn (.string t) k).run s).1 ≠ true := by
      intro hown
      have hanswer : t.deleteProperty k policy.strict = .ok true := htrue
      rw [deleteProperty_eq t k _ s, hown, if_pos rfl] at hanswer
      exact Outcome.notConfigurable_ne_true k policy.strict hanswer
    exact not_not.mp (mt (Store.read_text_ne t k s).mp hnone)
  | _ => rfl

section Object

variable {h : Heap} {o p : ObjectRef} {k : Key} {strict : Bool}
variable (hwf : h.WellFormed) (hroot : h.Rooted) (hk : k.Normal)
variable (htrue : ((h.native o).delete k strict).1 = .ok true)
include hwf hroot hk htrue

/-- After a delete that answers true, an object with a prototype reads as that reads, which is what
it read as before. -/
theorem property_after_delete (hp : (h.native o).prototype = some p) :
    let h' := h.setNative o ((h.native o).delete k strict).2
    h'.property o k.storageText = h'.property p k.storageText ∧
      h'.property p k.storageText = h.property p k.storageText := by
  intro h'
  have hobject : h'.native o = ((h.native o).delete k strict).2 :=
    h.native_setNative_delete o hk strict
  have hprototype := ((h.native o).delete_framed k strict).prototype
  have hgone : (h'.native o).ownProperty? k.storageText = none := by
    have hobj := hwf.native o
    rw [hobject]
    exact (NativeObject.delete_gone_iff hobj.bounded hk htrue).mpr (hobj.not_shadowed hk)
  have hstill : (h'.native o).prototype = some p := by rw [hobject, hprototype, hp]
  -- the object is not above its own prototype
  have hne : p ≠ o := by
    rintro rfl
    exact hroot p (.prototype hp)
  have hoff : ¬ h.Inherits p o := fun hi => hroot o (.above hp hi)
  exact ⟨Heap.property_of_prototype (hroot.setNative hprototype) hstill hgone,
    h.property_setNative _ hne hoff k.storageText⟩

omit hroot in
theorem property_after_delete_of_none (hp : (h.native o).prototype = none) :
    (h.setNative o ((h.native o).delete k strict).2).property o k.storageText = .undefined := by
  have hobject := h.native_setNative_delete o hk strict
  have hobj := hwf.native o
  apply Heap.property_of_none
  · rw [hobject, ((h.native o).delete_framed k strict).prototype, hp]
  · rw [hobject]
    exact (NativeObject.delete_gone_iff hobj.bounded hk htrue).mpr (hobj.not_shadowed hk)

end Object

/-- On a well-formed and rooted heap, on a target that is no scripted object and for the key of any
value, by any route: after the answer true, a native object that has a prototype reads as the
prototype does, after the delete and before it, and any other target reads as undefined; after any
other answer the target reads as it did. On a string a key reads as something exactly where there
is an own property, and that is exactly where a lenient delete answers false. -/
theorem read_after_delete (hwf : s.heap.WellFormed) (hroot : s.heap.Rooted)
    (hp : s.heap.Plain target) (key : Value) (r : Route) :
    let k := s.heap.toKey key
    let call := (r.run target key).run s
    let before := ((Store.read target k).run s).1
    let after := ((Store.read target k).run call.2).1
    (call.1.1 = .ok true →
      (∀ o p, target = .object o → (s.heap.native o).prototype = some p →
        after = call.2.heap.property p k.storageText ∧
          after = s.heap.property p k.storageText) ∧
      ((∀ o, target = .object o → (s.heap.native o).prototype = none) → after = .undefined)) ∧
    (call.1.1 ≠ .ok true → after = before) ∧
    ∀ t, target = .string t →
      (before ≠ .undefined ↔ ((Store.hasOwn target k).run s).1 = true) ∧
      (r.policy.strict = false → r.budget = .ok () →
        (before ≠ .undefined ↔ call.1.1 = .ok false)) := by
  intro k call before after
  have hk : k.Normal := s.heap.toKey_normal key
  refine ⟨?_, ?_, ?_⟩
  · intro htrue
    have hb : r.budget = .ok () := r.budget_of_true htrue
    obtain ⟨hanswer, hheap⟩ := r.run_plain hb hp key
    have hact : (s.heap.delete r.policy target k).1 = .ok true := hanswer.symm.trans htrue
    have hheap : call.2.heap = (s.heap.delete r.policy target k).2 := hheap
    cases target with
    | object o =>
      have hafter : after = call.2.heap.property o k.storageText :=
        congrArg Prod.fst (Store.read_object o k call.2)
      rw [hafter, hheap]
      refine ⟨?_, ?_⟩
      · rintro _ p ⟨⟩ hprototype
        obtain ⟨habove, hsame⟩ := property_after_delete hwf hroot hk hact hprototype
        exact ⟨habove, habove.trans hsame⟩
      · intro hnone
        exact property_after_delete_of_none hwf hk hact (hnone o rfl)
    | _ =>
      refine ⟨fun _ _ h => (nomatch h), fun _ => ?_⟩
      exact undefined_after_delete hp nofun hact hheap
  · intro hrefused
    have hheap : call.2.heap = s.heap := (r.run_spares target key s).resolve_left hrefused
    exact (Store.read_agree target k call.2 s hheap).1
  · rintro t rfl
    have hread := Store.read_text_ne t k s
    refine ⟨hread, fun hlenient hb => hread.trans ?_⟩
    obtain ⟨hanswer, -⟩ := r.run_plain hb hp key
    have hanswer : call.1.1 = t.deleteProperty k r.policy.strict := hanswer
    rw [hanswer, deleteProperty_eq t k _ s, hlenient]
    cases ((Store.hasOwn (.string t) k).run s).1 with
    | true => exact ⟨fun _ => rfl, fun _ => rfl⟩
    | false => exact ⟨nofun, nofun⟩

/-- A property that hides one two objects above it: after the delete, that one is read. -/
theorem read_after_delete_hidden :
    let s : Store := { heap := { natives :=
      [({} : NativeObject).insert "a" (.plain (.boolean true)), { prototype := some ⟨0⟩ },
        ({ prototype := some ⟨1⟩ } : NativeObject).insert "a" (.plain .null)] } }
    let r : Route := .cached false (.new { strict := true } 4)
    let k := s.heap.toKey (.ofString "a")
    let call := (r.run (.object ⟨2⟩) (.ofString "a")).run s
    s.heap.WellFormed ∧ s.heap.Rooted ∧ s.heap.Plain (.object ⟨2⟩) ∧ call.1.1 = .ok true ∧
      ((Store.read (.object ⟨2⟩) k).run s).1 = .null ∧
      ((Store.read (.object ⟨2⟩) k).run call.2).1 = .boolean true := by
  intro s r k call
  have hwf : s.heap.WellFormed := by
    intro obj hobj slots hslots
    have hplain : ∀ obj ∈ s.heap.natives, obj.elements = none := by decide
    rw [hplain obj hobj] at hslots
    cases hslots
  have hroot : s.heap.Rooted := by
    apply Heap.rooted_of_older
    intro o p hp
    have hprototypes : ∀ i < 3, ∀ p ∈ (s.heap.native ⟨i⟩).prototype, p.index < i := by decide
    exact hprototypes o.index (Heap.lt_of_prototype hp) p hp
  have hplain : s.heap.Plain (.object ⟨2⟩) := fun f hf => nomatch hf
  have htrue : call.1.1 = .ok true := by decide
  obtain ⟨hdeleted, -⟩ := read_after_delete hwf hroot hplain (.ofString "a") r
  have habove := ((hdeleted htrue).1 ⟨2⟩ ⟨1⟩ rfl rfl).2
  have hvalue : s.heap.property ⟨1⟩ k.storageText = .boolean true := by decide
  exact ⟨hwf, hroot, hplain, htrue, by decide, habove.trans hvalue⟩

end Delete
end PropertyDelete
