import PropertyDelete.Proofs.Delete.Route
import PropertyDelete.Proofs.Object.WellFormed

/-!
The contract of a delete on a target that is not foreign, by any route. The own properties of
such a target are removable or fixed; a delete of no property changes nothing, one of a
removable property removes it, and one of a fixed property is refused (`native_contract`).
-/
namespace PropertyDelete

namespace Heap

/-- Whether every native object of a heap is well formed. -/
def WellFormed (h : Heap) : Prop := ∀ obj ∈ h.natives, obj.WellFormed

/-- Whether a key denotes an own property of a value that may be removed. -/
def Removable (h : Heap) : Value → Key → Prop
  | .object o, key => (h.native o).Removable key
  | _, _ => False

/-- Whether a key denotes an own property of a value that may not be removed. The units of a
string and its length are such properties. -/
def Fixed (h : Heap) : Value → Key → Prop
  | .object o, key => (h.native o).Fixed key
  | .string t, key => key.isNamed "length" = true ∨ ∃ i, key = .index i ∧ i < t.length
  | _, _ => False

variable {h : Heap}

theorem WellFormed.native (hwf : h.WellFormed) (o : ObjectRef) : (h.native o).WellFormed := by
  by_cases ho : o.index < h.natives.length
  · have hmem : h.native o ∈ h.natives := by
      rw [Heap.native, List.getElem?_eq_getElem ho]
      exact List.getElem_mem ho
    exact hwf _ hmem
  · rw [native_of_le (Nat.le_of_not_lt ho)]
    intro slots hs
    cases hs

theorem delete_empty {key : Key} (hk : key.Normal) (strict : Bool) :
    ({} : NativeObject).delete key strict = (.ok true, {}) := by
  apply NativeObject.delete_absent _ hk rfl
  intro slots hs
  cases hs

/-- An object reads as the delete has left it, and so does a reference to nothing. -/
theorem native_setNative_delete (h : Heap) (o : ObjectRef) {key : Key} (hk : key.Normal)
    (strict : Bool) :
    (h.setNative o ((h.native o).delete key strict).2).native o =
      ((h.native o).delete key strict).2 := by
  by_cases ho : o.index < h.natives.length
  · exact h.native_setNative_self ho _
  · have hempty := native_of_le (Nat.le_of_not_lt ho)
    have hkeep : ((h.native o).delete key strict).2 = h.native o := by
      rw [hempty, delete_empty hk]
    rw [hkeep, h.setNative_native]

end Heap

namespace Store

theorem hasOwn_object (o : ObjectRef) (key : Key) (s : Store) :
    (hasOwn (.object o) key).run s = ((s.heap.native o).hasOwnProperty key.storageText, s) := by
  unfold hasOwn
  rw [run_get_bind]
  dsimp only
  rw [Heap.target]
  cases (s.heap.native o).isArrayLike with
  | true => rfl
  | false => rfl

theorem hasOwn_text (t : Utf16) (key : Key) (s : Store) :
    ((hasOwn (.string t) key).run s).1 = true ↔
      key.isNamed "length" = true ∨ ∃ i, key = .index i ∧ i < t.length := by
  cases key with
  | index i =>
    show decide (i < t.length) = true ↔ _
    rw [decide_eq_true_eq]
    constructor
    · intro hi
      exact Or.inr ⟨i, rfl, hi⟩
    · rintro (hname | ⟨j, hj, hlt⟩)
      · cases hname
      · cases hj
        exact hlt
  | text u =>
    show (Key.text u).isNamed "length" = true ↔ _
    constructor
    · exact Or.inl
    · rintro (hname | ⟨j, hj, -⟩)
      · exact hname
      · cases hj
  | symbol v =>
    constructor
    · intro hname
      cases hname
    · rintro (hname | ⟨j, hj, -⟩)
      · cases hname
      · cases hj

theorem setNative_native (s : Store) (o : ObjectRef) : s.setNative o (s.heap.native o) = s := by
  rw [setNative, Heap.setNative_native]

end Store

namespace Delete

variable {s : Store} {key : Key}

/-- The contract of the generic way for one property key: what it comes to where the key
denotes no own property, a removable one and a fixed one. -/
structure Contract (policy : DeletePolicy) (s : Store) (target : Value) (key : Key) : Prop where
  own : ((Store.hasOwn target key).run s).1 = true ↔
    s.heap.Removable target key ∨ s.heap.Fixed target key
  absent : ((Store.hasOwn target key).run s).1 = false →
    (generic policy target key).run s = (.ok true, s)
  removable : s.heap.Removable target key →
    ((generic policy target key).run s).1 = .ok true ∧
      ((Store.hasOwn target key).run ((generic policy target key).run s).2).1 = false
  fixed : s.heap.Fixed target key →
    (generic policy target key).run s = (.notConfigurable key policy.strict, s)

theorem contract_object (hwf : s.heap.WellFormed) (hk : key.Normal) (policy : DeletePolicy)
    (o : ObjectRef) : Contract policy s (.object o) key := by
  have ho := hwf.native o
  constructor
  · rw [Store.hasOwn_object]
    exact NativeObject.hasOwnProperty_iff ho hk
  · intro h
    rw [Store.hasOwn_object] at h
    have hnone := Option.isSome_eq_false_iff.mp h
    rw [generic_object, NativeObject.delete_absent ho.bounded hk (Option.isNone_iff_eq_none.mp hnone),
      s.setNative_native]
  · intro h
    obtain ⟨htrue, hgone⟩ := NativeObject.delete_removable ho hk h policy.strict
    rw [generic_object, Store.hasOwn_object]
    refine ⟨htrue, ?_⟩
    -- the look-up after the delete is of the object as the delete has left it
    show ((s.heap.setNative o _).native o).hasOwnProperty _ = false
    rw [s.heap.native_setNative_delete o hk]
    exact hgone
  · intro h
    rw [generic_object, NativeObject.delete_fixed ho hk h, s.setNative_native]

/-- A delete on a string is refused where the string has the property, and trivial elsewhere. -/
theorem deleteProperty_eq (t : Utf16) (key : Key) (strict : Bool) (s : Store) :
    t.deleteProperty key strict =
      if ((Store.hasOwn (.string t) key).run s).1 then .notConfigurable key strict
      else .ok true := by
  cases key with
  | index i =>
    show (if i < t.length then _ else _) = if decide (i < t.length) then _ else _
    by_cases hi : i < t.length
    · rw [if_pos hi, if_pos (decide_eq_true hi)]
    · rw [if_neg hi, if_neg (by simpa using hi)]
  | text u => rfl
  | symbol v => rfl

theorem contract_text (policy : DeletePolicy) (t : Utf16) (key : Key) :
    Contract policy s (.string t) key := by
  constructor
  · rw [Store.hasOwn_text]
    exact ⟨Or.inr, fun h => h.resolve_left id⟩
  · intro h
    rw [generic_text, deleteProperty_eq t key _ s, h, if_neg Bool.false_ne_true]
  · intro h
    exact h.elim
  · intro h
    have hown := (Store.hasOwn_text t key s).mpr h
    rw [generic_text, deleteProperty_eq t key _ s, hown, if_pos rfl]

/-- A value without own properties. -/
theorem contract_bare {policy : DeletePolicy} {target : Value}
    (hown : ((Store.hasOwn target key).run s).1 = false)
    (hgeneric : (generic policy target key).run s = (.ok true, s))
    (hremovable : ¬ s.heap.Removable target key) (hfixed : ¬ s.heap.Fixed target key) :
    Contract policy s target key where
  own := by
    rw [hown]
    exact ⟨fun h => (nomatch h), fun h => h.elim (absurd · hremovable) (absurd · hfixed)⟩
  absent := fun _ => hgeneric
  removable := fun h => absurd h hremovable
  fixed := fun h => absurd h hfixed

theorem contract (hwf : s.heap.WellFormed) (hk : key.Normal) (policy : DeletePolicy)
    {target : Value} (ht : ∀ f, target ≠ .foreign f) : Contract policy s target key := by
  cases target with
  | object o => exact contract_object hwf hk policy o
  | string t => exact contract_text policy t key
  | foreign f => exact absurd rfl (ht f)
  | undefined => exact contract_bare rfl rfl id id
  | null => exact contract_bare rfl rfl id id
  | boolean b => exact contract_bare rfl rfl id id
  | number n => exact contract_bare rfl rfl id id
  | symbol v => exact contract_bare rfl rfl id id
  | bigint z => exact contract_bare rfl rfl id id

/-- On a well-formed heap, on a target that is not foreign and for the key of any value, by any
route within its budget: the own properties are those that may be removed and those that may
not; where there is none the delete answers true and changes nothing; one that may be removed is
gone after the answer true; and one that may not is refused and nothing has changed. -/
theorem native_contract {s : Store} (hwf : s.heap.WellFormed) {target : Value}
    (ht : ∀ f, target ≠ .foreign f) (key : Value) {r : Route} (hb : r.budget = .ok ()) :
    let k := s.heap.toKey key
    let own := ((Store.hasOwn target k).run s).1
    let call := (r.run target key).run s
    (own = true ↔ s.heap.Removable target k ∨ s.heap.Fixed target k) ∧
      (own = false → call.1.1 = .ok true ∧ call.2 = s) ∧
      (s.heap.Removable target k →
        call.1.1 = .ok true ∧ ((Store.hasOwn target k).run call.2).1 = false) ∧
      (s.heap.Fixed target k →
        call.1.1 = (if r.policy.strict then .error (.notConfigurable k.display) else .ok false) ∧
          call.2 = s) := by
  intro k own call
  have hcontract := contract hwf (s.heap.toKey_normal key) r.policy ht
  obtain ⟨r', -, hrun⟩ := r.run_native hb ht key s
  have hanswer : call.1.1 = ((generic r.policy target k).run s).1 :=
    congrArg (fun a => a.1.1) hrun
  have hstore : call.2 = ((generic r.policy target k).run s).2 := congrArg Prod.snd hrun
  rw [hanswer, hstore]
  refine ⟨hcontract.own, ?_, hcontract.removable, ?_⟩
  · intro h
    rw [hcontract.absent h]
    exact ⟨rfl, rfl⟩
  · intro h
    rw [hcontract.fixed h]
    exact ⟨rfl, rfl⟩

/-- The length of an array at a site of a strict program. -/
theorem native_contract_length :
    let s : Store := { heap := { natives := [.array [.null, .undefined]] } }
    let r : Route := .cached false (.new { strict := true } 4)
    let call := (r.run (.object ⟨0⟩) (Value.ofString "length")).run s
    s.heap.WellFormed ∧ r.budget = .ok () ∧
      call.1.1 = .error (.notConfigurable "length") ∧ call.2 = s := by
  intro s r call
  have hwf : s.heap.WellFormed := by
    intro obj hobj
    rw [List.mem_singleton.mp hobj]
    exact NativeObject.wellFormed_array (by decide)
  have hname : (s.heap.toKey (Value.ofString "length")).isNamed "length" = true := by decide
  have hfixed : s.heap.Fixed (.object ⟨0⟩) (s.heap.toKey (Value.ofString "length")) :=
    Or.inr ⟨rfl, hname⟩
  have hnative : ∀ f, Value.object ⟨0⟩ ≠ .foreign f := fun f => nofun
  have hbudget : r.budget = .ok () := rfl
  obtain ⟨-, -, -, hrefused⟩ := native_contract hwf hnative (Value.ofString "length") hbudget
  obtain ⟨hanswer, hstore⟩ := hrefused hfixed
  have hdisplay : (s.heap.toKey (Value.ofString "length")).display = "length" := by decide
  refine ⟨hwf, hbudget, ?_, hstore⟩
  rw [hanswer, hdisplay]
  rfl

end Delete
end PropertyDelete
