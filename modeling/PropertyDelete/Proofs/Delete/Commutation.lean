import PropertyDelete.Proofs.Delete.Contract
import PropertyDelete.Proofs.Foreign.Commutation

/-!
Deletes on one heap can be exchanged. A delete on a target other than a scripted object is an act
on the heap alone (`Heap.delete`), on at most one of its objects; no delete leaves another kind of
object behind, or one that is not well formed. On different objects two deletes have nothing to do
with each other, and on the same one they can be exchanged because they can as acts on the object
(`Heap.delete_exchangeable`).
-/
namespace PropertyDelete

namespace Heap

/-- The delete of a key on a target that is no scripted object. -/
def delete (h : Heap) (policy : DeletePolicy) (target : Value) (key : Key) : Outcome × Heap :=
  match target with
  | .object o =>
    let answer := (h.native o).delete key policy.strict
    (answer.1, h.setNative o answer.2)
  | .foreign f =>
    match h.foreign? f with
    | some obj => ((obj.delete key policy).1, h.setForeign f (obj.delete key policy).2)
    | none => (.ok true, h)
  | .string t => (t.deleteProperty key policy.strict, h)
  | _ => (.ok true, h)

/-- Whether a target is no scripted object: if it is foreign, the embedder has it ready. -/
def Plain (h : Heap) (target : Value) : Prop :=
  ∀ f, target = .foreign f → ∃ obj, h.foreign? f = some obj ∧ obj.IsHost

variable {h : Heap} {policy policy' : DeletePolicy} {k l : Key}

theorem delete_foreign {f : ForeignRef} {obj : ForeignObject} (hobj : h.foreign? f = some obj)
    (policy : DeletePolicy) (key : Key) :
    h.delete policy (.foreign f) key =
      ((obj.delete key policy).1, h.setForeign f (obj.delete key policy).2) := by
  rw [delete, hobj]

/-! ## What a delete keeps -/

theorem WellFormed.setNative (hwf : h.WellFormed) (o : ObjectRef) {obj : NativeObject}
    (hobj : obj.WellFormed) : (h.setNative o obj).WellFormed := by
  intro x hx
  rcases List.mem_or_eq_of_mem_set hx with hx | rfl
  · exact hwf x hx
  · exact hobj

theorem WellFormed.delete (hwf : h.WellFormed) (hk : k.Normal) (policy : DeletePolicy)
    (target : Value) : (h.delete policy target k).2.WellFormed := by
  cases target with
  | object o => exact hwf.setNative o ((hwf.native o).delete hk policy.strict)
  | foreign f =>
    unfold Heap.delete
    dsimp only
    cases h.foreign? f with
    | none => exact hwf
    | some obj => exact hwf
  | _ => exact hwf

theorem Plain.delete {target : Value} (hp : h.Plain target) (policy : DeletePolicy)
    (other : Value) (k : Key) : (h.delete policy other k).2.Plain target := by
  rintro f rfl
  obtain ⟨obj, hobj, hhost⟩ := hp f rfl
  cases other with
  | foreign g =>
    cases hg : h.foreign? g with
    | none =>
      refine ⟨obj, ?_, hhost⟩
      rw [Heap.delete, hg]
      exact hobj
    | some obj' =>
      rw [delete_foreign hg]
      by_cases hfg : f = g
      · subst hfg
        cases hg.symm.trans hobj
        exact ⟨_, foreign?_setForeign_self hobj _, ForeignObject.delete_isHost hhost k policy⟩
      · exact ⟨obj, (h.foreign?_setForeign_of_ne hfg _).trans hobj, hhost⟩
  | _ => exact ⟨obj, hobj, hhost⟩

/-! ## Two deletes -/

theorem setNative_setNative (h : Heap) (o : ObjectRef) (x y : NativeObject) :
    (h.setNative o x).setNative o y = h.setNative o y := by
  simp only [setNative, List.set_set]

theorem setForeign_setForeign (h : Heap) (f : ForeignRef) (x y : ForeignObject) :
    (h.setForeign f x).setForeign f y = h.setForeign f y := by
  simp only [setForeign, List.set_set]

theorem setNative_comm (h : Heap) {o p : ObjectRef} (hne : o ≠ p) (x y : NativeObject) :
    (h.setNative o x).setNative p y = (h.setNative p y).setNative o x := by
  simp only [setNative, List.set_comm x y (ObjectRef.index_ne hne)]

theorem setForeign_comm (h : Heap) {f g : ForeignRef} (hne : f ≠ g) (x y : ForeignObject) :
    (h.setForeign f x).setForeign g y = (h.setForeign g y).setForeign f x := by
  simp only [setForeign, List.set_comm x y (ForeignRef.index_ne hne)]

/-- A target is an object, native or foreign, or a delete on it does nothing. -/
theorem target_cases (target : Value) :
    (∃ o, target = .object o) ∨ (∃ f, target = .foreign f) ∨
      ∀ policy k, ∃ answer, ∀ h : Heap, h.delete policy target k = (answer, h) := by
  cases target with
  | object o => exact Or.inl ⟨o, rfl⟩
  | foreign f => exact Or.inr (Or.inl ⟨f, rfl⟩)
  | _ => exact Or.inr (Or.inr fun policy k => ⟨_, fun h => rfl⟩)

/-- A delete on an object that was written before. -/
theorem delete_setNative {o : ObjectRef} (ho : o.index < h.natives.length) (x : NativeObject)
    (policy : DeletePolicy) (k : Key) :
    (h.setNative o x).delete policy (.object o) k =
      ((x.delete k policy.strict).1, h.setNative o (x.delete k policy.strict).2) := by
  unfold delete
  dsimp only
  rw [h.native_setNative_self ho, setNative_setNative]

theorem delete_setForeign {f : ForeignRef} {obj : ForeignObject} (hobj : h.foreign? f = some obj)
    (x : ForeignObject) (policy : DeletePolicy) (k : Key) :
    (h.setForeign f x).delete policy (.foreign f) k =
      ((x.delete k policy).1, h.setForeign f (x.delete k policy).2) := by
  rw [delete_foreign (foreign?_setForeign_self hobj x), setForeign_setForeign]

/-- A delete through a reference to nothing does nothing. -/
theorem delete_dangling {o : ObjectRef} (ho : h.natives.length ≤ o.index) (hk : k.Normal)
    (policy : DeletePolicy) : h.delete policy (.object o) k = (.ok true, h) := by
  have hempty : (h.native o).delete k policy.strict = (.ok true, h.native o) := by
    rw [native_of_le ho, delete_empty hk]
  unfold delete
  dsimp only
  rw [hempty, h.setNative_native]

theorem exchangeable_objects (hwf : h.WellFormed) (hk : k.Normal) (hl : l.Normal)
    (o p : ObjectRef) (policy policy' : DeletePolicy) :
    Exchangeable (fun h => h.delete policy (.object o) k)
      (fun h => h.delete policy' (.object p) l) h := by
  by_cases hop : o = p
  · subst hop
    by_cases ho : o.index < h.natives.length
    · -- the same object: it is there that the deletes are exchanged
      have hact :=
        NativeObject.delete_exchangeable (hwf.native o) hk hl policy.strict policy'.strict
      have hlift : Exchangeable (fun h => h.delete policy (.object o) k)
          (fun h => h.delete policy' (.object o) l) (h.setNative o (h.native o)) :=
        hact.lift (h.setNative o) (fun x => delete_setNative ho x policy k)
          fun x => delete_setNative ho x policy' l
      rwa [h.setNative_native] at hlift
    · have hle := Nat.le_of_not_lt ho
      constructor <;> simp only [delete_dangling hle hk, delete_dangling hle hl]
  · constructor
    · exact congrArg (fun x => (x.delete k policy.strict).1) (h.native_setNative_of_ne hop _)
    · exact congrArg (fun x => (x.delete l policy'.strict).1)
        (h.native_setNative_of_ne (Ne.symm hop) _)
    · show (h.setNative o _).setNative p (((h.setNative o _).native p).delete _ _).2 =
        (h.setNative p _).setNative o (((h.setNative p _).native o).delete _ _).2
      rw [h.native_setNative_of_ne hop, h.native_setNative_of_ne (Ne.symm hop),
        h.setNative_comm hop]

theorem exchangeable_foreigns {f g : ForeignRef} {x y : ForeignObject}
    (hx : h.foreign? f = some x) (hhost : x.IsHost) (hy : h.foreign? g = some y) (k l : Key)
    (policy policy' : DeletePolicy) :
    Exchangeable (fun h => h.delete policy (.foreign f) k)
      (fun h => h.delete policy' (.foreign g) l) h := by
  by_cases hfg : f = g
  · subst hfg
    have hact := ForeignObject.delete_exchangeable hhost k l policy policy'
    have hlift : Exchangeable (fun h => h.delete policy (.foreign f) k)
        (fun h => h.delete policy' (.foreign f) l) (h.setForeign f x) :=
      hact.lift (h.setForeign f) (fun x => delete_setForeign hx x policy k)
        fun x => delete_setForeign hx x policy' l
    rwa [setForeign_self hx] at hlift
  · have hx' (z : ForeignObject) : (h.setForeign g z).foreign? f = some x :=
      (h.foreign?_setForeign_of_ne hfg z).trans hx
    have hy' (z : ForeignObject) : (h.setForeign f z).foreign? g = some y :=
      (h.foreign?_setForeign_of_ne (Ne.symm hfg) z).trans hy
    constructor
    · simp only [delete_foreign hy, delete_foreign hx, delete_foreign (hx' _)]
    · simp only [delete_foreign hy, delete_foreign hx, delete_foreign (hy' _)]
    · simp only [delete_foreign hy, delete_foreign hx, delete_foreign (hx' _),
        delete_foreign (hy' _), h.setForeign_comm hfg]

theorem exchangeable_object_foreign (o : ObjectRef) {f : ForeignRef} {x : ForeignObject}
    (hx : h.foreign? f = some x) (k l : Key) (policy policy' : DeletePolicy) :
    Exchangeable (fun h => h.delete policy (.object o) k)
      (fun h => h.delete policy' (.foreign f) l) h := by
  have hx' (z : NativeObject) : (h.setNative o z).foreign? f = some x := hx
  constructor
  · simp only [delete_foreign hx]
    rfl
  · simp only [delete_foreign hx]
    exact congrArg Prod.fst (delete_foreign (hx' _) policy' l)
  · simp only [delete_foreign hx]
    exact (congrArg Prod.snd (delete_foreign (hx' _) policy' l)).trans rfl

/-- Deletes by normal keys on a well-formed heap can be exchanged. -/
theorem delete_exchangeable (hwf : h.WellFormed) {target target' : Value} (hp : h.Plain target)
    (hp' : h.Plain target') (hk : k.Normal) (hl : l.Normal) (policy policy' : DeletePolicy) :
    Exchangeable (fun h => h.delete policy target k) (fun h => h.delete policy' target' l) h := by
  rcases target_cases target with ⟨o, rfl⟩ | ⟨f, rfl⟩ | hidle
  · rcases target_cases target' with ⟨p, rfl⟩ | ⟨g, rfl⟩ | hidle'
    · exact exchangeable_objects hwf hk hl o p policy policy'
    · obtain ⟨y, hy, -⟩ := hp' g rfl
      exact exchangeable_object_foreign o hy k l policy policy'
    · obtain ⟨answer, hact'⟩ := hidle' policy' l
      exact (exchangeable_idle hact' _ h).symm
  · obtain ⟨x, hx, hhost⟩ := hp f rfl
    rcases target_cases target' with ⟨p, rfl⟩ | ⟨g, rfl⟩ | hidle'
    · exact (exchangeable_object_foreign p hx l k policy' policy).symm
    · obtain ⟨y, hy, -⟩ := hp' g rfl
      exact exchangeable_foreigns hx hhost hy k l policy policy'
    · obtain ⟨answer, hact'⟩ := hidle' policy' l
      exact (exchangeable_idle hact' _ h).symm
  · obtain ⟨answer, hact⟩ := hidle policy k
    exact exchangeable_idle hact _ h

end Heap

/-- The generic way on a target that is no scripted object is an act on the heap. -/
theorem Delete.generic_plain {s : Store} {target : Value} (hp : s.heap.Plain target)
    (policy : DeletePolicy) (key : Key) :
    ((generic policy target key).run s).1 = (s.heap.delete policy target key).1 ∧
      ((generic policy target key).run s).2.heap = (s.heap.delete policy target key).2 := by
  cases target with
  | object o =>
    rw [generic_object]
    exact ⟨rfl, rfl⟩
  | foreign f =>
    obtain ⟨obj, hobj, hhost⟩ := hp f rfl
    have hheld := Dialogue.runWith_heldOn f (Foreign.delete key policy) s
    rw [Foreign.delete_host key policy hobj hhost] at hheld
    rw [Heap.delete_foreign hobj]
    exact hheld
  | string t => exact ⟨rfl, rfl⟩
  | _ => exact ⟨rfl, rfl⟩

end PropertyDelete
