import PropertyDelete.Proofs.Delete.Strictness
import PropertyDelete.Proofs.Foreign.Removal

/-!
A refused delete is atomic, and an interrupted one does nothing at all. Every way of a delete
leaves the heap as it is unless it answers true: on a native object the answer tells whether the
object has been touched, and the dialogues with foreign objects are careful, in that nothing is
asked after a removal that was granted, and that one is reported. An interruption is answered by
the budget and by nothing else, before the delete begins.
-/
namespace PropertyDelete

namespace Outcome

/-- Whether an answer is a refusal, whichever way it is reported. -/
inductive IsRefusal : Outcome → Prop
  | denied : IsRefusal (.ok false)
  | fixed (key : String) : IsRefusal (.error (.notConfigurable key))
  | refused (key reason : String) : IsRefusal (.error (.foreignRefusal key reason))

theorem IsRefusal.ne {a : Outcome} (h : a.IsRefusal) : a ≠ .ok true := by
  cases h <;> nofun

end Outcome

/-- Whether a delete that is refused leaves the heap as it is. -/
def Atomic (x : StoreM Outcome) : Prop :=
  ∀ s : Store, (x.run s).1.IsRefusal → (x.run s).2.heap = s.heap

theorem SparesUnless.atomic {x : StoreM Outcome} (h : SparesUnless (· = .ok true) x) :
    Atomic x := fun s hr => (h s).resolve_left hr.ne

/-! ## Native objects -/

namespace NativeObject

variable (o : NativeObject) (key : Key) (strict : Bool)

/-- An object is deleted from, or stays as it is. -/
theorem deleteOrdinary_cases :
    (o.deleteOrdinary key strict).1 = .ok true ∨ (o.deleteOrdinary key strict).2 = o := by
  unfold deleteOrdinary
  cases o.ownProperty? key.storageText with
  | none => exact Or.inr rfl
  | some d =>
    dsimp only
    split
    · exact Or.inl rfl
    · exact Or.inr rfl

theorem deleteArrayProperty_cases :
    (o.deleteArrayProperty key strict).1 = .ok true ∨
      (o.deleteArrayProperty key strict).2 = o := by
  cases key with
  | index i => exact Or.inl rfl
  | text t => exact o.deleteOrdinary_cases (.text t) strict
  | symbol t => exact o.deleteOrdinary_cases (.symbol t) strict

end NativeObject

/-! ## Foreign objects -/

namespace Foreign

open Dialogue (Careful)

variable (key : Key) (policy : DeletePolicy)

theorem deleteHashEntry_careful : Careful (· = some (.ok true)) (deleteHashEntry key policy) := by
  unfold deleteHashEntry
  split
  · exact .pure' none
  · refine .capability fun present => ?_
    cases present with
    | false => exact .pure' none
    | true =>
      refine .removal (.removeHashEntry key.toValue) rfl rfl fun e => ?_
      cases e with
      | unsupported m => exact .pure' none
      | _ => exact .pure' _

theorem deleteMember_careful (name : String) (strict : Bool) :
    Careful (· = .ok true) (deleteMember name key strict) := by
  unfold deleteMember
  refine .capability fun present => ?_
  cases present with
  | false => exact .pure' _
  | true =>
    refine .send (by decide) fun removable => ?_
    match removable with
    | .ok false => exact .pure' _
    | .ok true | .error _ =>
      exact .removal (.removeMember name) rfl rfl fun e => .pure' _

theorem deleteElement_careful (i : Nat) (strict : Bool) :
    Careful (· = .ok true) (deleteElement i key strict) := by
  unfold deleteElement
  refine .send (by decide) fun reply => ?_
  cases Reply.size? reply with
  | none => exact .pure' _
  | some size => exact .pure' _

theorem deleteNamed_careful : Careful (· = .ok true) (deleteNamed key policy) := by
  unfold deleteNamed
  refine (deleteHashEntry_careful key policy).bind (fun outcome => ?_) ?_
  · cases outcome with
    | some outcome => exact .pure' outcome
    | none =>
      cases key.name? with
      | none => exact .pure' _
      | some name =>
        refine .capability fun members => ?_
        cases members with
        | false => exact .pure' _
        | true => exact deleteMember_careful key name policy.strict
  · rintro _ rfl
    exact ⟨.ok true, rfl, rfl⟩

theorem delete_careful : Careful (· = .ok true) (delete key policy) := by
  unfold delete
  refine (deleteHashEntry_careful key policy).bind (fun outcome => ?_) ?_
  · cases outcome with
    | some outcome => exact .pure' outcome
    | none =>
      refine .capability fun indexed => .capability fun members => ?_
      split
      · exact deleteMember_careful key _ policy.strict
      · split
        · exact deleteElement_careful _ _ policy.strict
        · exact .pure' _
  · rintro _ rfl
    exact ⟨.ok true, rfl, rfl⟩

end Foreign

/-! ## Every way of a delete -/

namespace Delete

variable (policy : DeletePolicy) (target : Value) (key : Key)

theorem onNative_spares (o : ObjectRef) {act : NativeObject → Outcome × NativeObject}
    (h : ∀ obj, (act obj).1 = .ok true ∨ (act obj).2 = obj) :
    SparesUnless (· = .ok true) (onNative o act) := by
  intro s
  refine (h (s.heap.native o)).imp_right fun hobject => ?_
  show s.heap.setNative o (act (s.heap.native o)).2 = s.heap
  rw [hobject]
  exact s.heap.setNative_native o

theorem generic_spares : SparesUnless (· = .ok true) (generic policy target key) := by
  unfold generic
  refine .get_bind fun s => ?_
  cases s.heap.target target with
  | ordinary o => exact onNative_spares o fun obj => obj.deleteOrdinary_cases key policy.strict
  | arrayLike o =>
    exact onNative_spares o fun obj => obj.deleteArrayProperty_cases key policy.strict
  | foreign f => exact (Foreign.delete_careful key policy).runWith f
  | _ => exact .pure' _

theorem invoke_spares (v : DeleteVariant) :
    SparesUnless (· = .ok true) (invoke v policy target key) := by
  intro s
  rcases invoke_run v policy target key s with h | ⟨f, t, -, rfl, h, -⟩
  · rw [h]
    exact generic_spares policy target key s
  · rw [h]
    exact (Foreign.deleteNamed_careful (.text t) policy).runWith f s

theorem perform_spares (entry : Option DeleteVariant) :
    SparesUnless (· = .ok true) (deletion.perform entry policy target key) := by
  cases entry with
  | none => exact generic_spares policy target key
  | some v => exact invoke_spares policy target key v

theorem uncached_spares (key : Value) (strict : Bool) :
    SparesUnless (· = .ok true) (uncached target key strict) :=
  .get_bind fun s => generic_spares { strict } target (s.heap.toKey key)

/-- A delete that has begun is not interrupted. -/
theorem perform_ne_interrupted (entry : Option DeleteVariant) (s : Store) :
    ((deletion.perform entry policy target key).run s).1 ≠ .error .interrupted := by
  -- its answer is one of the two reports of what has happened, and neither is an interruption
  obtain ⟨h, -⟩ := perform_tied policy target key entry s
  rw [show policy = policy.withStrict policy.strict from rfl]
  cases policy.strict with
  | true => exact h.ne_interrupted.1
  | false => exact h.ne_interrupted.2

section Call

variable (interrupted : Flags) (site : DeleteSite) (key : Value) (s : Store)

/-- A call at a site leaves the heap as it is unless it answers true. -/
theorem execute_spares :
    SparesUnless (·.1 = .ok true) (deletion.execute interrupted site target key) := by
  intro s
  cases hb : deletion.budget site.policy interrupted with
  | error e =>
    rw [Operation.execute_refused hb]
    exact Or.inr rfl
  | ok u =>
    rw [Operation.execute_run hb]
    exact perform_spares site.policy target (s.heap.toKey key) _ s

variable {interrupted site target key s}

/-- A call that has been interrupted has done nothing at all: the site and the store are as they
were, log included. -/
theorem execute_interrupted
    (h : ((deletion.execute interrupted site target key).run s).1.1 = .error .interrupted) :
    (deletion.execute interrupted site target key).run s = ((.error .interrupted, site), s) := by
  cases hb : deletion.budget site.policy interrupted with
  | error e =>
    obtain rfl := budget_error hb
    exact Operation.execute_refused hb target key s
  | ok u =>
    rw [Operation.execute_run hb] at h
    exact absurd h (perform_ne_interrupted site.policy target (s.heap.toKey key) _ s)

end Call

end Delete
end PropertyDelete
