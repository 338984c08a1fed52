import PropertyDelete.Proofs.Delete.Route
import PropertyDelete.Proofs.Foreign.Reception

/-!
What foreign objects hear of the way a delete goes. A variant comes to the answer and the heap of
the generic way for any operands, and what it sends is the same, message by message, with one
exception: `foreignMember` with a text key leaves out the question for indexed elements
(`invoke_messages`). The exception is one of the dialogues (`Foreign.delete_omits`), so it holds of
whatever receives the messages: scripted objects, their bases, and host objects.
-/
namespace PropertyDelete

/-- Whether a message is the question for indexed elements. -/
def Sent.isElementQuery : Sent → Bool
  | ⟨.hasArrayElements⟩ => true
  | _ => false

namespace Foreign

open Dialogue (Omits)

theorem deleteHashEntry_omits (key : Key) (policy : DeletePolicy) :
    Omits Sent.isElementQuery (deleteHashEntry key policy) (deleteHashEntry key policy) := by
  unfold deleteHashEntry
  cases policy.foreignHash with
  | false => exact .pure' none
  | true =>
    refine .capability rfl fun entries => ?_
    cases entries with
    | false => exact .pure' none
    | true =>
      refine .send rfl fun r => ?_
      cases r with
      | ok u => exact .pure' _
      | error e => cases e <;> exact .pure' _

theorem deleteMember_omits (name : String) (key : Key) (strict : Bool) :
    Omits Sent.isElementQuery (deleteMember name key strict) (deleteMember name key strict) := by
  unfold deleteMember
  refine .capability rfl fun there => ?_
  cases there with
  | false => exact .pure' _
  | true =>
    refine .send rfl fun r => ?_
    cases r with
    | error e =>
      refine .send rfl fun removed => ?_
      cases removed <;> exact .pure' _
    | ok free =>
      cases free with
      | false => exact .pure' _
      | true =>
        refine .send rfl fun removed => ?_
        cases removed <;> exact .pure' _

/-- By a text key, the two deletes differ by the question for indexed elements. -/
theorem delete_omits (t : Utf16) (policy : DeletePolicy) :
    Omits Sent.isElementQuery (delete (.text t) policy) (deleteNamed (.text t) policy) := by
  refine (deleteHashEntry_omits (.text t) policy).bind fun answer => ?_
  cases answer with
  | some outcome => exact .pure' outcome
  | none =>
    refine .drop_capability rfl fun indexed => ?_
    refine .capability rfl fun members => ?_
    cases members with
    | false => exact .pure' _
    | true => exact deleteMember_omits _ _ _

/-- The dialogue that a variant holds with a foreign object. -/
def deleteBy (v : DeleteVariant) (key : Key) (policy : DeletePolicy) : Dialogue Outcome :=
  match v, key with
  | .foreignMember, .text _ => deleteNamed key policy
  | _, _ => delete key policy

end Foreign

/-- What is left of the messages of the generic way when a delete goes the way of a variant: all of
them, but for the question that `foreignMember` leaves out. -/
def DeleteVariant.retained (v : DeleteVariant) (target : Value) (key : Key) (log : List Call) :
    List Call :=
  match v, target, key with
  | .foreignMember, .foreign _, .text _ => log.filter fun c => !c.sent.isElementQuery
  | _, _, _ => log

theorem DeleteVariant.retained_filter (v : DeleteVariant) (target : Value) (key : Key)
    (P : Call → Bool) (log : List Call) :
    (v.retained target key log).filter P = v.retained target key (log.filter P) := by
  unfold retained
  split
  · rw [List.filter_filter, List.filter_filter]
    simp only [Bool.and_comm]
  · rfl

/-- The messages that are left are those of the generic way, once all questions for indexed
elements are dropped. -/
theorem DeleteVariant.retained_dropped (v : DeleteVariant) (target : Value) (key : Key)
    (log : List Call) :
    (v.retained target key log).filter (fun c => !c.sent.isElementQuery) =
      log.filter fun c => !c.sent.isElementQuery := by
  unfold retained
  split
  · rw [List.filter_filter]
    simp only [Bool.and_self]
  · rfl

namespace Delete

variable (v : DeleteVariant) (policy : DeletePolicy)

theorem invoke_foreign (f : ForeignRef) (key : Key) :
    invoke v policy (.foreign f) key = (Foreign.deleteBy v key policy).runWith f := by
  cases v <;> cases key <;> rfl

theorem generic_foreign (f : ForeignRef) (key : Key) :
    generic policy (.foreign f) key = (Foreign.delete key policy).runWith f := rfl

/-- A delete that is not of a foreign object sends nothing. -/
theorem generic_calls {target : Value} (ht : ∀ f, target ≠ .foreign f) (key : Key) (s : Store) :
    ((generic policy target key).run s).2.calls = s.calls := by
  cases target with
  | object o => rw [generic_object]; rfl
  | foreign f => exact absurd rfl (ht f)
  | _ => rfl

theorem deleteBy_receptions (f : ForeignRef) (key : Key) (h : Heap) :
    (Foreign.deleteBy v key policy).receptions f h =
      v.retained (.foreign f) key ((Foreign.delete key policy).receptions f h) := by
  unfold Foreign.deleteBy DeleteVariant.retained
  cases key with
  | text t =>
    cases v with
    | foreignMember => exact (Foreign.delete_omits t policy).receptions f h
    | _ => rfl
  | _ => cases v <;> rfl

/-- A variant logs what the generic way logs, without the messages that it leaves out. -/
theorem invoke_calls (target : Value) (key : Key) (s : Store) :
    ∃ log, ((generic policy target key).run s).2.calls = s.calls ++ log ∧
      ((invoke v policy target key).run s).2.calls = s.calls ++ v.retained target key log := by
  by_cases ht : ∃ f, target = .foreign f
  · obtain ⟨f, rfl⟩ := ht
    have hwhole := (Foreign.delete key policy).runWith_calls f s
    have hway := (Foreign.deleteBy v key policy).runWith_calls f s
    rw [← generic_foreign] at hwhole
    rw [← invoke_foreign, deleteBy_receptions, v.retained_filter] at hway
    exact ⟨_, hwhole, hway⟩
  · have ht : ∀ f, target ≠ .foreign f := fun f e => ht ⟨f, e⟩
    have hnone : v.retained target key [] = [] := by
      unfold DeleteVariant.retained
      split <;> rfl
    refine ⟨[], ?_, ?_⟩
    · rw [List.append_nil]
      exact generic_calls policy ht key s
    · rw [hnone, List.append_nil, invoke_native v policy ht key s]
      exact generic_calls policy ht key s

/-- Any variant, with operands of any shapes, answers as the generic way does, leaves the same
heap, and logs the same messages in the same order, without those that `foreignMember` leaves out.
On a foreign object both are dialogues, and there the same is true of whatever any foreign object
receives, logged or not. -/
theorem invoke_messages (target : Value) (key : Key) (s : Store) :
    let way := (invoke v policy target key).run s
    let whole := (generic policy target key).run s
    way.1 = whole.1 ∧ way.2.heap = whole.2.heap ∧
      (∃ log, whole.2.calls = s.calls ++ log ∧
        way.2.calls = s.calls ++ v.retained target key log) ∧
      way.2.calls.filter (fun c => !c.sent.isElementQuery) =
        whole.2.calls.filter (fun c => !c.sent.isElementQuery) ∧
      ∀ f, target = .foreign f →
        invoke v policy target key = (Foreign.deleteBy v key policy).runWith f ∧
        generic policy target key = (Foreign.delete key policy).runWith f ∧
        (Foreign.deleteBy v key policy).receptions f s.heap =
          v.retained target key ((Foreign.delete key policy).receptions f s.heap) := by
  intro way whole
  obtain ⟨hanswer, hheap⟩ := invoke_agree v policy target key s s rfl
  have hlog := invoke_calls v policy target key s
  refine ⟨hanswer, hheap, hlog, ?_, ?_⟩
  · obtain ⟨log, hwhole, hway⟩ := hlog
    rw [hwhole, hway, List.filter_append, List.filter_append, v.retained_dropped]
  · rintro f rfl
    exact ⟨invoke_foreign v policy f key, generic_foreign policy f key,
      deleteBy_receptions v policy f key s.heap⟩

end Delete
end PropertyDelete
