import PropertyDelete.Proofs.Delete.Paths

/-!
Strict and lenient deletes, side by side. `Dialogue.InStep` relates dialogues that put the same
questions, and `Tied` relates computations that leave the same store; both go through `bind`, so
the two deletes are compared along the shape of the code. Each way of a delete, run strict and
run lenient, leaves the same store and log, and the answers are the two reports of one and the
same event (`Outcome.Reports`): strictness is looked at only when a refusal is put into words.
-/
namespace PropertyDelete

/-! ## Computations side by side -/

/-- Whether two dialogues put the same questions, whatever the replies, and come to related
results. -/
inductive Dialogue.InStep {α β : Type} (R : α → β → Prop) : Dialogue α → Dialogue β → Prop
  | done {a : α} {b : β} (h : R a b) : InStep R (.done a) (.done b)
  | ask {k : ReplyKind} (m : Message k) {next : Reply k → Dialogue α}
    {next' : Reply k → Dialogue β} (h : ∀ r, InStep R (next r) (next' r)) :
    InStep R (.ask m next) (.ask m next')

/-- Whether two computations leave the same store, log included, and give related values. -/
def Tied {α β : Type} (R : α → β → Prop) (x : StoreM α) (y : StoreM β) : Prop :=
  ∀ s : Store, R (x.run s).1 (y.run s).1 ∧ (x.run s).2 = (y.run s).2

namespace Tied

variable {α β : Type} {R : α → β → Prop}

theorem pure' {a : α} {b : β} (h : R a b) : Tied R (pure a) (pure b) := fun _ => ⟨h, rfl⟩

theorem get_bind {f : Store → StoreM α} {g : Store → StoreM β} (h : ∀ s, Tied R (f s) (g s)) :
    Tied R (get >>= f) (get >>= g) := fun s => h s s

end Tied

namespace Dialogue.InStep

variable {α β γ δ : Type} {R : α → β → Prop} {S : γ → δ → Prop}

theorem pure' {a : α} {b : β} (h : R a b) : InStep R (pure a) (pure b) := .done h

theorem bind {d : Dialogue α} {e : Dialogue β} {f : α → Dialogue γ} {g : β → Dialogue δ}
    (h : InStep R d e) (hf : ∀ a b, R a b → InStep S (f a) (g b)) :
    InStep S (d >>= f) (e >>= g) := by
  induction h with
  | done h => exact hf _ _ h
  | ask m _ ih => exact .ask m ih

/-- Dialogues that begin alike. -/
theorem after (d : Dialogue α) {f : α → Dialogue γ} {g : α → Dialogue δ}
    (hf : ∀ a, InStep S (f a) (g a)) : InStep S (d >>= f) (d >>= g) := by
  induction d with
  | done a => exact hf a
  | ask m next ih => exact .ask m ih

/-- Held with the same object, the two dialogues leave the same store. -/
theorem runWith {d : Dialogue α} {e : Dialogue β} (h : InStep R d e) (f : ForeignRef) :
    Tied R (d.runWith f) (e.runWith f) := by
  induction h with
  | done h => exact Tied.pure' h
  | ask m _ ih => exact fun s => ih (s.deliver f m).1 (s.deliver f m).2

end Dialogue.InStep

/-! ## The two reports -/

namespace Outcome

/-- What a strict and a lenient delete answer when the same has happened: the property is gone,
or it is fixed, or the foreign object has refused. -/
inductive Reports : Outcome → Outcome → Prop
  | deleted : Reports (.ok true) (.ok true)
  | fixed (key : String) : Reports (.error (.notConfigurable key)) (.ok false)
  | refused (key reason : String) : Reports (.error (.foreignRefusal key reason)) (.ok false)

theorem notConfigurable_reports (key : Key) :
    (notConfigurable key true).Reports (notConfigurable key false) := .fixed key.display

theorem refused_reports (key : Key) (r : Refusal) :
    (refused key r true).Reports (refused key r false) := .refused key.display r.message

theorem Reports.ne_interrupted {a b : Outcome} (h : a.Reports b) :
    a ≠ .error .interrupted ∧ b ≠ .error .interrupted := by
  cases h <;> exact ⟨nofun, nofun⟩

end Outcome

/-- The policy that is strict, or lenient, and else as it is. -/
def DeletePolicy.withStrict (p : DeletePolicy) (strict : Bool) : DeletePolicy := { p with strict }

/-! ## Native objects and strings -/

namespace NativeObject

theorem deleteOrdinary_reports (o : NativeObject) (key : Key) :
    (o.deleteOrdinary key true).1.Reports (o.deleteOrdinary key false).1 ∧
      (o.deleteOrdinary key true).2 = (o.deleteOrdinary key false).2 := by
  unfold deleteOrdinary
  cases o.ownProperty? key.storageText with
  | none => exact ⟨.deleted, rfl⟩
  | some d =>
    dsimp only
    split
    · exact ⟨.deleted, rfl⟩
    · exact ⟨Outcome.notConfigurable_reports key, rfl⟩

theorem deleteArrayProperty_reports (o : NativeObject) (key : Key) :
    (o.deleteArrayProperty key true).1.Reports (o.deleteArrayProperty key false).1 ∧
      (o.deleteArrayProperty key true).2 = (o.deleteArrayProperty key false).2 := by
  cases key with
  | index i => exact ⟨.deleted, rfl⟩
  | text t => exact o.deleteOrdinary_reports (.text t)
  | symbol t => exact o.deleteOrdinary_reports (.symbol t)

end NativeObject

namespace Utf16

theorem deleteIndex_reports (t : Utf16) (i : Nat) (key : Key) :
    (t.deleteIndex i key true).Reports (t.deleteIndex i key false) := by
  unfold deleteIndex
  split
  · exact Outcome.notConfigurable_reports key
  · exact .deleted

theorem deleteProperty_reports (t : Utf16) (key : Key) :
    (t.deleteProperty key true).Reports (t.deleteProperty key false) := by
  have hnamed : ∀ key : Key,
      (if key.isNamed "length" then Outcome.notConfigurable key true else .ok true).Reports
        (if key.isNamed "length" then Outcome.notConfigurable key false else .ok true) := by
    intro key
    split
    · exact Outcome.notConfigurable_reports key
    · exact .deleted
  cases key with
  | index i => exact t.deleteIndex_reports i (.index i)
  | text u => exact hnamed (.text u)
  | symbol u => exact hnamed (.symbol u)

end Utf16

/-! ## Foreign objects -/

namespace Foreign

open Dialogue (InStep)

variable (key : Key) (policy : DeletePolicy)

theorem deleteHashEntry_inStep :
    InStep (Option.Rel Outcome.Reports) (deleteHashEntry key (policy.withStrict true))
      (deleteHashEntry key (policy.withStrict false)) := by
  unfold deleteHashEntry
  cases hf : policy.foreignHash with
  | false =>
    simp only [DeletePolicy.withStrict, hf]
    exact .pure' .none
  | true =>
    simp only [DeletePolicy.withStrict, hf]
    refine .after _ fun present => ?_
    cases present with
    | false => exact .pure' .none
    | true =>
      refine .after _ fun reply => ?_
      match reply with
      | .ok () | .error .unknownKey => exact .pure' (.some .deleted)
      | .error (.unsupported m) => exact .pure' .none
      | .error (.unknownIdentifier _) | .error (.invalidArrayIndex _) | .error (.failed _) =>
        exact .pure' (.some (Outcome.refused_reports key _))

theorem deleteMember_inStep (name : String) :
    InStep Outcome.Reports (deleteMember name key true) (deleteMember name key false) := by
  unfold deleteMember
  refine .after _ fun present => ?_
  cases present with
  | false => exact .pure' .deleted
  | true =>
    refine .after _ fun removable => ?_
    match removable with
    | .ok false => exact .pure' (Outcome.notConfigurable_reports key)
    | .ok true | .error _ =>
      refine .after _ fun reply => ?_
      match reply with
      | .ok () => exact .pure' .deleted
      | .error r => exact .pure' (Outcome.refused_reports key r)

theorem deleteElement_inStep (i : Nat) :
    InStep Outcome.Reports (deleteElement i key true) (deleteElement i key false) := by
  unfold deleteElement
  refine .after _ fun reply => ?_
  cases Reply.size? reply with
  | none => exact .pure' .deleted
  | some size =>
    dsimp only
    split
    · exact .pure' (Outcome.notConfigurable_reports key)
    · exact .pure' .deleted

theorem deleteNamed_inStep :
    InStep Outcome.Reports (deleteNamed key (policy.withStrict true))
      (deleteNamed key (policy.withStrict false)) := by
  unfold deleteNamed
  refine (deleteHashEntry_inStep key policy).bind fun a b h => ?_
  cases h with
  | some h => exact .pure' h
  | none =>
    cases key.name? with
    | none => exact .pure' .deleted
    | some name =>
      refine .after _ fun members => ?_
      cases members with
      | false => exact .pure' .deleted
      | true => exact deleteMember_inStep key name

theorem delete_inStep :
    InStep Outcome.Reports (delete key (policy.withStrict true))
      (delete key (policy.withStrict false)) := by
  unfold delete
  refine (deleteHashEntry_inStep key policy).bind fun a b h => ?_
  cases h with
  | some h => exact .pure' h
  | none =>
    refine .after _ fun indexed => .after _ fun members => ?_
    split
    · exact deleteMember_inStep key _
    · split
      · exact deleteElement_inStep _ _
      · exact .pure' .deleted

end Foreign

/-! ## Every way of a delete -/

namespace Delete

variable (policy : DeletePolicy) (target : Value) (key : Key)

theorem onNative_tied (o : ObjectRef) {act act' : NativeObject → Outcome × NativeObject}
    (h : ∀ obj, (act obj).1.Reports (act' obj).1 ∧ (act obj).2 = (act' obj).2) :
    Tied Outcome.Reports (onNative o act) (onNative o act') := by
  intro s
  obtain ⟨hanswer, hobject⟩ := h (s.heap.native o)
  exact ⟨hanswer, congrArg (s.setNative o) hobject⟩

theorem generic_tied :
    Tied Outcome.Reports (generic (policy.withStrict true) target key)
      (generic (policy.withStrict false) target key) := by
  unfold generic
  refine .get_bind fun s => ?_
  cases s.heap.target target with
  | ordinary o => exact onNative_tied o fun obj => obj.deleteOrdinary_reports key
  | arrayLike o => exact onNative_tied o fun obj => obj.deleteArrayProperty_reports key
  | text t => exact .pure' (t.deleteProperty_reports key)
  | foreign f => exact (Foreign.delete_inStep key policy).runWith f
  | numeric | symbol | other => exact .pure' .deleted

/-- The two ways that a variant may take with a text key on a foreign object. -/
theorem invoke_named (v : DeleteVariant) (f : ForeignRef) (t : Utf16) :
    invoke v policy (.foreign f) (.text t) =
      if v = .foreignMember then (Foreign.deleteNamed (.text t) policy).runWith f
      else (Foreign.delete (.text t) policy).runWith f := by
  cases v <;> rfl

theorem invoke_tied (v : DeleteVariant) :
    Tied Outcome.Reports (invoke v (policy.withStrict true) target key)
      (invoke v (policy.withStrict false) target key) := by
  -- where a variant has a way of its own, both deletes take it; elsewhere both are generic
  by_cases hnamed : ∃ f t, target = .foreign f ∧ key = .text t
  · obtain ⟨f, t, rfl, rfl⟩ := hnamed
    rw [invoke_named, invoke_named]
    split
    · exact (Foreign.deleteNamed_inStep (.text t) policy).runWith f
    · exact (Foreign.delete_inStep (.text t) policy).runWith f
  · have hgeneric : ∀ (policy : DeletePolicy) (s : Store),
        (invoke v policy target key).run s = (generic policy target key).run s := by
      intro policy s
      rcases invoke_run v policy target key s with h | ⟨f, t, hf, ht, -⟩
      · exact h
      · exact absurd ⟨f, t, hf, ht⟩ hnamed
    intro s
    rw [hgeneric, hgeneric]
    exact generic_tied policy target key s

theorem perform_tied (entry : Option DeleteVariant) :
    Tied Outcome.Reports (deletion.perform entry (policy.withStrict true) target key)
      (deletion.perform entry (policy.withStrict false) target key) := by
  cases entry with
  | none => exact generic_tied policy target key
  | some v => exact invoke_tied policy target key v

/-- The budget refuses a delete for one reason only. -/
theorem budget_error {policy : DeletePolicy} {interrupted : Flags} {e : DeleteError}
    (h : budget policy interrupted = .error e) : e = .interrupted := by
  unfold budget at h
  split at h <;> cases h
  rfl

end Delete

/-! ## Calls at sites -/

/-- What a strict and a lenient call at a site answer when the same has happened: both have
been interrupted, or both have run. -/
inductive Outcome.Corresponds : Outcome → Outcome → Prop
  | interrupted : Corresponds (.error .interrupted) (.error .interrupted)
  | ran {a b : Outcome} (h : a.Reports b) : Corresponds a b

namespace Outcome.Corresponds

variable {a b : Outcome} (h : a.Corresponds b)
include h

theorem strict_ne : a ≠ .ok false := by
  rcases h with _ | (_ | _ | _) <;> nofun

theorem lenient_error {e : DeleteError} (he : b = .error e) : e = .interrupted := by
  rcases h with _ | (_ | _ | _) <;> cases he
  rfl

end Outcome.Corresponds

/-- The site that is strict, or lenient, and else as it is. -/
def Site.withStrict {Entry : Type} (site : Site Entry DeletePolicy) (strict : Bool) :
    Site Entry DeletePolicy :=
  { site with policy := site.policy.withStrict strict }

/-- Two sites that differ in strictness only still do so after a call. -/
theorem Delete.execute_tied (interrupted : Flags) (site : DeleteSite) (target key : Value) :
    Tied
      (fun a b => Outcome.Corresponds a.1 b.1 ∧
        ∃ cache, a.2 = (site.withCache cache).withStrict true ∧
          b.2 = (site.withCache cache).withStrict false)
      (deletion.execute interrupted (site.withStrict true) target key)
      (deletion.execute interrupted (site.withStrict false) target key) := by
  intro s
  have hbudget : ∀ strict, deletion.budget (site.withStrict strict).policy interrupted =
      deletion.budget site.policy interrupted := fun _ => rfl
  cases hb : deletion.budget site.policy interrupted with
  | error e =>
    rw [Operation.execute_refused ((hbudget true).trans hb),
      Operation.execute_refused ((hbudget false).trans hb)]
    obtain rfl := Delete.budget_error hb
    exact ⟨⟨.interrupted, site.cache, rfl, rfl⟩, rfl⟩
  | ok u =>
    -- the entry is chosen by the shapes alone
    have hchoose : ∀ strict p, deletion.choose (site.withStrict strict) p =
        deletion.choose site p := fun _ _ => rfl
    rw [Operation.execute_run ((hbudget true).trans hb),
      Operation.execute_run ((hbudget false).trans hb)]
    simp only [hchoose]
    obtain ⟨hanswer, hstore⟩ := Delete.perform_tied site.policy target (s.heap.toKey key)
      (deletion.choose site ⟨s.heap.shape target, (s.heap.toKey key).shape⟩).1 s
    exact ⟨⟨.ran hanswer,
      (deletion.choose site ⟨s.heap.shape target, (s.heap.toKey key).shape⟩).2, rfl, rfl⟩, hstore⟩

end PropertyDelete
