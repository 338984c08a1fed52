import PropertyDelete.Proofs.Heap.Prototype
import PropertyDelete.Proofs.Program.Numbering
import PropertyDelete.Proofs.Text.Utf16

/-!
What programs throw. Every value that a program throws is an error that evaluation has made, and
its text is one of three complaints: about a name that is not defined, about a base that is no
object, or about a delete that was refused or interrupted (`evaluate_complains`). A delete without
a site would be a fourth one. It does not occur in a node all of whose numbers are those of sites,
and evaluation leaves the number of sites as it is.
-/
namespace PropertyDelete

/-! ## Texts of errors -/

theorem Interpreter.errorObject_name (i : Interpreter) (name message : String) :
    (i.errorObject name message).ownProperty? "name" = some (.plain (Value.ofString name)) := by
  simp [errorObject, NativeObject.ownProperty?, NativeObject.insert, PropertyTable.find?,
    PropertyTable.insert]

theorem Interpreter.errorObject_message (i : Interpreter) (name message : String) :
    (i.errorObject name message).ownProperty? "message" =
      some (.plain (Value.ofString message)) := by
  have hne : "message" ≠ "name" := by decide
  simp [errorObject, NativeObject.ownProperty?, NativeObject.insert, PropertyTable.find?,
    PropertyTable.insert, Dictionary.get?_insert_of_ne _ hne]

/-- The text of an error is its name and its message. -/
theorem Heap.errorMessage_of_error {h : Heap} {o : ObjectRef} {i : Interpreter}
    {name message : String} (ho : h.native o = i.errorObject name message) :
    h.errorMessage (.object o) = name ++ ": " ++ message := by
  have hname := h.property_of_own (o := o) (by rw [ho, i.errorObject_name])
  have hmessage := h.property_of_own (o := o) (by rw [ho, i.errorObject_message])
  simp only [Descriptor.plain, Descriptor.data, Option.getD_some, Value.ofString] at hname hmessage
  simp only [errorMessage, hname, hmessage, Utf16.toString_ofString]

/-! ## Complaints -/

/-- The texts of the errors that a program can throw. -/
inductive Complaint : String → Prop where
  | undefinedName (name : String) : Complaint ("ReferenceError: " ++ (name ++ " is not defined"))
  | noObject (base key : String) :
    Complaint ("TypeError: " ++
      ("Cannot convert " ++ base ++ " to object (property '" ++ key ++ "')"))
  | delete (e : DeleteError) : Complaint ("TypeError: " ++ e.message)

/-- Two texts that begin differently are not the same, however they go on. -/
theorem append_ne_of_head? {s t u : String} (h : s ≠ "") (hhead : s.toList.head? ≠ u.toList.head?) :
    s ++ t ≠ u := by
  rintro rfl
  have hs : s.toList ≠ [] := by simpa using h
  cases hl : s.toList with
  | nil => exact hs hl
  | cons c rest => simp [hl] at hhead

/-- The message of an error of a delete is not that of a delete without a site. -/
theorem DeleteError.message_ne (e : DeleteError) : e.message ≠ "Unknown delete site" := by
  cases e with
  | notConfigurable key =>
    show "Cannot delete non-configurable property '" ++ key ++ "'" ≠ _
    rw [String.append_assoc]
    exact append_ne_of_head? (by decide) (by decide)
  | foreignRefusal key reason =>
    show "Cannot delete property '" ++ key ++ "' of foreign object: " ++ reason ≠ _
    rw [String.append_assoc, String.append_assoc]
    exact append_ne_of_head? (by decide) (by decide)
  | interrupted => decide

/-- No complaint is about a delete without a site. -/
theorem Complaint.ne_unknownSite {text : String} (h : Complaint text) :
    text ≠ "TypeError: Unknown delete site" := by
  have hsplit : "TypeError: Unknown delete site" = "TypeError: " ++ "Unknown delete site" := by
    decide
  cases h with
  | undefinedName name => exact append_ne_of_head? (by decide) (by decide)
  | noObject base key =>
    rw [hsplit, Ne, String.append_right_inj, String.append_assoc, String.append_assoc,
      String.append_assoc]
    exact append_ne_of_head? (by decide) (by decide)
  | delete e =>
    rw [hsplit, Ne, String.append_right_inj]
    exact e.message_ne

/-- Whether a part of evaluation by an interpreter, whatever its sites remember, throws nothing
but complaints. -/
def Complains {α : Type} (i : Interpreter) (x : Evaluation α) : Prop :=
  ∀ m : Machine, i.Unmoved m.interpreter → ∀ v, (x.run.run m).1 = .error v →
    Complaint ((x.run.run m).2.store.heap.errorMessage v)

namespace Complains

variable {α β : Type} {i : Interpreter}

/-- What always ends normally throws nothing. -/
theorem of_ok {x : Evaluation α} (h : ∀ m, ∃ a, (x.run.run m).1 = .ok a) : Complains i x := by
  intro m _ v hv
  obtain ⟨a, ha⟩ := h m
  rw [ha] at hv
  cases hv

theorem pure' (a : α) : Complains i (pure a) := of_ok fun _ => ⟨a, rfl⟩

theorem onStore (x : StoreM α) : Complains i (Evaluation.onStore x) := of_ok fun _ => ⟨_, rfl⟩

theorem bind {x : Evaluation α} {f : α → Evaluation β} (hk : Keeps x) (hx : Complains i x)
    (hf : ∀ a, Complains i (f a)) : Complains i (x >>= f) := by
  intro m hi
  have hn := hi.trans (hk m)
  have hthrown := hx m hi
  rw [run_bind]
  rcases hr : x.run.run m with ⟨r, n⟩
  rw [hr] at hn hthrown
  cases r with
  | ok a => exact hf a n hn
  | error e =>
    intro v hv
    cases hv
    exact hthrown e rfl

theorem get_bind {f : Machine → Evaluation α} (h : ∀ m, Complains i (f m)) :
    Complains i (get >>= f) := fun m hi => h m m hi

theorem raise {name message : String} (h : Complaint (name ++ ": " ++ message)) :
    Complains i (Evaluation.raise name message : Evaluation α) := by
  intro m _ v hv
  cases hv
  have ho := m.store.native_allocate (m.interpreter.errorObject name message)
  rw [← Heap.errorMessage_of_error ho] at h
  exact h

theorem global (name : String) : Complains i (Evaluation.global name) := by
  apply get_bind
  intro m
  cases m.interpreter.globals.get? name with
  | some v => exact pure' v
  | none => exact raise (.undefinedName name)

theorem requireObject (base key : Value) : Complains i (Evaluation.requireObject base key) := by
  unfold Evaluation.requireObject
  split
  · exact get_bind fun m => raise (.noObject _ _)
  · exact pure' ()

theorem readMember (base key : Value) : Complains i (Evaluation.readMember base key) :=
  bind (Keeps.requireObject base key) (requireObject base key) fun _ =>
    get_bind fun _ => onStore _

theorem settle (answer : Outcome) : Complains i (Evaluation.settle (some answer)) := by
  cases answer with
  | ok deleted => exact pure' _
  | error e => exact raise (.delete e)

/-- A call at a site that there is has an answer. -/
theorem callSite {site : UInt32} (hsite : site.toNat < i.arena.size) (base key : Value) :
    Complains i (Evaluation.callSite base key site) := by
  intro m hi
  have hcall := hi.trans (Interpreter.Unmoved.call m.interpreter site.toNat base key m.store)
  obtain ⟨st, hst⟩ : ∃ st, m.interpreter.arena.site? site.toNat = some st := by
    rw [← hi.size] at hsite
    exact ⟨_, List.getElem?_eq_getElem hsite⟩
  rw [Evaluation.callSite_run]
  rw [Arena.execute_run hst] at hcall ⊢
  exact settle _ ⟨_, _⟩ hcall

theorem deleteMember {site : UInt32} (hsite : site.toNat < i.arena.size) (base key : Value) :
    Complains i (Evaluation.deleteMember base key site) := by
  rw [Evaluation.deleteMember_eq]
  exact bind (Keeps.requireObject base key) (requireObject base key) fun _ =>
    callSite hsite base key

end Complains

/-- Evaluation that has only sites to call which there are throws nothing but complaints. -/
theorem complains_law (i : Interpreter) : EvaluationLaw fun _ x sites =>
    Keeps x ∧ ((∀ k ∈ sites, k.toNat < i.arena.size) → Complains i x) where
  pure' a := ⟨Effects.unmoved.law.pure' a, fun _ => .pure' a⟩
  get' := ⟨Effects.unmoved.law.get', fun _ => .of_ok fun m => ⟨m, rfl⟩⟩
  bind := by
    intro α β x f s t hx hf
    refine ⟨Effects.unmoved.law.bind (s := s) (t := t) hx.1 fun a => (hf a).1, ?_⟩
    intro h
    rw [List.forall_mem_append] at h
    exact .bind hx.1 (hx.2 h.1) fun a => (hf a).2 h.2
  global name := ⟨Effects.unmoved.law.global name, fun _ => .global name⟩
  readMember base key := ⟨Effects.unmoved.law.readMember base key, fun _ => .readMember base key⟩
  deleteMember base key site :=
    ⟨Effects.unmoved.law.deleteMember base key site,
      fun h => .deleteMember (h site (by simp)) base key⟩

theorem Node.evaluate_complains {i : Interpreter} (node : Node)
    (h : ∀ k ∈ node.sites, k.toNat < i.arena.size) : Complains i node.evaluate :=
  (node.evaluate_law (complains_law i)).2 h

end PropertyDelete
