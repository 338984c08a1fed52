import PropertyDelete.Foreign.Message

/-!
Dialogues with a foreign object: a computation that may send messages and goes on with the
replies. A dialogue does not know the object it is held with, so what it asks, and in which
order, can be studied against any fixed replies (`result`, `transcript`); the lemmas say how
both come about when one dialogue goes on with another.
-/
namespace PropertyDelete

/-- A computation of an `α` that may send messages to one foreign object. -/
inductive Dialogue (α : Type) : Type where
  | done (a : α)
  | ask {k : ReplyKind} (m : Message k) (next : Reply k → Dialogue α)

/-- A message together with the kind of its reply. -/
structure Sent where
  {kind : ReplyKind}
  message : Message kind

/-- A reply to every message. -/
structure Replies where
  reply : {k : ReplyKind} → Message k → Reply k

namespace Dialogue

variable {α β : Type}

/-- The dialogue that goes on with another one. -/
def bind (d : Dialogue α) (f : α → Dialogue β) : Dialogue β :=
  match d with
  | done a => f a
  | ask m next => ask m fun r => (next r).bind f

instance : Monad Dialogue where
  pure := done
  bind := bind

/-- The dialogue of a single message. -/
def send {k : ReplyKind} (m : Message k) : Dialogue (Reply k) := ask m done

def capability (m : Message .flag) : Dialogue Bool := do return Reply.granted (← send m)

/-- The result of a dialogue with an object whose replies are fixed. -/
def result (o : Replies) : Dialogue α → α
  | done a => a
  | ask m next => result o (next (o.reply m))

/-- The messages of a dialogue with an object whose replies are fixed, in their order. -/
def transcript (o : Replies) : Dialogue α → List Sent
  | done _ => []
  | ask m next => ⟨m⟩ :: transcript o (next (o.reply m))

section Laws

variable (o : Replies)

@[simp] theorem result_pure (a : α) : (pure a : Dialogue α).result o = a := rfl

@[simp] theorem transcript_pure (a : α) : (pure a : Dialogue α).transcript o = [] := rfl

@[simp] theorem result_bind (d : Dialogue α) (f : α → Dialogue β) :
    (d >>= f).result o = (f (d.result o)).result o := by
  induction d with
  | done a => rfl
  | ask m next ih => exact ih _

@[simp] theorem transcript_bind (d : Dialogue α) (f : α → Dialogue β) :
    (d >>= f).transcript o = d.transcript o ++ (f (d.result o)).transcript o := by
  induction d with
  | done a => rfl
  | ask m next ih => exact congrArg (Sent.mk m :: ·) (ih _)

@[simp] theorem result_send {k : ReplyKind} (m : Message k) :
    (send m).result o = o.reply m := rfl

@[simp] theorem transcript_send {k : ReplyKind} (m : Message k) :
    (send m).transcript o = [⟨m⟩] := rfl

@[simp] theorem result_capability (m : Message .flag) :
    (capability m).result o = Reply.granted (o.reply m) := by
  simp [capability]

@[simp] theorem transcript_capability (m : Message .flag) :
    (capability m).transcript o = [⟨m⟩] := by
  simp [capability]

end Laws

end Dialogue
end PropertyDelete
