import PropertyDelete.Proofs.Delete.Paths
import PropertyDelete.Proofs.Foreign.Protocol

/-!
The messages that a foreign object receives during one delete. An object that gives fixed replies
is the only one to receive any, and it receives the transcript of the dialogue
(`Dialogue.runWith_fixed`). Whatever way the delete goes, each message is permitted after those
before it (`keeps_protocol`): hash entries come first and only where they count, a removal comes
after all that has to be asked before it, and nothing comes after a removal that has settled the
delete.
-/
namespace PropertyDelete

/-- The replies of a scripted object that passes nothing on. -/
def ScriptedObject.replies (c : ScriptedObject) : Replies where
  reply m := (c.reply? m).getD m.unanswered

/-- Whether a scripted object, in the place of `f`, answers every message itself. -/
def ScriptedObject.Fixed (c : ScriptedObject) (f : ForeignRef) : Prop :=
  ∀ {k : ReplyKind} (m : Message k), c.passesTo? f m = none

section Fixed

variable {s : Store} {f : ForeignRef} {c : ScriptedObject}
variable (hf : s.heap.foreign? f = some (.scripted c)) (hc : c.Fixed f)
include hf hc

/-- A dialogue with an object of fixed replies comes to its result, and all of its messages are
logged. -/
theorem Dialogue.runWith_fixed {α : Type} (d : Dialogue α) :
    (d.runWith f).run s =
      (d.result c.replies,
        { s with calls := s.calls ++ (d.transcript c.replies).map (Call.mk f) }) := by
  induction d generalizing s with
  | done a =>
    show (a, s) = (a, { s with calls := s.calls ++ [] })
    rw [List.append_nil]
  | ask m next ih =>
    have hrest := ih (c.replies.reply m) (s := s.logged f m) hf
    show ((next (s.deliver f m).1).runWith f).run (s.deliver f m).2 = _
    rw [Store.deliver_answered m hf (hc m)]
    refine hrest.trans ?_
    show _ = ((next (c.replies.reply m)).result c.replies, ({ s with calls := _ } : Store))
    simp [Store.logged, Dialogue.transcript]

end Fixed

namespace Delete

open Foreign (Permitted)

/-- Whether a computation has logged only messages to a scripted object, and each of them was
permitted after those before it. -/
def KeptProtocol (c : ScriptedObject) (f : ForeignRef) (policy : DeletePolicy) (key : Key)
    (s s' : Store) : Prop :=
  ∃ log : List Sent, s'.calls = s.calls ++ log.map (Call.mk f) ∧
    ∀ before m after, log = before ++ m :: after →
      Permitted c.replies policy key before m

section Ways

variable {s : Store} {f : ForeignRef} {c : ScriptedObject}
variable (hf : s.heap.foreign? f = some (.scripted c)) (hc : c.Fixed f)
include hf hc

theorem runWith_kept {policy : DeletePolicy} {key : Key} {d : Dialogue Outcome}
    (hd : d.Keeps c.replies (Permitted c.replies policy key) []) :
    KeptProtocol c f policy key s ((d.runWith f).run s).2 := by
  refine ⟨d.transcript c.replies, ?_, fun before m after h => hd before m after h⟩
  rw [Dialogue.runWith_fixed hf hc]

theorem generic_kept (policy : DeletePolicy) (key : Key) :
    KeptProtocol c f policy key s ((generic policy (.foreign f) key).run s).2 :=
  runWith_kept hf hc Foreign.delete_keeps

/-- The one variant that has its own way with a foreign object leaves out a question. -/
theorem invoke_kept (v : DeleteVariant) (policy : DeletePolicy) (key : Key) :
    KeptProtocol c f policy key s ((invoke v policy (.foreign f) key).run s).2 := by
  rcases invoke_run v policy (.foreign f) key s with e | ⟨g, t, hg, rfl, e, -⟩
  · rw [e]
    exact generic_kept hf hc policy key
  · cases hg
    rw [e]
    exact runWith_kept hf hc (Foreign.deleteNamed_keeps t)

theorem perform_kept (entry : Option DeleteVariant) (policy : DeletePolicy) (key : Key) :
    KeptProtocol c f policy key s ((deletion.perform entry policy (.foreign f) key).run s).2 := by
  cases entry with
  | none => exact generic_kept hf hc policy key
  | some v => exact invoke_kept hf hc v policy key

/-- A delete of any key of an object of fixed replies keeps to the protocol, the generic way, the
way of any variant, and at any site, whatever it remembers and whether or not it is interrupted. -/
theorem keeps_protocol (policy : DeletePolicy) (key : Key) :
    KeptProtocol c f policy key s ((generic policy (.foreign f) key).run s).2 ∧
      (∀ v, KeptProtocol c f policy key s ((invoke v policy (.foreign f) key).run s).2) ∧
      ∀ (interrupted : Flags) (site : DeleteSite) (value : Value),
        KeptProtocol c f site.policy (s.heap.toKey value) s
          ((deletion.execute interrupted site (.foreign f) value).run s).2 := by
  refine ⟨generic_kept hf hc policy key, fun v => invoke_kept hf hc v policy key, ?_⟩
  intro interrupted site value
  cases hb : deletion.budget site.policy interrupted with
  | error e =>
    rw [Operation.execute_refused hb]
    exact ⟨[], (List.append_nil _).symm, fun before m after h => by simp at h⟩
  | ok u =>
    rw [Operation.execute_run hb]
    exact perform_kept hf hc _ site.policy (s.heap.toKey value)

end Ways

/-- What an object replies that has members and hash entries, removes no hash entry, and does not
say which members may be removed. -/
def reluctant? : {k : ReplyKind} → Message k → Option (Reply k)
  | _, .hasHashEntries | _, .hasMembers | _, .isMemberExisting _ => some (.ok true)
  | _, .removeMember _ => some (.ok ())
  | _, _ => none

/-- A delete by a name at a site where hash entries count: all six messages there can be. -/
theorem keeps_protocol_reluctant :
    let c : ScriptedObject := { reply? := reluctant? }
    let s : Store := { heap := { foreigns := [.scripted c] } }
    let site : DeleteSite := .new { strict := true, foreignHash := true } 4
    let key := Value.ofString "a"
    let after := ((deletion.execute false site (.foreign ⟨0⟩) key).run s).2
    s.heap.foreign? ⟨0⟩ = some (.scripted c) ∧ c.Fixed ⟨0⟩ ∧
      after.calls.map (fun call => call.sent) =
        [⟨.hasHashEntries⟩, ⟨.removeHashEntry key⟩, ⟨.hasMembers⟩, ⟨.isMemberExisting "a"⟩,
          ⟨.isMemberRemovable "a"⟩, ⟨.removeMember "a"⟩] ∧
      KeptProtocol c ⟨0⟩ site.policy (s.heap.toKey key) s after := by
  intro c s site key after
  have hf : s.heap.foreign? ⟨0⟩ = some (.scripted c) := rfl
  have hc : c.Fixed ⟨0⟩ := fun m => by simp [ScriptedObject.passesTo?, c]
  have hlog : after.calls.map (fun call => call.sent) =
      [⟨.hasHashEntries⟩, ⟨.removeHashEntry key⟩, ⟨.hasMembers⟩, ⟨.isMemberExisting "a"⟩,
        ⟨.isMemberRemovable "a"⟩, ⟨.removeMember "a"⟩] := by
    have hkey : s.heap.toKey key = .text (Utf16.ofString "a") := by decide
    have hrun : after =
        (((Foreign.deleteNamed (s.heap.toKey key) site.policy).runWith ⟨0⟩).run s).2 := by
      show ((deletion.execute false site (.foreign ⟨0⟩) key).run s).2 = _
      rw [Operation.execute_run rfl, hkey]
      rfl
    rw [hrun, Dialogue.runWith_fixed hf hc, hkey]
    rfl
  exact ⟨hf, hc, hlog, (keeps_protocol hf hc site.policy (s.heap.toKey key)).2.2 false site key⟩

end Delete
end PropertyDelete
