import PropertyDelete.Proofs.Foreign.HostObject

/-!
The order in which a delete asks. `Permitted` says when a message may be sent, by what has been
sent before and what was replied to it, and a dialogue keeps to a protocol if each of its messages
is permitted after those before it (`Dialogue.Keeps`). That is shown message by message, along the
dialogue (`Keeps.send`), so each part of a delete is followed from whatever has been said before
it; the delete by a text key and the delete by any key are put together from the parts
(`deleteNamed_keeps`, `delete_keeps`).
-/
namespace PropertyDelete

/-- Whether each message of a dialogue with an object of fixed replies is permitted after what has
been said before, in the dialogue and before it. -/
def Dialogue.Keeps {α : Type} (o : Replies) (P : List Sent → Sent → Prop) (past : List Sent)
    (d : Dialogue α) : Prop :=
  ∀ before m after, d.transcript o = before ++ m :: after → P (past ++ before) m

namespace Dialogue.Keeps

variable {α : Type} {o : Replies} {P : List Sent → Sent → Prop} {past : List Sent}

theorem pure' (a : α) : Keeps o P past (pure a) := by
  intro before m after h
  exact absurd h.symm (List.append_ne_nil_of_right_ne_nil before (List.cons_ne_nil m after))

theorem ask {k : ReplyKind} {m : Message k} {next : Reply k → Dialogue α} (hm : P past ⟨m⟩)
    (hnext : Keeps o P (past ++ [⟨m⟩]) (next (o.reply m))) : Keeps o P past (.ask m next) := by
  intro before m' after h
  cases before with
  | nil =>
    rw [← (List.cons.inj h).1, List.append_nil]
    exact hm
  | cons b rest =>
    obtain ⟨hb, hrest⟩ := List.cons.inj h
    have hlater := hnext rest m' after hrest
    rwa [List.append_assoc, List.singleton_append, hb] at hlater

theorem send {k : ReplyKind} {m : Message k} {f : Reply k → Dialogue α} (hm : P past ⟨m⟩)
    (hnext : Keeps o P (past ++ [⟨m⟩]) (f (o.reply m))) :
    Keeps o P past (Dialogue.send m >>= f) := .ask hm hnext

theorem capability {m : Message .flag} {f : Bool → Dialogue α} (hm : P past ⟨m⟩)
    (hnext : Keeps o P (past ++ [⟨m⟩]) (f (Reply.granted (o.reply m)))) :
    Keeps o P past (Dialogue.capability m >>= f) := .ask hm hnext

/-- A dialogue that keeps to a protocol goes on with another one. -/
theorem bind {β : Type} {d : Dialogue α} {f : α → Dialogue β} (hd : Keeps o P past d)
    (hf : Keeps o P (past ++ d.transcript o) (f (d.result o))) : Keeps o P past (d >>= f) := by
  intro before m after h
  rw [transcript_bind] at h
  rcases List.append_eq_append_iff.mp h with ⟨rest, hbefore, hrest⟩ | ⟨rest, hfirst, hrest⟩
  · -- the message is one of the second dialogue
    rw [hbefore, ← List.append_assoc]
    exact hf rest m after hrest
  · cases rest with
    | nil =>
      rw [List.append_nil] at hfirst
      rw [← hfirst, ← List.append_nil (past ++ _)]
      exact hf [] m after hrest.symm
    | cons b rest =>
      obtain ⟨rfl, -⟩ := List.cons.inj hrest
      exact hd before m rest hfirst

end Dialogue.Keeps

namespace Foreign

/-- Whether a delete may still send messages. A removal is the last message, unless it was one of
a hash entry and is not supported. -/
def Ongoing (o : Replies) (past : List Sent) : Prop :=
  ∀ removal : Message .done, ⟨removal⟩ ∈ past →
    ∃ v message, removal = .removeHashEntry v ∧
      o.reply removal = .error (.unsupported message)

/-- Whether a delete of a key may send a message, by what it has sent before and what an object of
fixed replies has replied. -/
structure Permitted (o : Replies) (policy : DeletePolicy) (key : Key) (past : List Sent)
    (m : Sent) : Prop where
  ongoing : Ongoing o past
  /-- Hash entries matter only where they count as properties. -/
  hasHashEntries : m = ⟨.hasHashEntries⟩ → policy.foreignHash = true
  /-- A hash entry is removed after one question, and before any other. -/
  removeHashEntry : ∀ v, m = ⟨.removeHashEntry v⟩ → policy.foreignHash = true ∧
    v = key.toValue ∧ past = [⟨.hasHashEntries⟩] ∧ o.reply .hasHashEntries = .ok true
  /-- A member is removed that is known to be there and not known to be fixed. -/
  removeMember : ∀ name, m = ⟨.removeMember name⟩ →
    key.name? = some name ∧ (∀ s, key ≠ .symbol s) ∧
    (⟨.hasMembers⟩ ∈ past ∧ o.reply .hasMembers = .ok true) ∧
    (⟨.isMemberExisting name⟩ ∈ past ∧ o.reply (.isMemberExisting name) = .ok true) ∧
    (⟨.isMemberRemovable name⟩ ∈ past ∧ o.reply (.isMemberRemovable name) ≠ .ok false) ∧
    ∀ i, key = .index i → ⟨.hasArrayElements⟩ ∈ past ∧ o.reply .hasArrayElements ≠ .ok true
  /-- The size matters only for an index, of an object with elements. -/
  arraySize : m = ⟨.arraySize⟩ →
    ∃ i, key = .index i ∧ ⟨.hasArrayElements⟩ ∈ past ∧ o.reply .hasArrayElements = .ok true

variable {o : Replies} {policy : DeletePolicy} {key : Key} {past : List Sent}

theorem Ongoing.question (h : Ongoing o past) {k : ReplyKind} {m : Message k} (hk : k ≠ .done) :
    Ongoing o (past ++ [⟨m⟩]) := by
  intro removal hin
  rcases List.mem_append.mp hin with hin | hin
  · exact h removal hin
  · have hkind : ReplyKind.done = k := congrArg Sent.kind (List.mem_singleton.mp hin)
    exact absurd hkind.symm hk

/-- Any question but that for hash entries may be asked while the delete goes on. -/
theorem Ongoing.permits (h : Ongoing o past) {m : Message .flag} (hm : m ≠ .hasHashEntries) :
    Permitted o policy key past ⟨m⟩ where
  ongoing := h
  hasHashEntries hm' := by
    cases hm'
    exact absurd rfl hm
  removeHashEntry := nofun
  removeMember := nofun
  arraySize := nofun

open Dialogue (Keeps)

section Parts

variable (h : Ongoing o past)
include h

/-- Removal of a member, where it is known that the object has members and that the key names
one. -/
theorem deleteMember_keeps {name : String} (hname : key.name? = some name)
    (hmembers : ⟨.hasMembers⟩ ∈ past ∧ o.reply .hasMembers = .ok true)
    (hindex : ∀ i, key = .index i →
      ⟨.hasArrayElements⟩ ∈ past ∧ o.reply .hasArrayElements ≠ .ok true) (strict : Bool) :
    Keeps o (Permitted o policy key) past (deleteMember name key strict) := by
  unfold deleteMember
  refine .capability (h.permits nofun) ?_
  have h := h.question (m := .isMemberExisting name) (by decide)
  cases hthere : Reply.granted (o.reply (.isMemberExisting name)) with
  | false => exact .pure' _
  | true =>
    refine .send (h.permits nofun) ?_
    have h := h.question (m := .isMemberRemovable name) (by decide)
    -- the removal, whatever the object has said but that the member is fixed
    have hremoval (hfree : o.reply (.isMemberRemovable name) ≠ .ok false) :
        Permitted o policy key
          (past ++ [⟨.isMemberExisting name⟩] ++ [⟨.isMemberRemovable name⟩])
          ⟨.removeMember name⟩ := by
      refine ⟨h, nofun, nofun, ?_, nofun⟩
      intro n hn
      cases hn
      refine ⟨hname, ?_, ?_, ?_, ?_, ?_⟩
      · rintro s rfl
        cases hname
      · exact ⟨by simp [hmembers.1], hmembers.2⟩
      · exact ⟨by simp, Reply.granted_iff.mp hthere⟩
      · exact ⟨by simp, hfree⟩
      · intro i hi
        exact ⟨by simp [(hindex i hi).1], (hindex i hi).2⟩
    cases hfree : o.reply (.isMemberRemovable name) with
    | error e =>
      refine .send (hremoval (by rw [hfree]; exact nofun)) ?_
      cases o.reply (.removeMember name) <;> exact .pure' _
    | ok free =>
      cases free with
      | false => exact .pure' _
      | true =>
        refine .send (hremoval (by rw [hfree]; exact nofun)) ?_
        cases o.reply (.removeMember name) <;> exact .pure' _

/-- Deletion of an element, where it is known that the object has elements. -/
theorem deleteElement_keeps {i : Nat} (hkey : key = .index i)
    (helements : ⟨.hasArrayElements⟩ ∈ past ∧ o.reply .hasArrayElements = .ok true)
    (strict : Bool) :
    Keeps o (Permitted o policy key) past (deleteElement i key strict) := by
  unfold deleteElement
  refine .send ⟨h, nofun, nofun, nofun, fun _ => ⟨i, hkey, helements⟩⟩ ?_
  cases Reply.size? (o.reply .arraySize) with
  | none => exact .pure' _
  | some size => exact .pure' _

/-- How a delete goes on after hash entries: whether there are elements is asked first, and whether
there are members next. -/
theorem deleteKnowing_keeps :
    Keeps o (Permitted o policy key) past (do
      let indexed ← .capability .hasArrayElements
      let members ← .capability .hasMembers
      deleteKnowing key policy indexed members) := by
  refine .capability (h.permits nofun) ?_
  have h := h.question (m := .hasArrayElements) (by decide)
  refine .capability (h.permits nofun) ?_
  have h := h.question (m := .hasMembers) (by decide)
  cases key with
  | symbol s => exact .pure' _
  | text t =>
    rw [deleteKnowing_text]
    cases hmembers : Reply.granted (o.reply .hasMembers) with
    | false => exact .pure' _
    | true =>
      exact deleteMember_keeps h rfl ⟨by simp, Reply.granted_iff.mp hmembers⟩ (by rintro i ⟨⟩) _
  | index i =>
    rw [deleteKnowing_index]
    cases hindexed : Reply.granted (o.reply .hasArrayElements) with
    | true => exact deleteElement_keeps h rfl ⟨by simp, Reply.granted_iff.mp hindexed⟩ _
    | false =>
      have hnone : o.reply .hasArrayElements ≠ .ok true := fun hok => by
        rw [Reply.granted_iff.mpr hok] at hindexed
        cases hindexed
      cases hmembers : Reply.granted (o.reply .hasMembers) with
      | false => exact .pure' _
      | true =>
        exact deleteMember_keeps h rfl ⟨by simp, Reply.granted_iff.mp hmembers⟩
          (fun _ _ => ⟨by simp, hnone⟩) _

end Parts

theorem deleteHashEntry_keeps :
    Keeps o (Permitted o policy key) [] (deleteHashEntry key policy) := by
  have hstart : Ongoing o [] := nofun
  unfold deleteHashEntry
  cases hhash : policy.foreignHash with
  | false => exact .pure' _
  | true =>
    have hask : Permitted o policy key [] ⟨.hasHashEntries⟩ :=
      ⟨hstart, fun _ => hhash, nofun, nofun, nofun⟩
    refine .capability hask ?_
    have hasked : Ongoing o ([] ++ [⟨.hasHashEntries⟩]) := hstart.question (by decide)
    cases hentries : Reply.granted (o.reply .hasHashEntries) with
    | false => exact .pure' _
    | true =>
      refine .send ⟨hasked, nofun, ?_, nofun, nofun⟩ ?_
      · intro v hv
        cases hv
        exact ⟨hhash, rfl, rfl, Reply.granted_iff.mp hentries⟩
      · cases o.reply (.removeHashEntry key.toValue) with
        | ok u => exact .pure' _
        | error e => cases e <;> exact .pure' _

/-- A delete that the hash entries do not settle goes on. -/
theorem deleteHashEntry_ongoing (hnone : (deleteHashEntry key policy).result o = none) :
    Ongoing o ((deleteHashEntry key policy).transcript o) := by
  have hstart : Ongoing o [] := nofun
  have hasked : Ongoing o [⟨.hasHashEntries⟩] := hstart.question (by decide)
  cases hhash : policy.foreignHash with
  | false => simpa [deleteHashEntry, hhash] using hstart
  | true =>
    cases hentries : Reply.granted (o.reply .hasHashEntries) with
    | false => simpa [deleteHashEntry, hhash, hentries] using hasked
    | true =>
      cases hremove : o.reply (.removeHashEntry key.toValue) with
      | ok u =>
        simp [deleteHashEntry, hhash, hentries, hremove] at hnone
        cases hnone
      | error e =>
        cases e with
        | unsupported message =>
          have hlog : (deleteHashEntry key policy).transcript o =
              [⟨.hasHashEntries⟩, ⟨.removeHashEntry key.toValue⟩] := by
            simp [deleteHashEntry, hhash, hentries, hremove]
          rw [hlog]
          rintro removal (_ | ⟨_, _ | ⟨_, hin⟩⟩)
          · exact ⟨key.toValue, message, rfl, hremove⟩
          · cases hin
        | _ => simp [deleteHashEntry, hhash, hentries, hremove] at hnone

theorem delete_keeps : Keeps o (Permitted o policy key) [] (delete key policy) := by
  refine deleteHashEntry_keeps.bind ?_
  cases hanswer : (deleteHashEntry key policy).result o with
  | some answer => exact .pure' _
  | none => exact deleteKnowing_keeps (deleteHashEntry_ongoing hanswer)

theorem deleteNamed_keeps (t : Utf16) :
    Keeps o (Permitted o policy (.text t)) [] (deleteNamed (.text t) policy) := by
  refine deleteHashEntry_keeps.bind ?_
  cases hanswer : (deleteHashEntry (.text t) policy).result o with
  | some answer => exact .pure' _
  | none =>
    have h := deleteHashEntry_ongoing hanswer
    refine .capability (h.permits nofun) ?_
    have h := h.question (m := .hasMembers) (by decide)
    cases hmembers : Reply.granted (o.reply .hasMembers) with
    | false => exact .pure' _
    | true =>
      exact deleteMember_keeps h rfl ⟨by simp, Reply.granted_iff.mp hmembers⟩ (by rintro i ⟨⟩) _

end Foreign
end PropertyDelete
