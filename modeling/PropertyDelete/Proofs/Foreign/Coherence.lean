import PropertyDelete.Proofs.Foreign.HostObject

/-!
Coherent foreign objects: those whose replies fit together for as long as they are sent messages
(`Coherent`). Whether they have members and whether they have indexed elements never changes, what
is said of members and elements is said for all of them, and a member whose removal was granted is
gone for good. Records and lists are coherent, and so is a scripted object that leaves members to a
coherent one and has a row of elements of its own (`Coherent.withElements`): such an object may
have both.
-/
namespace PropertyDelete

/-- A record that grants a removal is left without the members of the name. -/
theorem MemberRecord.remove_granted {r : MemberRecord} {name : String}
    (h : (r.remove name).1 = .ok ()) : (r.remove name).2 = r.without name := by
  unfold remove at h ⊢
  cases hm : r.find? name with
  | none =>
    rw [hm] at h
    cases h
  | some m =>
    cases hremovable : m.removable with
    | false => simp [hm, hremovable] at h
    | true =>
      cases hlocked : r.locked with
      | true => simp [hm, hremovable, hlocked] at h
      | false => simp [hremovable, hlocked, without]

/-- No message brings in members. -/
theorem MemberRecord.receive_members (r : MemberRecord) {k : ReplyKind} (m : Message k) :
    (r.receive m).2.members ⊆ r.members := by
  cases m with
  | removeMember name =>
    show (r.remove name).2.members ⊆ r.members
    rcases r.remove_cases name with hok | hkept
    · rw [remove_granted hok]
      exact fun m hm => (List.mem_filter.mp hm).1
    · rw [hkept]
      exact List.Subset.refl _
  | readMember name =>
    simp only [receive]
    split <;> exact List.Subset.refl _
  | _ => exact List.Subset.refl _

/-- The heaps that there can be after a foreign object has received some messages. -/
inductive Heap.Later (f : ForeignRef) (h : Heap) : Heap → Prop
  | here : Later f h h
  | told {h' : Heap} {k : ReplyKind} (later : Later f h h') (m : Message k) :
    Later f h (h'.told f m)

namespace Heap.Later

variable {f b : ForeignRef} {h h' h'' : Heap}

theorem trans (first : Later f h h') (second : Later f h' h'') : Later f h h'' := by
  induction second with
  | here => exact first
  | told _ m ih => exact ih.told m

/-- A record stays a record, and no members come in. -/
theorem record {r : MemberRecord} (hr : h.foreign? f = some (.record r)) (later : Later f h h') :
    ∃ r', h'.foreign? f = some (.record r') ∧ r'.members ⊆ r.members := by
  induction later with
  | here => exact ⟨r, hr, List.Subset.refl _⟩
  | told _ m ih =>
    obtain ⟨r', hr', hsub⟩ := ih
    refine ⟨(r'.receive m).2, ?_, List.Subset.trans (r'.receive_members m) hsub⟩
    rw [told_record m hr']
    exact foreign?_setForeign_self hr' _

/-- A list stays as it is. -/
theorem list {l : ElementList} (hl : h.foreign? f = some (.list l)) (later : Later f h h') :
    h' = h := by
  induction later with
  | here => rfl
  | told _ m ih =>
    subst ih
    exact told_list m hl

/-- A scripted object stays as it is, and its base receives no other messages than those that are
passed on to it. -/
theorem scripted {c : ScriptedObject} (hf : h.foreign? f = some (.scripted c))
    (hbase : c.base = some b) (later : Later f h h') :
    h'.foreign? f = some (.scripted c) ∧ Later b h h' := by
  induction later with
  | here => exact ⟨hf, .here⟩
  | @told h' k _ m ih =>
    obtain ⟨hf', hlater⟩ := ih
    cases hc : c.passesTo? f m with
    | none =>
      rw [told_answered m hf' hc]
      exact ⟨hf', hlater⟩
    | some b' =>
      have hlt := ScriptedObject.passesTo?_lt hc
      have hsame : b' = b := by
        unfold ScriptedObject.passesTo? at hc
        split at hc
        · cases hc
        · rw [hbase] at hc
          exact (Option.some.inj (Option.filter_eq_some_iff.mp hc).1).symm
      subst hsame
      rw [told_passed m hf' hc]
      exact ⟨(foreign?_told_of_lt m hlt).trans hf', hlater.told m⟩

end Heap.Later

/-- Whether the replies of a foreign object fit together, now and after any messages to it: it
says for good whether it has members and whether it has indexed elements. -/
structure Coherent (h : Heap) (f : ForeignRef) (members elements : Bool) : Prop where
  hasMembers : ∀ {h'}, h.Later f h' → h'.reply f .hasMembers = .ok members
  hasArrayElements : ∀ {h'}, h.Later f h' → h'.reply f .hasArrayElements = .ok elements
  existing : members = true → ∀ {h'}, h.Later f h' → ∀ name,
    ∃ there, h'.reply f (.isMemberExisting name) = .ok there
  removable : members = true → ∀ {h'}, h.Later f h' → ∀ name,
    ∃ free, h'.reply f (.isMemberRemovable name) = .ok free
  /-- A member whose removal was granted is gone for good. -/
  removed : members = true → ∀ {h'}, h.Later f h' → ∀ name,
    h'.reply f (.removeMember name) = .ok () →
      ∀ {h''}, (h'.told f (.removeMember name)).Later f h'' →
        h''.reply f (.isMemberExisting name) = .ok false
  row : elements = true → ∀ {h'}, h.Later f h' → ∃ size : Nat, h'.reply f .arraySize = .ok size ∧
    ∀ i, h'.reply f (.isArrayElementExisting i) = .ok (decide (i < size))

namespace Coherent

variable {h : Heap} {f : ForeignRef}

theorem record {r : MemberRecord} (hr : h.foreign? f = some (.record r)) :
    Coherent h f true false where
  hasMembers later := by
    obtain ⟨r', hr', -⟩ := later.record hr
    exact Heap.reply_record _ hr'
  hasArrayElements later := by
    obtain ⟨r', hr', -⟩ := later.record hr
    exact Heap.reply_record _ hr'
  existing _ _ later name := by
    obtain ⟨r', hr', -⟩ := later.record hr
    exact ⟨_, Heap.reply_record _ hr'⟩
  removable _ _ later name := by
    obtain ⟨r', hr', -⟩ := later.record hr
    exact ⟨_, Heap.reply_record _ hr'⟩
  removed _ h' later name hok _ after := by
    obtain ⟨r', hr', -⟩ := later.record hr
    rw [Heap.reply_record _ hr'] at hok
    have hleft : (h'.told f (.removeMember name)).foreign? f =
        some (.record (r'.without name)) := by
      rw [Heap.told_record _ hr', Heap.foreign?_setForeign_self hr']
      exact congrArg (some ∘ ForeignObject.record) (MemberRecord.remove_granted hok)
    obtain ⟨r'', hr'', hsub⟩ := after.record hleft
    have hgone : r''.find? name = none := MemberRecord.find?_eq_none_of_subset hsub
    rw [Heap.reply_record _ hr'']
    show (.ok (r''.find? name).isSome : Reply .flag) = .ok false
    rw [hgone]
    rfl
  row := nofun

theorem list {l : ElementList} (hl : h.foreign? f = some (.list l)) :
    Coherent h f false true where
  hasMembers later := by
    rw [later.list hl]
    exact Heap.reply_list _ hl
  hasArrayElements later := by
    rw [later.list hl]
    exact Heap.reply_list _ hl
  existing := nofun
  removable := nofun
  removed := nofun
  row _ _ later := by
    rw [later.list hl]
    exact ⟨l.elements.length, Heap.reply_list _ hl, fun i => Heap.reply_list _ hl⟩

/-- A scripted object with a row of elements that passes on what concerns members to a coherent
object. -/
theorem withElements {c : ScriptedObject} {b : ForeignRef} {members elements : Bool} {size : Nat}
    (hb : Coherent h b members elements) (hf : h.foreign? f = some (.scripted c))
    (hbase : c.base = some b) (hlt : b.index < f.index) (hmembers : c.reply? .hasMembers = none)
    (hmember : ∀ name, c.reply? (.isMemberExisting name) = none ∧
      c.reply? (.isMemberRemovable name) = none ∧ c.reply? (.removeMember name) = none)
    (helements : c.reply? .hasArrayElements = some (.ok true))
    (hsize : c.reply? .arraySize = some (.ok size))
    (hrow : ∀ i, c.reply? (.isArrayElementExisting i) = some (.ok (decide (i < size)))) :
    Coherent h f members true := by
  have hpasses : ∀ {k : ReplyKind} {m : Message k}, c.reply? m = none →
      c.passesTo? f m = some b := by
    intro k m hm
    simp [ScriptedObject.passesTo?, hm, hbase, hlt]
  have hkeeps : ∀ {k : ReplyKind} {m : Message k} {r : Reply k}, c.reply? m = some r →
      ∀ {h'}, h.Later f h' → h'.reply f m = r := by
    intro k m r hm h' later
    have hstays : c.passesTo? f m = none := by
      simp [ScriptedObject.passesTo?, hm]
    rw [Heap.reply_answered m (later.scripted hf hbase).1 hstays, hm, Option.getD_some]
  constructor
  · intro h' later
    obtain ⟨hf', hlater⟩ := later.scripted hf hbase
    rw [Heap.reply_passed _ hf' (hpasses hmembers)]
    exact hb.hasMembers hlater
  · exact fun later => hkeeps helements later
  · intro hon h' later name
    obtain ⟨hf', hlater⟩ := later.scripted hf hbase
    rw [Heap.reply_passed _ hf' (hpasses (hmember name).1)]
    exact hb.existing hon hlater name
  · intro hon h' later name
    obtain ⟨hf', hlater⟩ := later.scripted hf hbase
    rw [Heap.reply_passed _ hf' (hpasses (hmember name).2.1)]
    exact hb.removable hon hlater name
  · intro hon h' later name hok h'' after
    obtain ⟨hf', hlater⟩ := later.scripted hf hbase
    have hpass := hpasses (hmember name).2.2
    rw [Heap.reply_passed _ hf' hpass] at hok
    obtain ⟨hf'', hafter⟩ := after.scripted ((later.told _).scripted hf hbase).1 hbase
    rw [Heap.told_passed _ hf' hpass] at hafter
    rw [Heap.reply_passed _ hf'' (hpasses (hmember name).1)]
    exact hb.removed hon hlater name hok hafter
  · exact fun _ _ later => ⟨size, hkeeps hsize later, fun i => hkeeps (hrow i) later⟩

end Coherent

namespace ScriptedObject

/-- What a row of elements replies, and nothing to other messages. -/
def rowReply? (size : Nat) : {k : ReplyKind} → Message k → Option (Reply k)
  | _, .hasArrayElements => some (.ok true)
  | _, .arraySize => some (.ok size)
  | _, .isArrayElementExisting i => some (.ok (decide (i < size)))
  | _, _ => none

/-- A scripted object that says it has a row of elements, and leaves all else to its base. -/
def row (size : Nat) (base : ForeignRef) : ScriptedObject where
  reply? := rowReply? size
  base := some base

end ScriptedObject

section Row

variable {h : Heap} {f b : ForeignRef} {size : Nat}
variable (hf : h.foreign? f = some (.scripted (.row size b))) (hlt : b.index < f.index)
include hf hlt

theorem Coherent.row_over {members elements : Bool} (hb : Coherent h b members elements) :
    Coherent h f members true :=
  hb.withElements hf rfl hlt rfl (fun _ => ⟨rfl, rfl, rfl⟩) rfl rfl fun _ => rfl

theorem Heap.reply_row {k : ReplyKind} (m : Message k)
    (hm : ScriptedObject.rowReply? size m = none) : h.reply f m = h.reply b m := by
  have hpass : (ScriptedObject.row size b).passesTo? f m = some b := by
    simp [ScriptedObject.passesTo?, ScriptedObject.row, hm, hlt]
  exact reply_passed m hf hpass

end Row

end PropertyDelete
