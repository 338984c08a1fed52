import PropertyDelete.Delete.Foreign
import PropertyDelete.Foreign.Property
import PropertyDelete.Proofs.Foreign.Exchange
import PropertyDelete.Proofs.Key.Canonical

/-!
Properties of the host objects: what the dialogues of a look-up and of a delete come to with a
record, a list or a map, said without dialogues. The members of a record and the elements of a
list are its properties, and a map has none (`ownProperty?_host`); a delete removes all members of
a name or one hash entry, or nothing (`delete_host`).
-/
namespace PropertyDelete

/-- The member that a key names. -/
def MemberRecord.member? (r : MemberRecord) (key : Key) : Option Member := key.name?.bind r.find?

/-- A record without the members of a name. -/
def MemberRecord.without (r : MemberRecord) (name : String) : MemberRecord :=
  { r with members := r.members.filter fun m => m.name ≠ name }

/-- Deletes all members of the name of a key, if the first of them is removable and the record is
not locked. -/
def MemberRecord.delete (r : MemberRecord) (key : Key) (strict : Bool) : Outcome × MemberRecord :=
  match r.member? key with
  | none => (.ok true, r)
  | some m =>
    if !m.removable then (.notConfigurable key strict, r)
    else if r.locked then (.refused key (.failed ("record is locked: " ++ m.name)) strict, r)
    else (.ok true, r.without m.name)

/-- The member that a key names has its name. -/
theorem MemberRecord.name_of_member? {r : MemberRecord} {key : Key} {m : Member}
    (h : r.member? key = some m) : key.name? = some m.name := by
  obtain ⟨name, hname, hfind⟩ := Option.bind_eq_some_iff.mp h
  have hsame : m.name = name := by
    simpa using List.find?_some hfind
  rw [hname, hsame]

/-- No member is left of a name that its record was rid of. -/
theorem MemberRecord.find?_eq_none_of_subset {r r' : MemberRecord} {name : String}
    (h : r'.members ⊆ (r.without name).members) : r'.find? name = none := by
  refine List.find?_eq_none.mpr fun m hm => ?_
  have hne := (List.mem_filter.mp (h hm)).2
  simpa using hne

/-- The element that a key names. -/
def ElementList.element? (l : ElementList) (key : Key) : Option Value :=
  key.index?.bind fun i => l.elements[i]?

/-- Deletes no element: they are fixed. -/
def ElementList.delete (l : ElementList) (key : Key) (strict : Bool) : Outcome :=
  if (l.element? key).isSome then .notConfigurable key strict else .ok true

/-- Deletes the entry under a text, if the map is not frozen and entries count as properties. -/
def EntryMap.delete (m : EntryMap) (text : String) (key : Key) (policy : DeletePolicy) :
    Outcome × EntryMap :=
  if !policy.foreignHash then (.ok true, m)
  else if !m.entries.contains text then (.ok true, m)
  else if m.frozen then (.refused key (.failed "map is frozen") policy.strict, m)
  else (.ok true, { m with entries := m.entries.erase text })

namespace ForeignObject

/-- Whether an object is one that the embedder has ready, and not a scripted one. -/
def IsHost : ForeignObject → Prop
  | record _ | list _ | map _ => True
  | scripted _ => False

/-- The own property of a host object that a key names. -/
def ownProperty? (key : Key) : ForeignObject → Option Descriptor
  | record r => (r.member? key).map fun m => .data m.value true true m.removable
  | list l => (l.element? key).map fun v => .data v true true false
  | map _ | scripted _ => none

/-- Deletes an own property of a host object. -/
def delete (key : Key) (policy : DeletePolicy) : ForeignObject → Outcome × ForeignObject
  | record r => ((r.delete key policy.strict).1, record (r.delete key policy.strict).2)
  | list l => (l.delete key policy.strict, list l)
  | map m =>
    ((m.delete key.toValue.textPrimitive key policy).1,
      map (m.delete key.toValue.textPrimitive key policy).2)
  | scripted c => (.ok true, scripted c)

end ForeignObject

namespace Foreign

variable {h : Heap} {f : ForeignRef} (key : Key) (policy : DeletePolicy)

/-- Members come first, elements second. -/
theorem ownProperty?_heldOn {p : String → Option Descriptor} {q : Nat → Option Descriptor}
    (hp : ∀ name, (memberProperty? name).heldOn f h = (p name, h))
    (hq : ∀ i, (elementProperty? i).heldOn f h = (q i, h)) :
    (ownProperty? key).heldOn f h = ((key.name?.bind p).or (key.index?.bind q), h) := by
  unfold ownProperty?
  cases key.name? with
  | none =>
    cases key.index? with
    | none => rfl
    | some i => exact hq i
  | some name =>
    dsimp only
    rw [Dialogue.heldOn_bind, hp]
    dsimp only
    cases hd : p name with
    | none =>
      rw [Option.bind_some, hd, Option.none_or]
      cases key.index? with
      | none => rfl
      | some i => exact hq i
    | some d =>
      rw [Option.bind_some, hd, Option.some_or]
      rfl

/-- A key names an existing property if it names a member or an element that exists. -/
theorem hasProperty_heldOn {p : String → Bool} {q : Nat → Bool}
    (hp : ∀ name, (hasMember name).heldOn f h = (p name, h))
    (hq : ∀ i, (hasElement i).heldOn f h = (q i, h)) :
    (hasProperty key).heldOn f h = (key.name?.any p || key.index?.any q, h) := by
  unfold hasProperty
  cases key.name? with
  | none =>
    cases key.index? with
    | none => rfl
    | some i => exact hq i
  | some name =>
    dsimp only
    rw [Dialogue.heldOn_bind, hp]
    dsimp only
    rw [Option.any_some]
    cases p name with
    | false =>
      rw [Bool.false_or]
      cases key.index? with
      | none => rfl
      | some i => exact hq i
    | true => rfl

/-- Without the hash option hash entries are not asked for. -/
theorem deleteHashEntry_off {policy : DeletePolicy} (hoff : policy.foreignHash = false) :
    (deleteHashEntry key policy).heldOn f h = (none, h) := by
  rw [deleteHashEntry, hoff]
  rfl

/-- How a delete goes on after hash entries, once it is known whether the object has indexed
elements and whether it has members. -/
def deleteKnowing (indexed members : Bool) : Dialogue Outcome :=
  match memberName? key indexed, members with
  | some name, true => deleteMember name key policy.strict
  | _, _ =>
    match key, indexed with
    | .index i, true => deleteElement i key policy.strict
    | _, _ => return .ok true

section Knowing

variable (indexed members : Bool)

theorem deleteKnowing_text (t : Utf16) :
    deleteKnowing (.text t) policy indexed members =
      if members then deleteMember t.toString (.text t) policy.strict else return .ok true := by
  cases members <;> rfl

theorem deleteKnowing_index (i : Nat) :
    deleteKnowing (.index i) policy indexed members =
      if indexed then deleteElement i (.index i) policy.strict
      else if members then deleteMember (Decimal.text i) (.index i) policy.strict
      else return .ok true := by
  cases indexed <;> cases members <;> rfl

theorem deleteKnowing_symbol (s : Symbol) :
    deleteKnowing (.symbol s) policy indexed members = return .ok true := rfl

end Knowing

theorem delete_heldOn (hhash : (deleteHashEntry key policy).heldOn f h = (none, h)) :
    (delete key policy).heldOn f h =
      (deleteKnowing key policy (Reply.granted (h.reply f .hasArrayElements))
        (Reply.granted (h.reply f .hasMembers))).heldOn f h := by
  unfold delete
  rw [Dialogue.heldOn_bind, hhash]
  dsimp only
  rw [Dialogue.heldOn_bind, Dialogue.heldOn_capability, Dialogue.heldOn_bind,
    Dialogue.heldOn_capability]
  rfl

section Record

variable {r : MemberRecord} (hr : h.foreign? f = some (.record r))
include hr

theorem memberProperty?_record (name : String) :
    (memberProperty? name).heldOn f h =
      ((r.find? name).map fun m => .data m.value true true m.removable, h) := by
  unfold memberProperty?
  cases hm : r.find? name with
  | none => simp [Heap.reply_record _ hr, MemberRecord.receive, Reply.granted, hm]
  | some m =>
    simp [Heap.reply_record _ hr, Heap.told_query, MemberRecord.receive, Reply.granted,
      Reply.value?, hm]

theorem elementProperty?_record (i : Nat) : (elementProperty? i).heldOn f h = (none, h) := by
  simp [elementProperty?, Heap.reply_record _ hr, MemberRecord.receive, Reply.granted,
    Message.unanswered]

theorem hasMember_record (name : String) :
    (hasMember name).heldOn f h = ((r.find? name).isSome, h) := by
  simp [hasMember, Heap.reply_record _ hr, MemberRecord.receive, Reply.granted]

theorem hasElement_record (i : Nat) : (hasElement i).heldOn f h = (false, h) := by
  simp [hasElement, Heap.reply_record _ hr, MemberRecord.receive, Reply.granted,
    Message.unanswered]

theorem deleteHashEntry_record : (deleteHashEntry key policy).heldOn f h = (none, h) := by
  unfold deleteHashEntry
  cases policy.foreignHash <;>
    simp [Heap.reply_record _ hr, MemberRecord.receive, Reply.granted, Message.unanswered]

theorem deleteMember_record (name : String) (hname : key.name? = some name) (strict : Bool) :
    (deleteMember name key strict).heldOn f h =
      ((r.delete key strict).1, h.setForeign f (.record (r.delete key strict).2)) := by
  have hself := Heap.setForeign_self hr
  have hfind : r.member? key = r.find? name := by
    rw [MemberRecord.member?, hname, Option.bind_some]
  unfold deleteMember MemberRecord.delete
  rw [hfind]
  cases hm : r.find? name with
  | none => simp [Heap.reply_record _ hr, MemberRecord.receive, Reply.granted, hm, hself]
  | some m =>
    have hsame : m.name = name :=
      Option.some.inj ((MemberRecord.name_of_member? (hfind.trans hm)).symm.trans hname)
    cases hremovable : m.removable with
    | false =>
      simp [Heap.reply_record _ hr, Heap.told_query, MemberRecord.receive, Reply.granted, hm,
        hremovable, hself]
    | true =>
      cases hlocked : r.locked with
      | true =>
        simp [Heap.reply_record _ hr, Heap.told_query, Heap.told_record _ hr,
          MemberRecord.receive, MemberRecord.remove, Reply.granted, hm, hremovable, hlocked,
          hself, hsame]
      | false =>
        simp [Heap.reply_record _ hr, Heap.told_query, Heap.told_record _ hr,
          MemberRecord.receive, MemberRecord.remove, MemberRecord.without, Reply.granted, hm,
          hremovable, hlocked, hsame]

theorem delete_record :
    (delete key policy).heldOn f h =
      ((r.delete key policy.strict).1,
        h.setForeign f (.record (r.delete key policy.strict).2)) := by
  have hself := Heap.setForeign_self hr
  have hindexed : Reply.granted (h.reply f .hasArrayElements) = false := by
    rw [Heap.reply_record _ hr]
    rfl
  have hmembers : Reply.granted (h.reply f .hasMembers) = true := by
    rw [Heap.reply_record _ hr]
    rfl
  rw [delete_heldOn key policy (deleteHashEntry_record key policy hr), hindexed, hmembers]
  cases key with
  | symbol s =>
    show (_, h) = (_, h.setForeign f (.record r))
    rw [hself]
    rfl
  | text t => exact deleteMember_record _ hr t.toString rfl policy.strict
  | index i => exact deleteMember_record _ hr (Decimal.text i) rfl policy.strict

end Record

/-! ## Lists -/

section List

variable {l : ElementList} (hl : h.foreign? f = some (.list l))
include hl

theorem memberProperty?_list (name : String) : (memberProperty? name).heldOn f h = (none, h) := by
  simp [memberProperty?, Heap.reply_list _ hl, ElementList.reply, Reply.granted,
    Message.unanswered]

theorem elementProperty?_list (i : Nat) :
    (elementProperty? i).heldOn f h =
      ((l.elements[i]?).map fun v => .data v true true false, h) := by
  unfold elementProperty?
  by_cases hi : i < l.elements.length
  · simp [Heap.reply_list _ hl, Heap.told_query, ElementList.reply, Reply.granted, Reply.value?, hi]
  · simp [Heap.reply_list _ hl, ElementList.reply, Reply.granted, hi]

theorem hasMember_list (name : String) : (hasMember name).heldOn f h = (false, h) := by
  simp [hasMember, Heap.reply_list _ hl, ElementList.reply, Reply.granted, Message.unanswered]

theorem hasElement_list (i : Nat) :
    (hasElement i).heldOn f h = ((l.elements[i]?).isSome, h) := by
  have hiff : (l.elements[i]?).isSome = decide (i < l.elements.length) := by
    by_cases hi : i < l.elements.length <;> simp [hi]
  rw [hiff]
  simp [hasElement, Heap.reply_list _ hl, Heap.told_query, ElementList.reply, Reply.granted]
  rfl

theorem delete_list : (delete key policy).heldOn f h = (l.delete key policy.strict, h) := by
  have hhash : (deleteHashEntry key policy).heldOn f h = (none, h) := by
    unfold deleteHashEntry
    cases policy.foreignHash <;>
      simp [Heap.reply_list _ hl, ElementList.reply, Reply.granted, Message.unanswered]
  have hindexed : Reply.granted (h.reply f .hasArrayElements) = true := by
    rw [Heap.reply_list _ hl]
    rfl
  have hmembers : Reply.granted (h.reply f .hasMembers) = false := by
    rw [Heap.reply_list _ hl]
    rfl
  rw [delete_heldOn key policy hhash, hindexed, hmembers]
  cases key with
  | symbol s => rfl
  | text t => rfl
  | index i =>
    show (deleteElement i (.index i) policy.strict).heldOn f h = _
    by_cases hi : i < l.elements.length
    · simp [deleteElement, Heap.reply_list _ hl, Heap.told_query, ElementList.reply,
        ElementList.delete, ElementList.element?, Key.index?, Reply.size?, hi]
    · simp [deleteElement, Heap.reply_list _ hl, Heap.told_query, ElementList.reply,
        ElementList.delete, ElementList.element?, Key.index?, Reply.size?, hi]

end List

/-! ## Maps -/

section Map

variable {m : EntryMap} (hm : h.foreign? f = some (.map m))
include hm

theorem memberProperty?_map (name : String) : (memberProperty? name).heldOn f h = (none, h) := by
  simp [memberProperty?, Heap.reply_map _ hm, EntryMap.receive, Reply.granted,
    Message.unanswered]

theorem elementProperty?_map (i : Nat) : (elementProperty? i).heldOn f h = (none, h) := by
  simp [elementProperty?, Heap.reply_map _ hm, EntryMap.receive, Reply.granted,
    Message.unanswered]

theorem hasMember_map (name : String) : (hasMember name).heldOn f h = (false, h) := by
  simp [hasMember, Heap.reply_map _ hm, EntryMap.receive, Reply.granted, Message.unanswered]

theorem hasElement_map (i : Nat) : (hasElement i).heldOn f h = (false, h) := by
  simp [hasElement, Heap.reply_map _ hm, EntryMap.receive, Reply.granted, Message.unanswered]

theorem deleteHashEntry_map (hhash : policy.foreignHash = true) :
    (deleteHashEntry key policy).heldOn f h =
      (some (m.delete (h.text key.toValue) key policy).1,
        h.setForeign f (.map (m.delete (h.text key.toValue) key policy).2)) := by
  have hself := Heap.setForeign_self hm
  unfold deleteHashEntry EntryMap.delete
  cases hcontains : m.entries.contains (h.text key.toValue) with
  | false =>
    simp [Heap.reply_map _ hm, Heap.told_map _ hm, EntryMap.receive, EntryMap.remove,
      Reply.granted, hhash, hcontains, hself]
  | true =>
    cases hfrozen : m.frozen with
    | true =>
      simp [Heap.reply_map _ hm, Heap.told_map _ hm, EntryMap.receive, EntryMap.remove,
        Reply.granted, hhash, hcontains, hfrozen, hself]
    | false =>
      simp [Heap.reply_map _ hm, Heap.told_map _ hm, EntryMap.receive, EntryMap.remove,
        Reply.granted, hhash, hcontains, hfrozen]

theorem delete_map :
    (delete key policy).heldOn f h =
      ((m.delete (h.text key.toValue) key policy).1,
        h.setForeign f (.map (m.delete (h.text key.toValue) key policy).2)) := by
  cases hhash : policy.foreignHash with
  | true =>
    unfold delete
    rw [Dialogue.heldOn_bind, deleteHashEntry_map key policy hm hhash]
    rfl
  | false =>
    have hkept : m.delete (h.text key.toValue) key policy = (.ok true, m) := by
      rw [EntryMap.delete, hhash]
      rfl
    have hindexed : Reply.granted (h.reply f .hasArrayElements) = false := by
      rw [Heap.reply_map _ hm]
      rfl
    have hmembers : Reply.granted (h.reply f .hasMembers) = false := by
      rw [Heap.reply_map _ hm]
      rfl
    rw [hkept, Heap.setForeign_self hm, delete_heldOn key policy (deleteHashEntry_off key hhash),
      hindexed, hmembers]
    cases key <;> rfl

end Map

/-! ## All of them -/

variable {obj : ForeignObject} (hobj : h.foreign? f = some obj) (hhost : obj.IsHost)
include hobj hhost

/-- The look-up of a property of a host object leaves the heap as it is. -/
theorem ownProperty?_host : (ownProperty? key).heldOn f h = (obj.ownProperty? key, h) := by
  cases obj with
  | record r =>
    rw [ownProperty?_heldOn key (memberProperty?_record hobj) (elementProperty?_record hobj)]
    cases key <;> simp [ForeignObject.ownProperty?, MemberRecord.member?, Key.name?, Key.index?]
  | list l =>
    rw [ownProperty?_heldOn key (memberProperty?_list hobj) (elementProperty?_list hobj)]
    cases key <;> simp [ForeignObject.ownProperty?, ElementList.element?, Key.name?, Key.index?]
  | map m =>
    rw [ownProperty?_heldOn key (memberProperty?_map hobj) (elementProperty?_map hobj)]
    cases key <;> rfl
  | scripted c => exact hhost.elim

/-- A property of a host object exists where the look-up finds it. -/
theorem hasProperty_host : (hasProperty key).heldOn f h = ((obj.ownProperty? key).isSome, h) := by
  cases obj with
  | record r =>
    rw [hasProperty_heldOn key (hasMember_record hobj) (hasElement_record hobj)]
    cases key <;> simp [ForeignObject.ownProperty?, MemberRecord.member?, Key.name?, Key.index?]
  | list l =>
    rw [hasProperty_heldOn key (hasMember_list hobj) (hasElement_list hobj)]
    cases key <;> simp [ForeignObject.ownProperty?, ElementList.element?, Key.name?, Key.index?]
  | map m =>
    rw [hasProperty_heldOn key (hasMember_map hobj) (hasElement_map hobj)]
    cases key <;> rfl
  | scripted c => exact hhost.elim

theorem delete_host :
    (delete key policy).heldOn f h =
      ((obj.delete key policy).1, h.setForeign f (obj.delete key policy).2) := by
  cases obj with
  | record r => exact delete_record key policy hobj
  | list l =>
    rw [delete_list key policy hobj]
    show _ = (_, h.setForeign f (.list l))
    rw [Heap.setForeign_self hobj]
    rfl
  | map m =>
    rw [delete_map key policy hobj, h.text_of_ne_object key.toValue_ne_object]
    rfl
  | scripted c => exact hhost.elim

end Foreign
end PropertyDelete
