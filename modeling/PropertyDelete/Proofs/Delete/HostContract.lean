import PropertyDelete.Proofs.Delete.Route
import PropertyDelete.Proofs.Foreign.HostObject

/-!
The contract of a delete on a host object, by any route. What the look-up says about the property
settles the delete (`PropertyContract`): where there is none nothing happens, a fixed one and one
of a locked record are refused, and any other is gone with all members of its name. Hash entries
are no properties; where they count, the delete concerns the one under the text of the key and no
other (`EntryContract`).
-/
namespace PropertyDelete

namespace Delete

/-- What a delete on an object comes to, given what the look-up says about the property: its
answer, and the heap after it. -/
structure PropertyContract (policy : DeletePolicy) (h : Heap) (f : ForeignRef)
    (obj : ForeignObject) (key : Key) (own : Option Descriptor) (answer : Outcome)
    (after : Heap) : Prop where
  absent : own = none → answer = .ok true ∧ after = h
  fixed : ∀ d, own = some d → d.configurable = some false →
    answer = (if policy.strict then .error (.notConfigurable key.display) else .ok false) ∧
      after = h
  locked : ∀ d r, own = some d → d.configurable = some true → obj = .record r →
    r.locked = true →
      ∃ name, key.name? = some name ∧
        answer = (if policy.strict then
          .error (.foreignRefusal key.display ("record is locked: " ++ name)) else .ok false) ∧
        after = h
  /-- All members of the name are gone, and the others are there in their order. -/
  removed : ∀ d, own = some d → d.configurable = some true →
    (∀ r, obj = .record r → r.locked = false) →
      answer = .ok true ∧
        ∃ r name, obj = .record r ∧ key.name? = some name ∧
          after = h.setForeign f
            (.record { r with members := r.members.filter fun m => m.name ≠ name })
  /-- There is no other case. -/
  decided : ∀ d, own = some d → d.configurable = some false ∨ d.configurable = some true

/-- What a delete on a map comes to where hash entries count as properties: its answer, and the
heap after it. -/
structure EntryContract (policy : DeletePolicy) (h : Heap) (f : ForeignRef) (m : EntryMap)
    (key : Key) (text : String) (answer : Outcome) (after : Heap) : Prop where
  /-- The entries under other texts are as they were, and so is the rest of the heap. -/
  others : ∃ m' : EntryMap, after = h.setForeign f (.map m') ∧ m'.frozen = m.frozen ∧
    ∀ other, other ≠ text → m'.entries.get? other = m.entries.get? other
  absent : m.entries.contains text = false → answer = .ok true ∧ after = h
  frozen : m.entries.contains text = true → m.frozen = true →
    answer = (if policy.strict then .error (.foreignRefusal key.display "map is frozen")
      else .ok false) ∧ after = h
  removed : m.entries.contains text = true → m.frozen = false →
    answer = .ok true ∧
      after = h.setForeign f (.map { m with entries := m.entries.erase text })

variable {h : Heap} {f : ForeignRef}

/-- The contract for an object with whose properties a delete has nothing to do, or which has
none. -/
theorem propertyContract_kept {obj : ForeignObject} (hobj : h.foreign? f = some obj) {key : Key}
    {policy : DeletePolicy} {own : Option Descriptor} {answer : Outcome}
    (habsent : own = none → answer = .ok true)
    (hfixed : ∀ d, own = some d →
      d.configurable = some false ∧ answer = .notConfigurable key policy.strict) :
    PropertyContract policy h f obj key own answer (h.setForeign f obj) := by
  have hself := Heap.setForeign_self hobj
  have hnever : ∀ d, own = some d → d.configurable ≠ some true := by
    intro d hd htrue
    have hfalse := (hfixed d hd).1
    rw [htrue] at hfalse
    cases hfalse
  constructor
  · exact fun hnone => ⟨habsent hnone, hself⟩
  · exact fun d hd _ => ⟨(hfixed d hd).2, hself⟩
  · exact fun d r hd htrue => absurd htrue (hnever d hd)
  · exact fun d hd htrue => absurd htrue (hnever d hd)
  · exact fun d hd => Or.inl (hfixed d hd).1

theorem propertyContract_record {r : MemberRecord} (hr : h.foreign? f = some (.record r))
    (key : Key) (policy : DeletePolicy) :
    PropertyContract policy h f (.record r) key ((ForeignObject.record r).ownProperty? key)
      (r.delete key policy.strict).1
      (h.setForeign f (.record (r.delete key policy.strict).2)) := by
  have hself := Heap.setForeign_self hr
  cases hm : r.member? key with
  | none =>
    have hown : (ForeignObject.record r).ownProperty? key = none := by
      rw [ForeignObject.ownProperty?, hm]
      rfl
    have hdelete : r.delete key policy.strict = (.ok true, r) := by
      rw [MemberRecord.delete, hm]
    rw [hown, hdelete]
    exact propertyContract_kept hr (fun _ => rfl) (by rintro d ⟨⟩)
  | some m =>
    have hown : (ForeignObject.record r).ownProperty? key =
        some (.data m.value true true m.removable) := by
      rw [ForeignObject.ownProperty?, hm]
      rfl
    have hname := MemberRecord.name_of_member? hm
    cases hremovable : m.removable with
    | false =>
      have hdelete : r.delete key policy.strict = (.notConfigurable key policy.strict, r) := by
        rw [MemberRecord.delete, hm]
        simp [hremovable]
      rw [hown, hdelete]
      refine propertyContract_kept hr (by rintro ⟨⟩) fun d hd => ⟨?_, rfl⟩
      rw [← Option.some.inj hd, hremovable]
      rfl
    | true =>
      rw [hown]
      constructor
      · intro hnone
        cases hnone
      · intro d hd hfalse
        rw [← Option.some.inj hd, hremovable] at hfalse
        cases hfalse
      · intro d r' _ _ hobj hlocked
        cases hobj
        refine ⟨m.name, hname, ?_⟩
        have hdelete : r.delete key policy.strict =
            (.refused key (.failed ("record is locked: " ++ m.name)) policy.strict, r) := by
          rw [MemberRecord.delete, hm]
          simp [hremovable, hlocked]
        rw [hdelete]
        exact ⟨rfl, hself⟩
      · intro d _ _ hunlocked
        have hdelete : r.delete key policy.strict = (.ok true, r.without m.name) := by
          rw [MemberRecord.delete, hm]
          simp [hremovable, hunlocked r rfl]
        rw [hdelete]
        exact ⟨rfl, r, m.name, rfl, hname, rfl⟩
      · intro d hd
        rw [← Option.some.inj hd, hremovable]
        exact Or.inr rfl

theorem propertyContract_list {l : ElementList} (hl : h.foreign? f = some (.list l)) (key : Key)
    (policy : DeletePolicy) :
    PropertyContract policy h f (.list l) key ((ForeignObject.list l).ownProperty? key)
      (l.delete key policy.strict) (h.setForeign f (.list l)) := by
  cases he : l.element? key with
  | none =>
    have hown : (ForeignObject.list l).ownProperty? key = none := by
      rw [ForeignObject.ownProperty?, he]
      rfl
    have hdelete : l.delete key policy.strict = .ok true := by
      rw [ElementList.delete, he]
      rfl
    rw [hown, hdelete]
    exact propertyContract_kept hl (fun _ => rfl) (by rintro d ⟨⟩)
  | some v =>
    have hown : (ForeignObject.list l).ownProperty? key = some (.data v true true false) := by
      rw [ForeignObject.ownProperty?, he]
      rfl
    have hdelete : l.delete key policy.strict = .notConfigurable key policy.strict := by
      rw [ElementList.delete, he]
      rfl
    rw [hown, hdelete]
    refine propertyContract_kept hl (by rintro ⟨⟩) fun d hd => ⟨?_, rfl⟩
    rw [← Option.some.inj hd]
    rfl

theorem entryContract {m : EntryMap} (hm : h.foreign? f = some (.map m)) (text : String)
    (key : Key) {policy : DeletePolicy} (hhash : policy.foreignHash = true) :
    EntryContract policy h f m key text (m.delete text key policy).1
      (h.setForeign f (.map (m.delete text key policy).2)) := by
  have hself := Heap.setForeign_self hm
  have hdelete : m.delete text key policy =
      if !m.entries.contains text then (.ok true, m)
      else if m.frozen then (.refused key (.failed "map is frozen") policy.strict, m)
      else (.ok true, { m with entries := m.entries.erase text }) := by
    rw [EntryMap.delete, hhash]
    rfl
  cases hcontains : m.entries.contains text with
  | false =>
    have hkept : m.delete text key policy = (.ok true, m) := by
      rw [hdelete, hcontains]
      rfl
    rw [hkept]
    exact ⟨⟨m, rfl, rfl, fun _ _ => rfl⟩, fun _ => ⟨rfl, hself⟩,
      fun hin => absurd hin (by simp [hcontains]), fun hin => absurd hin (by simp [hcontains])⟩
  | true =>
    cases hfrozen : m.frozen with
    | true =>
      have hkept : m.delete text key policy =
          (.refused key (.failed "map is frozen") policy.strict, m) := by
        rw [hdelete, hcontains, hfrozen]
        rfl
      rw [hkept]
      exact ⟨⟨m, rfl, rfl, fun _ _ => rfl⟩, fun hout => absurd hout (by simp [hcontains]),
        fun _ _ => ⟨rfl, hself⟩, fun _ hopen => absurd hopen (by simp [hfrozen])⟩
    | false =>
      have herased : m.delete text key policy =
          (.ok true, { m with entries := m.entries.erase text }) := by
        rw [hdelete, hcontains, hfrozen]
        rfl
      rw [herased]
      refine ⟨⟨_, rfl, rfl, ?_⟩, fun hout => absurd hout (by simp [hcontains]),
        fun _ hclosed => absurd hclosed (by simp [hfrozen]), fun _ _ => ⟨rfl, rfl⟩⟩
      exact fun other hne => m.entries.get?_erase_of_ne hne

/-- On a host object, for the key of any value and by any route within its budget: a property
exists exactly where the look-up finds one; the delete keeps to the contract of properties, except
on a map whose entries count as properties, and there to that of entries, for the entry under the
text of the value. -/
theorem host_contract {s : Store} {f : ForeignRef} {obj : ForeignObject}
    (hobj : s.heap.foreign? f = some obj) (hhost : obj.IsHost) (key : Value) {r : Route}
    (hb : r.budget = .ok ()) :
    let k := s.heap.toKey key
    let own := (((Foreign.ownProperty? k).runWith f).run s).1
    let has := (((Foreign.hasProperty k).runWith f).run s).1
    let call := (r.run (.foreign f) key).run s
    (has = true ↔ own.isSome = true) ∧
      ((r.policy.foreignHash = false ∨ ∀ m, obj ≠ .map m) →
        PropertyContract r.policy s.heap f obj k own call.1.1 call.2.heap) ∧
      ∀ m, obj = .map m → r.policy.foreignHash = true →
        EntryContract r.policy s.heap f m k (s.heap.text key) call.1.1 call.2.heap := by
  intro k own has call
  have hown : own = obj.ownProperty? k := by
    have hrun := (Dialogue.runWith_heldOn f (Foreign.ownProperty? k) s).1
    rw [Foreign.ownProperty?_host k hobj hhost] at hrun
    exact hrun
  have hhas : has = (obj.ownProperty? k).isSome := by
    have hrun := (Dialogue.runWith_heldOn f (Foreign.hasProperty k) s).1
    rw [Foreign.hasProperty_host k hobj hhost] at hrun
    exact hrun
  obtain ⟨hanswer, hheap⟩ := Route.run_foreign hb f key s
  rw [Foreign.delete_host k r.policy hobj hhost] at hanswer hheap
  rw [hown, hhas, hanswer, hheap]
  refine ⟨Iff.rfl, ?_, ?_⟩
  · intro hproperty
    cases obj with
    | record rec => exact propertyContract_record hobj k r.policy
    | list l => exact propertyContract_list hobj k r.policy
    | map m =>
      have hoff : r.policy.foreignHash = false := hproperty.resolve_right fun hno => hno m rfl
      have hkept : (ForeignObject.map m).delete k r.policy = (.ok true, .map m) := by
        unfold ForeignObject.delete EntryMap.delete
        rw [hoff]
        rfl
      rw [hkept]
      exact propertyContract_kept hobj (fun _ => rfl) (by rintro d ⟨⟩)
    | scripted c => exact hhost.elim
  · rintro m rfl hon
    have htext : s.heap.text key = k.toValue.textPrimitive := by
      rw [← s.heap.text_toKey key, s.heap.text_of_ne_object k.toValue_ne_object]
    rw [htext]
    exact entryContract hobj _ k hon

/-- A strict delete, at a site, of a name that two members of a record have. -/
theorem host_contract_duplicate :
    let r : MemberRecord :=
      { members := [⟨"a", .null, true⟩, ⟨"b", .null, false⟩, ⟨"a", .undefined, true⟩] }
    let s : Store := { heap := { foreigns := [.record r] } }
    let route := Route.cached false (.new { strict := true } 4)
    let call := (route.run (.foreign ⟨0⟩) (Value.ofString "a")).run s
    s.heap.foreign? ⟨0⟩ = some (.record r) ∧ (ForeignObject.record r).IsHost ∧
      route.budget = .ok () ∧ call.1.1 = .ok true ∧
      call.2.heap = s.heap.setForeign ⟨0⟩ (.record { r with members := [⟨"b", .null, false⟩] }) := by
  intro r s route call
  have hobj : s.heap.foreign? ⟨0⟩ = some (.record r) := rfl
  have hb : route.budget = .ok () := rfl
  have hkey : s.heap.toKey (Value.ofString "a") = .text (Utf16.ofString "a") := by decide
  obtain ⟨-, hproperty, -⟩ := host_contract hobj trivial (Value.ofString "a") hb
  have hown : (((Foreign.ownProperty? (s.heap.toKey (Value.ofString "a"))).runWith ⟨0⟩).run s).1 =
      some (.data .null true true true) := by
    rw [(Dialogue.runWith_heldOn _ _ s).1, Foreign.ownProperty?_host _ hobj trivial, hkey]
    decide
  obtain ⟨hanswer, r', name, hr, hname, hafter⟩ :=
    (hproperty (Or.inr fun m hm => nomatch hm)).removed _ hown rfl fun r' hr => by
      cases hr
      rfl
  cases hr
  have hnamed : (Key.text (Utf16.ofString "a")).name? = some "a" := by decide
  rw [hkey, hnamed] at hname
  cases hname
  exact ⟨hobj, trivial, hb, hanswer, hafter⟩

end Delete
end PropertyDelete
