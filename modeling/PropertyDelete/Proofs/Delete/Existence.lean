import PropertyDelete.Proofs.Delete.Route
import PropertyDelete.Proofs.Foreign.Coherence

/-!
What a successful delete leaves of a coherent foreign object. No property is left under the key
(`gone_iff`), with one exception: an index that names a member of an object that has indexed
elements as well. The delete takes such an index for that of an element, and has nothing to do
beyond the last one; the look-up asks for members first, and finds the member.
-/
namespace PropertyDelete

theorem Outcome.notConfigurable_ne_true (key : Key) (strict : Bool) :
    Outcome.notConfigurable key strict ≠ .ok true := by
  cases strict <;> exact nofun

theorem Outcome.refused_ne_true (key : Key) (r : Refusal) (strict : Bool) :
    Outcome.refused key r strict ≠ .ok true := by
  cases strict <;> exact nofun

namespace Foreign

/-- A member that is there, that may be removed and whose removal is granted. -/
theorem deleteMember_granted {h : Heap} {f : ForeignRef} {name : String}
    (hthere : h.reply f (.isMemberExisting name) = .ok true)
    (hfree : h.reply f (.isMemberRemovable name) = .ok true)
    (hremove : h.reply f (.removeMember name) = .ok ()) (key : Key) (strict : Bool) :
    (deleteMember name key strict).heldOn f h = (.ok true, h.told f (.removeMember name)) := by
  simp [deleteMember, hthere, hfree, hremove, Heap.told_query, Reply.granted]

theorem deleteElement_heldOn {h : Heap} {f : ForeignRef} {size : Nat}
    (hsize : h.reply f .arraySize = .ok size) (i : Nat) (key : Key) (strict : Bool) :
    (deleteElement i key strict).heldOn f h =
      (if i < size then .notConfigurable key strict else .ok true, h) := by
  simp [deleteElement, hsize, Reply.size?, Heap.told_query]

end Foreign

namespace Coherent

variable {h h' : Heap} {f : ForeignRef} {members elements : Bool}
variable (hf : Coherent h f members elements)
include hf

/-- A coherent object stays coherent. -/
theorem later (later : h.Later f h') : Coherent h' f members elements where
  hasMembers after := hf.hasMembers (later.trans after)
  hasArrayElements after := hf.hasArrayElements (later.trans after)
  existing hon _ after := hf.existing hon (later.trans after)
  removable hon _ after := hf.removable hon (later.trans after)
  removed hon _ after := hf.removed hon (later.trans after)
  row hon _ after := hf.row hon (later.trans after)

theorem hasMember_heldOn (name : String) :
    (Foreign.hasMember name).heldOn f h =
      (members && Reply.granted (h.reply f (.isMemberExisting name)), h) := by
  unfold Foreign.hasMember
  rw [Dialogue.heldOn_bind, Dialogue.heldOn_capability, hf.hasMembers .here]
  cases members with
  | false => rfl
  | true => exact Dialogue.heldOn_capability f h _

theorem hasElement_heldOn (i : Nat) :
    (Foreign.hasElement i).heldOn f h =
      (elements && Reply.granted (h.reply f (.isArrayElementExisting i)), h) := by
  unfold Foreign.hasElement
  rw [Dialogue.heldOn_bind, Dialogue.heldOn_capability, hf.hasArrayElements .here]
  cases elements with
  | false => rfl
  | true =>
    obtain ⟨size, -, hrow⟩ := hf.row rfl .here
    simp [Reply.granted, Heap.told_query, hrow]
    rfl

/-- A key names an existing property of a coherent object if it names a member, or an element. -/
theorem hasProperty_heldOn (key : Key) :
    (Foreign.hasProperty key).heldOn f h =
      (key.name?.any (fun name =>
          members && Reply.granted (h.reply f (.isMemberExisting name))) ||
        key.index?.any (fun i =>
          elements && Reply.granted (h.reply f (.isArrayElementExisting i))), h) :=
  Foreign.hasProperty_heldOn key hf.hasMember_heldOn hf.hasElement_heldOn

/-- A coherent object is asked once, for good, whether it has elements and whether it has
members. -/
theorem delete_heldOn (key : Key) {policy : DeletePolicy} (hoff : policy.foreignHash = false) :
    (Foreign.delete key policy).heldOn f h =
      (Foreign.deleteKnowing key policy elements members).heldOn f h := by
  rw [Foreign.delete_heldOn key policy (Foreign.deleteHashEntry_off key hoff),
    hf.hasArrayElements .here, hf.hasMembers .here]
  rfl

/-- After a successful delete of a member the object says that it is not there. -/
theorem deleteMember_true (hmembers : members = true) {name : String} {key : Key} {strict : Bool}
    {after : Heap} (htrue : (Foreign.deleteMember name key strict).heldOn f h = (.ok true, after)) :
    h.Later f after ∧ after.reply f (.isMemberExisting name) = .ok false := by
  obtain ⟨there, hthere⟩ := hf.existing hmembers .here name
  obtain ⟨free, hfree⟩ := hf.removable hmembers .here name
  cases there with
  | false =>
    have habsent : (Foreign.deleteMember name key strict).heldOn f h = (.ok true, h) := by
      simp [Foreign.deleteMember, hthere, Reply.granted]
    obtain rfl : h = after := congrArg Prod.snd (habsent.symm.trans htrue)
    exact ⟨.here, hthere⟩
  | true =>
    cases free with
    | false =>
      have hfixed : (Foreign.deleteMember name key strict).heldOn f h =
          (.notConfigurable key strict, h) := by
        simp [Foreign.deleteMember, hthere, hfree, Heap.told_query, Reply.granted]
      exact absurd (congrArg Prod.fst (hfixed.symm.trans htrue))
        (Outcome.notConfigurable_ne_true key strict)
    | true =>
      cases hremove : h.reply f (.removeMember name) with
      | error e =>
        have hrefused : ((Foreign.deleteMember name key strict).heldOn f h).1 =
            .refused key e strict := by
          simp [Foreign.deleteMember, hthere, hfree, hremove, Heap.told_query, Reply.granted]
        rw [htrue] at hrefused
        exact absurd hrefused.symm (Outcome.refused_ne_true key e strict)
      | ok u =>
        rw [Foreign.deleteMember_granted hthere hfree hremove] at htrue
        obtain rfl : h.told f (.removeMember name) = after := congrArg Prod.snd htrue
        exact ⟨Heap.Later.here.told _, hf.removed hmembers .here name hremove .here⟩

/-- After a successful delete of an element the object says that it is not there: it was beyond
the last one. -/
theorem deleteElement_true (helements : elements = true) {i : Nat} {key : Key} {strict : Bool}
    {after : Heap} (htrue : (Foreign.deleteElement i key strict).heldOn f h = (.ok true, after)) :
    after = h ∧ h.reply f (.isArrayElementExisting i) = .ok false := by
  obtain ⟨size, hsize, hrow⟩ := hf.row helements .here
  rw [Foreign.deleteElement_heldOn hsize] at htrue
  by_cases hi : i < size
  · rw [if_pos hi] at htrue
    exact absurd (congrArg Prod.fst htrue) (Outcome.notConfigurable_ne_true key strict)
  · rw [hrow, decide_eq_false hi]
    exact ⟨(congrArg Prod.snd htrue).symm, rfl⟩

/-- When a successful delete, without the hash option, leaves no property: exactly where the key
is not an index that names a member beside indexed elements. -/
theorem delete_gone_iff {key : Key} {policy : DeletePolicy} (hoff : policy.foreignHash = false)
    {after : Heap} (htrue : (Foreign.delete key policy).heldOn f h = (.ok true, after)) :
    ((Foreign.hasProperty key).heldOn f after).1 = false ↔
      ¬ (members = true ∧ elements = true ∧
        ∃ i, key = .index i ∧ h.reply f (.isMemberExisting (Decimal.text i)) = .ok true) := by
  rw [hf.delete_heldOn key hoff] at htrue
  cases key with
  | symbol s =>
    rw [Foreign.deleteKnowing_symbol] at htrue
    cases htrue
    simp [hf.hasProperty_heldOn, Key.name?, Key.index?]
  | text t =>
    rw [Foreign.deleteKnowing_text] at htrue
    cases members with
    | false =>
      cases htrue
      simp [hf.hasProperty_heldOn, Key.index?]
    | true =>
      obtain ⟨later, hgone⟩ := hf.deleteMember_true rfl htrue
      simp [(hf.later later).hasProperty_heldOn, Key.name?, Key.index?, hgone, Reply.granted]
  | index i =>
    rw [Foreign.deleteKnowing_index] at htrue
    cases elements with
    | true =>
      -- the delete is one of an element, whether or not there is a member of that name
      obtain ⟨rfl, hbeyond⟩ := hf.deleteElement_true rfl htrue
      simp [hf.hasProperty_heldOn, Key.name?, Key.index?, hbeyond, Reply.granted,
        ← Reply.granted_iff]
    | false =>
      cases members with
      | false =>
        cases htrue
        simp [hf.hasProperty_heldOn, Key.index?]
      | true =>
        obtain ⟨later, hgone⟩ := hf.deleteMember_true rfl htrue
        simp [(hf.later later).hasProperty_heldOn, Key.name?, Key.index?, hgone, Reply.granted]

end Coherent

namespace Delete

theorem hasOwn_foreign (f : ForeignRef) (key : Key) (s : Store) :
    ((Store.hasOwn (.foreign f) key).run s).1 =
      ((Foreign.hasProperty key).heldOn f s.heap).1 :=
  (Dialogue.runWith_heldOn f (Foreign.hasProperty key) s).1

/-- When a successful delete of a coherent object, without the hash option, leaves no property:
exactly where the key is not an index that names a member beside indexed elements. The key is any
value that is no object, and the route any one at all. -/
theorem gone_iff {s : Store} {f : ForeignRef} {members elements : Bool}
    (hf : Coherent s.heap f members elements) {key : Value} (hkey : ∀ o, key ≠ .object o)
    {r : Route} (hoff : r.policy.foreignHash = false)
    (htrue : ((r.run (.foreign f) key).run s).1.1 = .ok true) :
    let call := (r.run (.foreign f) key).run s
    ((Store.hasOwn (.foreign f) (call.2.heap.toKey key)).run call.2).1 = false ↔
      ¬ (members = true ∧ elements = true ∧
        ∃ i, s.heap.toKey key = .index i ∧
          s.heap.reply f (.isMemberExisting (Decimal.text i)) = .ok true) := by
  intro call
  obtain ⟨hanswer, hheap⟩ := Route.run_foreign (Route.budget_of_true htrue) f key s
  have hheld : (Foreign.delete (s.heap.toKey key) r.policy).heldOn f s.heap =
      (.ok true, call.2.heap) := Prod.ext (hanswer.symm.trans htrue) hheap.symm
  have hsamekey : call.2.heap.toKey key = s.heap.toKey key := by
    rw [Heap.toKey_of_ne_object _ hkey, Heap.toKey_of_ne_object _ hkey]
  rw [hsamekey, hasOwn_foreign]
  exact hf.delete_gone_iff hoff hheld

/-- A member of an object that has indexed elements as well, deleted by its name. -/
theorem gone_named_member :
    let s : Store := { heap := { foreigns :=
      [.record { members := [⟨"a", .null, true⟩] }, .scripted (.row 1 ⟨0⟩)] } }
    let key := Value.ofString "a"
    let call := ((Route.cached false (.new { strict := true } 4)).run (.foreign ⟨1⟩) key).run s
    Coherent s.heap ⟨1⟩ true true ∧ call.1.1 = .ok true ∧
      ((Store.hasOwn (.foreign ⟨1⟩) (call.2.heap.toKey key)).run call.2).1 = false := by
  intro s key call
  have hrow : s.heap.foreign? ⟨1⟩ = some (.scripted (.row 1 ⟨0⟩)) := rfl
  have hf : Coherent s.heap ⟨1⟩ true true := .row_over hrow Nat.zero_lt_one (.record rfl)
  have hkey : s.heap.toKey key = .text (Utf16.ofString "a") := by decide
  have hmember {k : ReplyKind} (m : Message k) (hm : ScriptedObject.rowReply? 1 m = none) :
      s.heap.reply ⟨1⟩ m = (({ members := [⟨"a", .null, true⟩] } : MemberRecord).receive m).1 := by
    rw [Heap.reply_row hrow Nat.zero_lt_one m hm, Heap.reply_record m rfl]
  have hthere : s.heap.reply ⟨1⟩ (.isMemberExisting "a") = .ok true := hmember _ rfl
  have hfree : s.heap.reply ⟨1⟩ (.isMemberRemovable "a") = .ok true := hmember _ rfl
  have hremove : s.heap.reply ⟨1⟩ (.removeMember "a") = .ok () := hmember _ rfl
  have htrue : call.1.1 = .ok true := by
    have hname : (Utf16.ofString "a").toString = "a" := by decide
    rw [(Route.run_foreign (r := .cached false (.new { strict := true } 4)) rfl ⟨1⟩ key s).1, hkey,
      hf.delete_heldOn _ rfl, Foreign.deleteKnowing_text, if_pos rfl, hname,
      Foreign.deleteMember_granted hthere hfree hremove]
  have hobject : ∀ o, Value.ofString "a" ≠ .object o := fun o => nofun
  have hnot : ¬ (true = true ∧ true = true ∧ ∃ i, s.heap.toKey key = .index i ∧
      s.heap.reply ⟨1⟩ (.isMemberExisting (Decimal.text i)) = .ok true) := by
    rintro ⟨-, -, i, hi, -⟩
    rw [hkey] at hi
    cases hi
  exact ⟨hf, htrue, (gone_iff hf hobject rfl htrue).mpr hnot⟩

/-- An index beyond the elements of an object that has both members and elements: a delete
answers true, and does nothing. -/
theorem delete_index_beyond {h : Heap} {f : ForeignRef} {members : Bool}
    (hf : Coherent h f members true) {policy : DeletePolicy} (hoff : policy.foreignHash = false)
    {i size : Nat} (hsize : h.reply f .arraySize = .ok size) (hi : size ≤ i) :
    (Foreign.delete (.index i) policy).heldOn f h = (.ok true, h) := by
  rw [hf.delete_heldOn _ hoff, Foreign.deleteKnowing_index, if_pos rfl,
    Foreign.deleteElement_heldOn hsize, if_neg (by omega)]

/-- A member whose name is an index, of an object with an empty row of elements: the delete by the
index answers true, and the property is there. -/
theorem delete_leaves_shadowed_member :
    let s : Store := { heap := { foreigns :=
      [.record { members := [⟨"0", .null, true⟩] }, .scripted (.row 0 ⟨0⟩)] } }
    let key := Value.ofString "0"
    let call := ((Route.direct false).run (.foreign ⟨1⟩) key).run s
    Coherent s.heap ⟨1⟩ true true ∧ call.1.1 = .ok true ∧
      ((Store.hasOwn (.foreign ⟨1⟩) (call.2.heap.toKey key)).run call.2).1 = true := by
  intro s key call
  have hrow : s.heap.foreign? ⟨1⟩ = some (.scripted (.row 0 ⟨0⟩)) := rfl
  have hf : Coherent s.heap ⟨1⟩ true true := .row_over hrow Nat.zero_lt_one (.record rfl)
  have hkey : s.heap.toKey key = .index 0 := by decide
  have hsize : s.heap.reply ⟨1⟩ .arraySize = .ok (0 : Nat) :=
    Heap.reply_answered .arraySize hrow rfl
  have hthere : s.heap.reply ⟨1⟩ (.isMemberExisting "0") = .ok true := by
    rw [Heap.reply_row hrow Nat.zero_lt_one _ rfl]
    exact Heap.reply_record (r := { members := [⟨"0", .null, true⟩] }) _ rfl
  obtain ⟨hanswer, hheap⟩ := Route.run_foreign (r := .direct false) rfl ⟨1⟩ key s
  rw [hkey, delete_index_beyond hf rfl hsize (Nat.le_refl 0)] at hanswer hheap
  refine ⟨hf, hanswer, ?_⟩
  have hheap : call.2.heap = s.heap := hheap
  rw [hheap, hkey, hasOwn_foreign, hheap, hf.hasProperty_heldOn]
  show (Reply.granted (s.heap.reply ⟨1⟩ (.isMemberExisting "0")) || _) = true
  rw [hthere]
  rfl

end Delete
end PropertyDelete
