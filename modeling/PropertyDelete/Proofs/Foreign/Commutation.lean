import PropertyDelete.Proofs.Foreign.HostObject
import PropertyDelete.Proofs.Object.Commutation

/-!
Deletes on one host object can be exchanged, whatever their keys, their strictness and their hash
options are. On each kind of object a delete is refused or else clears something: a record loses
the members of a name, a map the entry under a text, and a list nothing. What is cleared was not
refused, and then no delete of the same name is (`refusal?_clear`).
-/
namespace PropertyDelete

namespace MemberRecord

/-- The record without the members that a key names. -/
def clear (key : Key) (r : MemberRecord) : MemberRecord :=
  match key.name? with
  | some name => r.without name
  | none => r

/-- The answer to a delete that is refused: of a fixed member, or of any one while the record is
locked. -/
def refusal? (key : Key) (strict : Bool) (r : MemberRecord) : Option Outcome :=
  (r.member? key).bind fun m =>
    if !m.removable then some (.notConfigurable key strict)
    else if r.locked then some (.refused key (.failed ("record is locked: " ++ m.name)) strict)
    else none

variable {r : MemberRecord}

theorem without_of_none {name : String} (h : r.find? name = none) : r.without name = r := by
  have hkeep : r.members.filter (fun m => m.name ≠ name) = r.members := by
    refine List.filter_eq_self.mpr fun m hm => ?_
    have hne := List.find?_eq_none.mp h m hm
    simpa using hne
  rw [without, hkeep]

theorem find?_without_of_ne (r : MemberRecord) {name other : String} (h : other ≠ name) :
    (r.without name).find? other = r.find? other := by
  rw [find?, without, List.find?_filter]
  refine congrArg (List.find? · r.members) (funext fun m => ?_)
  by_cases hm : m.name = other
  · simp [hm, h]
  · simp [hm]

theorem without_comm (r : MemberRecord) (name other : String) :
    (r.without name).without other = (r.without other).without name := by
  simp only [without, List.filter_filter, Bool.and_comm]

theorem clear_comm (r : MemberRecord) (k l : Key) : (r.clear k).clear l = (r.clear l).clear k := by
  unfold clear
  cases k.name? with
  | none => rfl
  | some name =>
    cases l.name? with
    | none => rfl
    | some other => exact r.without_comm name other

theorem delete_eq_guarded (key : Key) (strict : Bool) (r : MemberRecord) :
    r.delete key strict = guarded (refusal? key strict) (clear key) r := by
  cases hm : r.member? key with
  | none =>
    have hfree : r.refusal? key strict = none := by
      rw [refusal?, hm]
      rfl
    have hkeep : r.clear key = r := by
      unfold clear
      cases hn : key.name? with
      | none => rfl
      | some name =>
        rw [member?, hn] at hm
        exact without_of_none hm
    rw [guarded_of_none _ hfree, hkeep, delete, hm]
  | some m =>
    have hname := name_of_member? hm
    have hrefusal : r.refusal? key strict =
        if !m.removable then some (.notConfigurable key strict)
        else if r.locked then some (.refused key (.failed ("record is locked: " ++ m.name)) strict)
        else none := by
      rw [refusal?, hm]
      rfl
    rw [delete, hm]
    dsimp only
    cases hremovable : m.removable with
    | false =>
      rw [hremovable] at hrefusal
      rw [guarded_of_some _ hrefusal]
      rfl
    | true =>
      cases hlocked : r.locked with
      | true =>
        rw [hremovable, hlocked] at hrefusal
        rw [guarded_of_some _ hrefusal]
        rfl
      | false =>
        rw [hremovable, hlocked] at hrefusal
        rw [guarded_of_none _ hrefusal, clear, hname]
        rfl

/-- A delete is not refused if there is no member, or one that may be removed now. -/
theorem refusal?_eq_none {key : Key} {strict : Bool} :
    r.refusal? key strict = none ↔
      ∀ m, r.member? key = some m → m.removable = true ∧ r.locked = false := by
  unfold refusal?
  cases r.member? key with
  | none => exact ⟨fun _ m hm => (nomatch hm), fun _ => rfl⟩
  | some m =>
    cases hremovable : m.removable with
    | false => simp [hremovable]
    | true =>
      cases r.locked with
      | false => simp [hremovable]
      | true => simp [hremovable]

/-- To clear members that a delete would remove changes nothing about what else is refused. -/
theorem refusal?_clear {k : Key} {strict : Bool} (h : r.refusal? k strict = none) (l : Key)
    (strict' : Bool) : (r.clear k).refusal? l strict' = r.refusal? l strict' := by
  unfold clear
  cases hk : k.name? with
  | none => rfl
  | some name =>
    show (r.without name).refusal? l strict' = _
    by_cases hl : l.name? = some name
    · -- the members of the name are not refused, and then are not there
      have hsame : r.member? l = r.member? k := by rw [member?, member?, hl, hk]
      have hgone : (r.without name).member? l = none := by
        rw [member?, hl]
        exact find?_eq_none_of_subset (List.Subset.refl _)
      have hthen : (r.without name).refusal? l strict' = none := by
        rw [refusal?, hgone]
        rfl
      rw [hthen, eq_comm, refusal?_eq_none, hsame]
      exact refusal?_eq_none.mp h
    · have hsame : (r.without name).member? l = r.member? l := by
        unfold member?
        cases hn : l.name? with
        | none => rfl
        | some other =>
          exact r.find?_without_of_ne fun e => hl (by rw [hn, e])
      rw [refusal?, hsame]
      rfl

end MemberRecord

namespace EntryMap

/-- The map without the entry under a text, where entries count as properties. -/
def clear (text : String) (policy : DeletePolicy) (m : EntryMap) : EntryMap :=
  if policy.foreignHash then { m with entries := m.entries.erase text } else m

/-- The answer to a delete that is refused: of any entry, while the map is frozen. -/
def refusal? (text : String) (key : Key) (policy : DeletePolicy) (m : EntryMap) : Option Outcome :=
  if policy.foreignHash && m.entries.contains text && m.frozen then
    some (.refused key (.failed "map is frozen") policy.strict)
  else none

theorem delete_eq_guarded (text : String) (key : Key) (policy : DeletePolicy) (m : EntryMap) :
    m.delete text key policy = guarded (refusal? text key policy) (clear text policy) m := by
  unfold delete guarded refusal? clear
  cases policy.foreignHash with
  | false => rfl
  | true =>
    cases hcontains : m.entries.contains text with
    | false =>
      have hnone : m.entries.get? text = none := Option.not_isSome_iff_eq_none.mp (by
        rw [← Dictionary.contains, hcontains]
        exact Bool.false_ne_true)
      simp [Dictionary.erase_of_none hnone]
    | true => cases m.frozen <;> rfl

theorem clear_comm (m : EntryMap) (text text' : String) (policy policy' : DeletePolicy) :
    (m.clear text policy).clear text' policy' = (m.clear text' policy').clear text policy := by
  unfold clear
  cases policy.foreignHash with
  | false => rfl
  | true =>
    cases policy'.foreignHash with
    | false => rfl
    | true =>
      exact congrArg (fun entries => { m with entries }) (m.entries.erase_comm text text')

/-- To clear an entry that a delete would remove changes nothing about what else is refused. -/
theorem refusal?_clear {m : EntryMap} {text : String} {key : Key} {policy : DeletePolicy}
    (h : m.refusal? text key policy = none) (text' : String) (key' : Key)
    (policy' : DeletePolicy) :
    (m.clear text policy).refusal? text' key' policy' = m.refusal? text' key' policy' := by
  unfold clear
  cases hhash : policy.foreignHash with
  | false => rfl
  | true =>
    show EntryMap.refusal? text' key' policy' { m with entries := m.entries.erase text } = _
    by_cases hsame : text' = text
    · -- the entry is not refused, and then is not there
      have hopen : (m.entries.contains text && m.frozen) = false := by
        rw [Bool.eq_false_iff]
        intro hfrozen
        rw [refusal?, hhash, Bool.true_and, if_pos hfrozen] at h
        cases h
      have hgone : (m.entries.erase text).contains text = false :=
        congrArg Option.isSome (m.entries.get?_erase_self text)
      simp only [refusal?, hsame, hgone, Bool.and_assoc, hopen, Bool.and_false, Bool.false_and]
    · have hcontains : (m.entries.erase text).contains text' = m.entries.contains text' :=
        congrArg Option.isSome (m.entries.get?_erase_of_ne hsame)
      rw [refusal?, hcontains]
      rfl

end EntryMap

namespace ForeignObject

/-- Deletes on a host object can be exchanged. -/
theorem delete_exchangeable {obj : ForeignObject} (hhost : obj.IsHost) (k l : Key)
    (policy policy' : DeletePolicy) :
    Exchangeable (fun obj => obj.delete k policy) (fun obj => obj.delete l policy') obj := by
  cases obj with
  | record r =>
    have h := exchangeable_guarded (s := r)
      (fun h => MemberRecord.refusal?_clear h l policy'.strict)
      (fun h => MemberRecord.refusal?_clear h k policy.strict) (r.clear_comm k l)
    refine h.lift record (fun r => ?_) (fun r => ?_)
    · rw [← MemberRecord.delete_eq_guarded]
      rfl
    · rw [← MemberRecord.delete_eq_guarded]
      rfl
  | list e => exact ⟨rfl, rfl, rfl⟩
  | map m =>
    have h := exchangeable_guarded (s := m)
      (fun h => EntryMap.refusal?_clear h l.toValue.textPrimitive l policy')
      (fun h => EntryMap.refusal?_clear h k.toValue.textPrimitive k policy)
      (m.clear_comm _ _ policy policy')
    refine h.lift map (fun m => ?_) (fun m => ?_)
    · rw [← EntryMap.delete_eq_guarded]
      rfl
    · rw [← EntryMap.delete_eq_guarded]
      rfl
  | scripted c => exact hhost.elim

theorem delete_isHost {obj : ForeignObject} (hhost : obj.IsHost) (key : Key)
    (policy : DeletePolicy) : (obj.delete key policy).2.IsHost := by
  cases obj with
  | record r => trivial
  | list l => trivial
  | map m => trivial
  | scripted c => exact hhost

end ForeignObject

end PropertyDelete
