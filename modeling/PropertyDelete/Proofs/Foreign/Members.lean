import PropertyDelete.Proofs.Foreign.Coherence
import PropertyDelete.Proofs.Foreign.Commutation

/-!
What messages can make of a record. None adds a member or moves one, and none removes anything
while the record is locked; a removal that is granted looks at the first member of a name and takes
all of them. So the members of a name whose first member is fixed are safe (`Preserves`), and the
others are not. `Pruned` says this of a record, and `Heap.Prunes` of a record of a heap whose
objects are sent messages: of a message to any object, and so of a dialogue with any.
-/
namespace PropertyDelete

namespace MemberRecord

/-- The record that has been given some members, one after the other. -/
def built (added : List Member) : MemberRecord :=
  added.foldl (fun r m => r.withMember m.name m.value m.removable) {}

theorem foldl_withMember (added : List Member) (r : MemberRecord) :
    added.foldl (fun r m => r.withMember m.name m.value m.removable) r =
      { r with members := r.members ++ added } := by
  induction added generalizing r with
  | nil => rw [List.foldl_nil, List.append_nil]
  | cons m rest ih =>
    rw [List.foldl_cons, ih, withMember, List.append_assoc]
    rfl

theorem built_eq (added : List Member) : built added = { members := added } :=
  foldl_withMember added {}

/-- Whether the first member of the name of a member is fixed. -/
def isGuarded (r : MemberRecord) (m : Member) : Bool :=
  (r.find? m.name).any fun first => !first.removable

/-- A member that is not guarded can be removed, along with all others of its name. -/
theorem remove_of_not_isGuarded {r : MemberRecord} {m : Member} (hm : m ∈ r.members)
    (hopen : r.locked = false) (hloose : r.isGuarded m = false) :
    (r.remove m.name).2 = r.without m.name := by
  obtain ⟨first, hfirst⟩ : ∃ first, r.find? m.name = some first :=
    Option.isSome_iff_exists.mp (List.find?_isSome.mpr ⟨m, hm, beq_self_eq_true _⟩)
  have hfree : first.removable = true := by
    rw [isGuarded, hfirst] at hloose
    simpa using hloose
  rw [remove, hfirst]
  simp [hfree, hopen, MemberRecord.without]

/-- Whether a record has the members of another one, but for some that are not guarded. -/
structure Preserves (r r' : MemberRecord) : Prop where
  sublist : r'.members.Sublist r.members
  guarded : r'.isGuarded = r.isGuarded
  kept : r'.members.filter r.isGuarded = r.members.filter r.isGuarded

namespace Preserves

variable {r r' r'' : MemberRecord}

theorem of_members (h : r'.members = r.members) : Preserves r r' where
  sublist := h ▸ List.Sublist.refl _
  guarded := by
    funext m
    rw [isGuarded, isGuarded, find?, find?, h]
  kept := by rw [h]

theorem trans (first : Preserves r r') (second : Preserves r' r'') : Preserves r r'' where
  sublist := second.sublist.trans first.sublist
  guarded := second.guarded.trans first.guarded
  kept := by
    have hkept := second.kept
    rw [first.guarded] at hkept
    exact hkept.trans first.kept

/-- Where all fixed members are guarded, none of them is lost. -/
theorem fixed (h : Preserves r r')
    (hguarded : ∀ m ∈ r.members, m.removable = false → r.isGuarded m = true) :
    r'.members.filter (!·.removable) = r.members.filter (!·.removable) := by
  -- the fixed members are among the guarded ones
  have hamong : ∀ l : List Member, l ⊆ r.members →
      l.filter (!·.removable) = (l.filter r.isGuarded).filter (!·.removable) := by
    intro l hl
    rw [List.filter_filter]
    refine List.filter_congr fun m hm => ?_
    cases hfixed : m.removable with
    | true => rfl
    | false => rw [hguarded m (hl hm) hfixed]; rfl
  rw [hamong _ h.sublist.subset, h.kept, ← hamong _ (List.Subset.refl r.members)]

/-- The members of a name whose first member is removable are not guarded. -/
theorem without {name : String} {first : Member} (hfirst : r.find? name = some first)
    (hfree : first.removable = true) : Preserves r (r.without name) where
  sublist := List.filter_sublist
  guarded := by
    funext m
    unfold isGuarded
    by_cases hm : m.name = name
    · have hgone : (r.without name).find? name = none :=
        find?_eq_none_of_subset (List.Subset.refl _)
      rw [hm, hgone, hfirst, Option.any_some, hfree]
      rfl
    · rw [r.find?_without_of_ne hm]
  kept := by
    rw [MemberRecord.without, List.filter_filter]
    refine List.filter_congr fun m _ => ?_
    by_cases hm : m.name = name
    · have hloose : r.isGuarded m = false := by
        rw [isGuarded, hm, hfirst, Option.any_some, hfree]
        rfl
      rw [hloose, Bool.false_and]
    · rw [decide_eq_true hm, Bool.and_true]

end Preserves

/-- Whether a record can have become another one by messages to it. -/
structure Pruned (r r' : MemberRecord) : Prop where
  preserves : Preserves r r'
  locked : r'.locked = r.locked
  inert : r.locked = true → r' = r

namespace Pruned

variable {r r' r'' : MemberRecord}

theorem refl (r : MemberRecord) : Pruned r r := ⟨.of_members rfl, rfl, fun _ => rfl⟩

theorem trans (first : Pruned r r') (second : Pruned r' r'') : Pruned r r'' where
  preserves := first.preserves.trans second.preserves
  locked := second.locked.trans first.locked
  inert hlocked := (second.inert (first.locked.trans hlocked)).trans (first.inert hlocked)

theorem remove (r : MemberRecord) (name : String) : Pruned r (r.remove name).2 := by
  unfold MemberRecord.remove
  split
  · exact .refl r
  · next first hfirst =>
    split
    · exact .refl r
    · next hfree =>
      split
      · exact .refl r
      · next hopen =>
        have hfree : first.removable = true := by simpa using hfree
        exact ⟨.without hfirst hfree, rfl, fun hlocked => absurd hlocked hopen⟩

theorem receive (r : MemberRecord) {k : ReplyKind} (m : Message k) : Pruned r (r.receive m).2 := by
  cases m with
  | removeMember name => exact .remove r name
  | readMember name =>
    simp only [MemberRecord.receive]
    split <;> exact .refl r
  | _ => exact .refl r

end Pruned

end MemberRecord

open MemberRecord (Pruned)

theorem Heap.record_inj {h : Heap} {f : ForeignRef} {r r' : MemberRecord}
    (hr : h.foreign? f = some (.record r)) (hr' : h.foreign? f = some (.record r')) : r = r' :=
  ForeignObject.record.inj (Option.some.inj (hr.symm.trans hr'))

/-- Whether a record of a heap is in another heap what messages can have made of it. -/
def Heap.Prunes (f : ForeignRef) (h h' : Heap) : Prop :=
  ∀ r, h.foreign? f = some (.record r) →
    ∃ r', h'.foreign? f = some (.record r') ∧ Pruned r r'

namespace Heap.Prunes

variable {f : ForeignRef} {h h' h'' : Heap}

theorem of_eq (e : h'.foreign? f = h.foreign? f) : Prunes f h h' :=
  fun r hr => ⟨r, e.trans hr, .refl r⟩

theorem trans (first : Prunes f h h') (second : Prunes f h' h'') : Prunes f h h'' := by
  intro r hr
  obtain ⟨r', hr', hfirst⟩ := first r hr
  obtain ⟨r'', hr'', hsecond⟩ := second r' hr'
  exact ⟨r'', hr'', hfirst.trans hsecond⟩

/-- A message to any object reaches a record if it is sent or passed on to it. -/
theorem told {k : ReplyKind} (m : Message k) (g : ForeignRef) : Prunes f h (h.told g m) := by
  induction hn : g.index using Nat.strongRecOn generalizing g with
  | ind n ih =>
    intro r hr
    cases hg : h.foreign? g with
    | none =>
      rw [Heap.told, Store.deliver_absent m hg]
      exact ⟨r, hr, .refl r⟩
    | some obj =>
      cases obj with
      | record r₀ =>
        rw [told_record m hg]
        by_cases hf : f = g
        · subst hf
          obtain rfl : r₀ = r := record_inj hg hr
          exact ⟨_, foreign?_setForeign_self hg _, .receive r₀ m⟩
        · exact ⟨r, (foreign?_setForeign_of_ne h hf _).trans hr, .refl r⟩
      | list l =>
        rw [told_list m hg]
        exact ⟨r, hr, .refl r⟩
      | map e =>
        have hf : f ≠ g := by
          rintro rfl
          cases hr.symm.trans hg
        rw [told_map m hg]
        exact ⟨r, (foreign?_setForeign_of_ne h hf _).trans hr, .refl r⟩
      | scripted c =>
        cases hc : c.passesTo? g m with
        | none =>
          rw [told_answered m hg hc]
          exact ⟨r, hr, .refl r⟩
        | some b =>
          have hlt := ScriptedObject.passesTo?_lt hc
          rw [told_passed m hg hc]
          exact ih b.index (by omega) b rfl r hr

/-- So does a dialogue with any object, message by message. -/
theorem heldOn {α : Type} (g : ForeignRef) (d : Dialogue α) (h : Heap) :
    Prunes f h (d.heldOn g h).2 := by
  induction d generalizing h with
  | done a => exact .of_eq rfl
  | ask m next ih => exact (told m g).trans (ih (h.reply g m) (h.told g m))

end Heap.Prunes

end PropertyDelete
