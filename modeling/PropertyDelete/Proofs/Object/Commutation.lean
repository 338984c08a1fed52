import PropertyDelete.Proofs.Delete.Exchange
import PropertyDelete.Proofs.Object.WellFormed

/-!
Deletes on one native object can be exchanged. A delete on a well-formed object is refused or else
clears something (`delete_eq_guarded`): what is fixed is refused, and anything else is cleared,
whether or not it is there. To clear a property that is not fixed changes nothing about what else
is fixed (`fixed_clear_iff`), and what is cleared first makes no difference (`clear_comm`).
-/
namespace PropertyDelete

/-! ## Erasing names -/

namespace Dictionary

variable {α : Type}

theorem erase_of_none {d : Dictionary α} {name : String} (h : d.get? name = none) :
    d.erase name = d := by
  have hkeep : d.entries.filter (fun e => e.1 ≠ name) = d.entries := by
    refine List.filter_eq_self.mpr fun e he => decide_eq_true fun hname => ?_
    exact absurd hname (Ne.symm (bne_iff_ne.mp (List.lookup_eq_none_iff.mp h e he)))
  rw [erase, hkeep]

theorem erase_comm (d : Dictionary α) (name other : String) :
    (d.erase name).erase other = (d.erase other).erase name := by
  simp only [erase, List.filter_filter, Bool.and_comm]

end Dictionary

namespace PropertyTable

theorem find?_erase_of_ne (t : PropertyTable) {key other : String} (h : other ≠ key) :
    (t.erase key).find? other = t.find? other :=
  t.slots.get?_erase_of_ne h

theorem erase_of_none {t : PropertyTable} {key : String} (h : t.find? key = none) :
    t.erase key = t := by
  have hnone : t.slots.get? key = none := h
  have hcontains : t.slots.contains key = false := by
    rw [Dictionary.contains, hnone]
    rfl
  rw [erase, hcontains, Dictionary.erase_of_none h]
  rfl

theorem erase_comm (t : PropertyTable) (key other : String) :
    (t.erase key).erase other = (t.erase other).erase key := by
  by_cases h : other = key
  · rw [h]
  · have hother : (t.slots.erase key).contains other = t.slots.contains other :=
      congrArg Option.isSome (t.slots.get?_erase_of_ne h)
    have hkey : (t.slots.erase other).contains key = t.slots.contains key :=
      congrArg Option.isSome (t.slots.get?_erase_of_ne (Ne.symm h))
    unfold erase
    rw [hother, hkey, t.slots.erase_comm key other]
    cases t.slots.contains key <;> cases t.slots.contains other <;>
      simp [List.filter_filter, Bool.and_comm]

end PropertyTable

/-! ## Native objects -/

namespace NativeObject

variable {o : NativeObject} {k l : Key}

instance (o : NativeObject) (k : Key) : Decidable (o.Fixed k) :=
  decidable_of_iff
    ((o.table.find? k.storageText).any (fun d => d.configurable == some false) = true ∨
      o.isArrayLike = true ∧ k.isNamed "length" = true)
    (by simp [Fixed, Option.any_eq_true])

/-- The object without the property under a key, fixed or not. -/
def clear (k : Key) (o : NativeObject) : NativeObject :=
  match k with
  | .index i => if o.isArrayLike then o.punchHole i else o.erase k.storageText
  | _ => o.erase k.storageText

/-- The answer to a delete that is refused. -/
def refusal? (k : Key) (strict : Bool) (o : NativeObject) : Option Outcome :=
  if o.Fixed k then some (.notConfigurable k strict) else none

theorem clear_index (ha : o.isArrayLike = true) (i : Nat) : o.clear (.index i) = o.punchHole i :=
  if_pos ha

theorem clear_ordinary (h : o.isArrayLike = false ∨ k.index? = none) :
    o.clear k = o.erase k.storageText := by
  cases k with
  | index i =>
    have ha : o.isArrayLike = false := h.resolve_right nofun
    rw [clear, ha]
    rfl
  | text t => rfl
  | symbol s => rfl

theorem isArrayLike_punchHole (o : NativeObject) (i : Nat) :
    (o.punchHole i).isArrayLike = o.isArrayLike := Option.isSome_map

theorem isArrayLike_clear (o : NativeObject) (k : Key) :
    (o.clear k).isArrayLike = o.isArrayLike := by
  rcases o.index_or_ordinary k with ⟨i, ha, rfl⟩ | h
  · rw [clear_index ha, isArrayLike_punchHole]
  · rw [clear_ordinary h]
    rfl

theorem WellFormed.clear (hwf : o.WellFormed) (k : Key) : (o.clear k).WellFormed := by
  rcases o.index_or_ordinary k with ⟨i, ha, rfl⟩ | h
  · rw [clear_index ha]
    intro slots hs
    obtain ⟨old, hold, rfl⟩ := Option.map_eq_some_iff.mp hs
    rw [List.length_set]
    exact hwf old hold
  · rw [clear_ordinary h]
    intro slots hs
    obtain ⟨hbound, hlength, hindex⟩ := hwf slots hs
    have hnone {name : String} (hname : o.table.find? name = none) :
        (o.table.erase k.storageText).find? name = none := by
      by_cases hsame : name = k.storageText
      · rw [hsame]
        exact o.table.find?_erase_self _
      · rw [o.table.find?_erase_of_ne hsame]
        exact hname
    exact ⟨hbound, hnone hlength, fun i hi => hnone (hindex i hi)⟩

/-- To clear a property that is not fixed changes nothing about what else is fixed. -/
theorem fixed_clear_iff (hfree : ¬ o.Fixed k) (l : Key) : (o.clear k).Fixed l ↔ o.Fixed l := by
  unfold Fixed
  rw [isArrayLike_clear]
  rcases o.index_or_ordinary k with ⟨i, ha, rfl⟩ | h
  · rw [clear_index ha]
    exact Iff.rfl
  · rw [clear_ordinary h]
    show (∃ d, (o.table.erase k.storageText).find? l.storageText = some d ∧ _) ∨ _ ↔ _
    by_cases hsame : l.storageText = k.storageText
    · -- the table has nothing fixed under that name
      rw [hsame, o.table.find?_erase_self]
      constructor
      · rintro (⟨d, hd, -⟩ | hlength)
        · cases hd
        · exact Or.inr hlength
      · rintro (hd | hlength)
        · exact absurd (Or.inl hd) hfree
        · exact Or.inr hlength
    · rw [o.table.find?_erase_of_ne hsame]

theorem punchHole_comm (o : NativeObject) (i j : Nat) :
    (o.punchHole i).punchHole j = (o.punchHole j).punchHole i := by
  unfold punchHole
  cases o.elements with
  | none => rfl
  | some slots =>
    by_cases hij : i = j
    · rw [hij]
    · simp only [Option.map_some, List.set_comm none none hij]

theorem clear_comm (o : NativeObject) (k l : Key) : (o.clear k).clear l = (o.clear l).clear k := by
  rcases o.index_or_ordinary k with ⟨i, ha, rfl⟩ | hk
  · have hi := (isArrayLike_clear o l).trans ha
    rw [clear_index ha, clear_index hi]
    have hp := (isArrayLike_punchHole o i).trans ha
    rcases o.index_or_ordinary l with ⟨j, -, rfl⟩ | hl
    · rw [clear_index hp, clear_index ha, punchHole_comm]
    · rw [clear_ordinary hl, clear_ordinary (hl.imp_left (isArrayLike_punchHole o i).trans)]
      rfl
  · rw [clear_ordinary hk, clear_ordinary (hk.imp_left (isArrayLike_clear o l).trans)]
    rcases o.index_or_ordinary l with ⟨j, ha, rfl⟩ | hl
    · rw [clear_index ha, clear_index (o := o.erase k.storageText) ha]
      rfl
    · rw [clear_ordinary hl, clear_ordinary (o := o.erase k.storageText) hl]
      exact congrArg (fun table => { o with table }) (o.table.erase_comm _ _)

/-- What is fixed is refused, and anything else is cleared. -/
theorem delete_eq_guarded (hwf : o.WellFormed) (hk : k.Normal) (strict : Bool) :
    o.delete k strict = guarded (refusal? k strict) (clear k) o := by
  by_cases hfixed : o.Fixed k
  · have hrefused : refusal? k strict o = some (.notConfigurable k strict) := if_pos hfixed
    rw [delete_fixed hwf hk hfixed, guarded_of_some _ hrefused]
  · have hfree : refusal? k strict o = none := if_neg hfixed
    rw [guarded_of_none _ hfree]
    rcases o.index_or_ordinary k with ⟨i, ha, rfl⟩ | hord
    · rw [delete_index ha, clear_index ha]
    · rw [delete_ordinary hord, clear_ordinary hord]
      have hown := ownProperty?_ordinary hwf.bounded hk hord
      cases hd : o.table.find? k.storageText with
      | some d =>
        rw [hd, Option.some_or] at hown
        have hc : d.isConfigurable = true :=
          isConfigurable_iff.mpr fun hc => hfixed (Or.inl ⟨d, hd, hc⟩)
        rw [deleteOrdinary_of_some hown, if_pos hc]
      | none =>
        have hlength : ¬ (o.isArrayLike && k.isNamed "length") = true := fun h =>
          hfixed (Or.inr (Bool.and_eq_true_iff.mp h))
        rw [hd, Option.none_or, if_neg hlength] at hown
        rw [deleteOrdinary_of_none hown, erase, PropertyTable.erase_of_none hd]

theorem WellFormed.delete (hwf : o.WellFormed) (hk : k.Normal) (strict : Bool) :
    (o.delete k strict).2.WellFormed := by
  rw [delete_eq_guarded hwf hk]
  exact guarded_keeps hwf (hwf.clear k)

/-- Deletes on a well-formed object can be exchanged. -/
theorem delete_exchangeable (hwf : o.WellFormed) (hk : k.Normal) (hl : l.Normal)
    (strict strict' : Bool) :
    Exchangeable (fun o => o.delete k strict) (fun o => o.delete l strict') o := by
  have hsame {k l : Key} {strict : Bool} (h : refusal? k strict o = none) (strict' : Bool) :
      refusal? l strict' (o.clear k) = refusal? l strict' o := by
    have hfree : ¬ o.Fixed k := fun hfixed => by
      rw [refusal?, if_pos hfixed] at h
      cases h
    simp only [refusal?, fixed_clear_iff hfree]
  have hguarded := exchangeable_guarded (fun h => hsame h strict') (fun h => hsame h strict)
    (o.clear_comm k l)
  exact hguarded.congr (delete_eq_guarded hwf hk strict) (delete_eq_guarded hwf hl strict')
    (delete_eq_guarded (guarded_keeps hwf (hwf.clear l)) hk strict)
    (delete_eq_guarded (guarded_keeps hwf (hwf.clear k)) hl strict')

end NativeObject

end PropertyDelete
