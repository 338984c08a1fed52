import PropertyDelete.Proofs.Object.Commutation
import Mathlib.Data.List.Nodup

/-!
The order in which properties are listed, beside the map that holds them. The two are `Aligned`
when the names of the map are those of the order, and every operation on a table keeps them so.

A history of a table is a function from times to tables, with one operation from each time to the
next. `Arrived` says when a name came in that has been there ever since. If the table starts empty,
then at every time the order lists each name once and by the time of its arrival (`listed_history`):
an operation can take names out, and it can put one in, at the end and later than all others.
-/
namespace PropertyDelete

namespace Dictionary

variable {α : Type} {d : Dictionary α} {name : String} {a : α}

theorem contains_iff : d.contains name = true ↔ name ∈ d.names := by
  rw [← not_iff_not, contains, get?, Option.not_isSome_iff_eq_none, List.lookup_eq_none_iff,
    names, List.mem_map]
  constructor
  · rintro h ⟨e, he, rfl⟩
    exact bne_iff_ne.mp (h e he) rfl
  · intro h e he
    exact bne_iff_ne.mpr fun hname => h ⟨e, he, hname.symm⟩

theorem map_fst_put (l : List (String × α)) :
    (put name a l).map Prod.fst =
      if name ∈ l.map Prod.fst then l.map Prod.fst else l.map Prod.fst ++ [name] := by
  induction l with
  | nil => rfl
  | cons e rest ih =>
    by_cases hname : e.1 = name
    · simp [put, hname]
    · simp only [put, hname, if_false, List.map_cons, ih, List.mem_cons, Ne.symm hname, false_or]
      split <;> rfl

/-- A name that is there keeps its place, and a new one goes to the end. -/
theorem names_insert :
    (d.insert name a).names = if d.contains name then d.names else d.names ++ [name] := by
  simp only [contains_iff]
  exact map_fst_put d.entries

theorem names_erase : (d.erase name).names = d.names.filter (· ≠ name) := by
  simp only [names, erase, List.filter_map]
  rfl

end Dictionary

namespace PropertyTable

variable {t u : PropertyTable} {name other : String} {d : Descriptor}

theorem find?_insert_self : (t.insert name d).find? name = some d := t.slots.get?_insert_self name d

theorem find?_insert_of_ne (h : other ≠ name) : (t.insert name d).find? other = t.find? other :=
  t.slots.get?_insert_of_ne h d

theorem order_insert_of_some (h : (t.find? name).isSome = true) :
    (t.insert name d).order = t.order := if_pos h

theorem order_insert_of_none (h : t.find? name = none) :
    (t.insert name d).order = t.order ++ [name] :=
  if_neg (by simp [Dictionary.contains, show t.slots.get? name = none from h])

/-- Whether the order lists the names of the map. -/
def Aligned (t : PropertyTable) : Prop := t.order = t.slots.names

namespace Aligned

theorem mem_order (h : t.Aligned) : name ∈ t.order ↔ (t.find? name).isSome = true := by
  rw [h, ← Dictionary.contains_iff]
  rfl

theorem length_order (h : t.Aligned) : t.order.length = t.slots.size := by
  rw [h, Dictionary.names, List.length_map]
  rfl

theorem order_erase (h : t.Aligned) : (t.erase name).order = t.order.filter (· ≠ name) := by
  show (if _ then _ else _) = _
  split
  · rfl
  · rename_i hc
    have habsent : name ∉ t.order := fun hm => hc (h.mem_order.mp hm)
    refine (List.filter_eq_self.mpr fun other hother => decide_eq_true ?_).symm
    rintro rfl
    exact habsent hother

theorem insert (h : t.Aligned) (name : String) (d : Descriptor) : (t.insert name d).Aligned := by
  show (if _ then _ else _) = (t.slots.insert name d).names
  rw [Dictionary.names_insert, h]

theorem erase (h : t.Aligned) (name : String) : (t.erase name).Aligned := by
  show (t.erase name).order = (t.slots.erase name).names
  rw [h.order_erase, Dictionary.names_erase, h]

/-- What is removed and inserted again goes to the end. -/
theorem order_erase_insert (h : t.Aligned) (name : String) (d : Descriptor) :
    ((t.erase name).insert name d).order = t.order.filter (· ≠ name) ++ [name] := by
  rw [order_insert_of_none (t.find?_erase_self name), h.order_erase]

end Aligned

/-! ## Histories -/

/-- One operation on a table, or none. -/
inductive Step (t : PropertyTable) : PropertyTable → Prop
  | none : Step t t
  | insert (name : String) (d : Descriptor) : Step t (t.insert name d)
  | erase (name : String) : Step t (t.erase name)

variable {table : Nat → PropertyTable} {n i j : Nat}

/-- Whether a name that is in the table at time `n` came in last with the operation at time `i`. -/
structure Arrived (table : Nat → PropertyTable) (n : Nat) (name : String) (i : Nat) : Prop where
  before : i < n
  absent : (table i).find? name = none
  since : ∀ j, i < j → j ≤ n → ((table j).find? name).isSome = true

namespace Arrived

theorem le (hi : Arrived table n name i) (hj : Arrived table n name j) : j ≤ i := by
  by_contra hlt
  have hpresent := hi.since j (Nat.lt_of_not_le hlt) (Nat.le_of_lt hj.before)
  simp [hj.absent] at hpresent

theorem functional (hi : Arrived table n name i) (hj : Arrived table n name j) : i = j :=
  Nat.le_antisymm (hj.le hi) (hi.le hj)

theorem succ (hi : Arrived table n name i)
    (hpresent : ((table (n + 1)).find? name).isSome = true) : Arrived table (n + 1) name i where
  before := Nat.lt_succ_of_lt hi.before
  absent := hi.absent
  since j hij hj := by
    rcases Nat.le_succ_iff.mp hj with hj | rfl
    · exact hi.since j hij hj
    · exact hpresent

theorem now (habsent : (table n).find? name = none)
    (hpresent : ((table (n + 1)).find? name).isSome = true) : Arrived table (n + 1) name n where
  before := Nat.lt_succ_self n
  absent := habsent
  since j hnj hj := by
    obtain rfl : j = n + 1 := by omega
    exact hpresent

end Arrived

/-- Whether one name came in before another one. -/
def Earlier (table : Nat → PropertyTable) (n : Nat) (a b : String) : Prop :=
  ∃ i j, i < j ∧ Arrived table n a i ∧ Arrived table n b j

/-- Whether the order of the table at time `n` lists its names, each once and by arrival. -/
structure Listed (table : Nat → PropertyTable) (n : Nat) : Prop where
  aligned : (table n).Aligned
  nodup : (table n).order.Nodup
  arrived : ∀ name ∈ (table n).order, ∃ i, Arrived table n name i
  sorted : (table n).order.Pairwise (Earlier table n)

namespace Listed

theorem empty (h : table 0 = {}) : Listed table 0 := by
  constructor <;> rw [h]
  · rfl
  · exact List.nodup_nil
  · simp
  · exact .nil

/-- The names of the order that are still there are listed by arrival as before. -/
theorem sorted_succ (h : Listed table n) {names : List String} (hsub : names.Sublist (table n).order)
    (hpresent : ∀ name ∈ names, ((table (n + 1)).find? name).isSome = true) :
    names.Pairwise (Earlier table (n + 1)) := by
  refine (h.sorted.sublist hsub).imp_of_mem ?_
  rintro a b ha hb ⟨i, j, hij, hi, hj⟩
  exact ⟨i, j, hij, hi.succ (hpresent a ha), hj.succ (hpresent b hb)⟩

theorem arrived_succ (h : Listed table n) (hname : name ∈ (table n).order)
    (hpresent : ((table (n + 1)).find? name).isSome = true) :
    ∃ i, Arrived table (n + 1) name i := by
  obtain ⟨i, hi⟩ := h.arrived name hname
  exact ⟨i, hi.succ hpresent⟩

/-- A step that lists no new name keeps the rest as it is listed. -/
theorem of_sublist (h : Listed table n) (hnext : (table (n + 1)).Aligned)
    (hsub : (table (n + 1)).order.Sublist (table n).order) : Listed table (n + 1) where
  aligned := hnext
  nodup := h.nodup.sublist hsub
  arrived _ hname := h.arrived_succ (hsub.subset hname) (hnext.mem_order.mp hname)
  sorted := h.sorted_succ hsub fun _ hname => hnext.mem_order.mp hname

/-- A name that is new comes later than all others and is listed after them. -/
theorem of_new (h : Listed table n) (hnext : (table (n + 1)).Aligned)
    (habsent : (table n).find? name = none)
    (horder : (table (n + 1)).order = (table n).order ++ [name]) : Listed table (n + 1) := by
  have hmem : ∀ other ∈ (table n).order ++ [name],
      ((table (n + 1)).find? other).isSome = true := by
    rw [← horder]
    exact fun _ => hnext.mem_order.mp
  have hold : ∀ other ∈ (table n).order, ((table (n + 1)).find? other).isSome = true :=
    fun other hother => hmem other (List.mem_append_left _ hother)
  have hnow : Arrived table (n + 1) name n := .now habsent (hmem name (by simp))
  have hnew : name ∉ (table n).order := by
    rw [h.aligned.mem_order, habsent]
    simp
  constructor
  · exact hnext
  · rw [horder]
    exact h.nodup.append (List.nodup_singleton name) (by simpa using hnew)
  · rw [horder]
    intro other hother
    rcases List.mem_append.mp hother with hother | hother
    · exact h.arrived_succ hother (hold other hother)
    · exact List.mem_singleton.mp hother ▸ ⟨n, hnow⟩
  · rw [horder, List.pairwise_append]
    refine ⟨h.sorted_succ (.refl _) hold, List.pairwise_singleton _ _, ?_⟩
    intro a ha b hb
    obtain rfl := List.mem_singleton.mp hb
    obtain ⟨i, hi⟩ := h.arrived a ha
    exact ⟨i, n, hi.before, hi.succ (hold a ha), hnow⟩

theorem step (h : Listed table n) (hstep : Step (table n) (table (n + 1))) :
    Listed table (n + 1) := by
  have ha := h.aligned
  generalize hu : table (n + 1) = u at hstep
  cases hstep with
  | none => exact h.of_sublist (hu ▸ ha) (by rw [hu])
  | insert name d =>
    have hnext : (table (n + 1)).Aligned := hu ▸ ha.insert name d
    cases hfind : (table n).find? name with
    | some e => exact h.of_sublist hnext (by rw [hu, order_insert_of_some (by simp [hfind])])
    | none => exact h.of_new hnext hfind (by rw [hu, order_insert_of_none hfind])
  | erase name =>
    refine h.of_sublist (hu ▸ ha.erase name) ?_
    rw [hu, ha.order_erase]
    exact List.filter_sublist

end Listed

/-- In a history that starts with an empty table the order always lists each name once and by
arrival. -/
theorem listed_history (hstart : table 0 = {}) (hsteps : ∀ i < n, Step (table i) (table (i + 1))) :
    Listed table n := by
  induction n with
  | zero => exact .empty hstart
  | succ n ih =>
    have hbefore := ih fun i hi => hsteps i (Nat.lt_succ_of_lt hi)
    exact hbefore.step (hsteps n (Nat.lt_succ_self n))

end PropertyTable
end PropertyDelete
