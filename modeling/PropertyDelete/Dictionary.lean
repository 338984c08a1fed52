/-!
Finite maps from names to values, as lists of pairs with each name at most once. Inserting
under a name that is present replaces the value where it stands; a new name goes to the end.
-/
namespace PropertyDelete

/-- A finite map from names. -/
structure Dictionary (α : Type) where
  entries : List (String × α) := []

namespace Dictionary

variable {α : Type}

instance : Inhabited (Dictionary α) := ⟨{}⟩

def get? (d : Dictionary α) (name : String) : Option α := d.entries.lookup name

def contains (d : Dictionary α) (name : String) : Bool := (d.get? name).isSome

/-- The pairs of a list with the value under a name replaced, or put at the end. -/
def put (name : String) (a : α) : List (String × α) → List (String × α)
  | [] => [(name, a)]
  | (n, b) :: rest => if n = name then (name, a) :: rest else (n, b) :: put name a rest

def insert (d : Dictionary α) (name : String) (a : α) : Dictionary α := ⟨put name a d.entries⟩

def erase (d : Dictionary α) (name : String) : Dictionary α :=
  ⟨d.entries.filter fun e => e.1 ≠ name⟩

/-- The names, in the order in which they came in. -/
def names (d : Dictionary α) : List String := d.entries.map Prod.fst

def size (d : Dictionary α) : Nat := d.entries.length

def isEmpty (d : Dictionary α) : Bool := d.entries.isEmpty

theorem lookup_put_self (name : String) (a : α) (l : List (String × α)) :
    (put name a l).lookup name = some a := by
  induction l with
  | nil => simp [put]
  | cons e rest ih =>
    obtain ⟨n, b⟩ := e
    by_cases h : n = name
    · simp [put, h]
    · simp [put, h, List.lookup_cons, ih, beq_false_of_ne (Ne.symm h)]

theorem lookup_put_of_ne {name other : String} (h : other ≠ name) (a : α)
    (l : List (String × α)) : (put name a l).lookup other = l.lookup other := by
  induction l with
  | nil => simp [put, List.lookup_cons, beq_false_of_ne h]
  | cons e rest ih =>
    obtain ⟨n, b⟩ := e
    by_cases hn : n = name
    · subst hn
      simp [put, List.lookup_cons, beq_false_of_ne h]
    · simp [put, hn, List.lookup_cons, ih]

theorem lookup_filter_self (name : String) (l : List (String × α)) :
    (l.filter fun e => e.1 ≠ name).lookup name = none := by
  rw [List.lookup_eq_none_iff]
  intro e he
  exact bne_iff_ne.mpr (Ne.symm (of_decide_eq_true (List.mem_filter.mp he).2))

theorem lookup_filter_of_ne {name other : String} (h : other ≠ name) (l : List (String × α)) :
    (l.filter fun e => e.1 ≠ name).lookup other = l.lookup other := by
  induction l with
  | nil => rfl
  | cons e rest ih =>
    obtain ⟨n, b⟩ := e
    by_cases hn : n = name
    · subst hn
      rw [List.filter_cons_of_neg (by simp), ih, List.lookup_cons, beq_false_of_ne h]
    · rw [List.filter_cons_of_pos (by simp [hn]), List.lookup_cons, List.lookup_cons, ih]

@[simp] theorem get?_insert_self (d : Dictionary α) (name : String) (a : α) :
    (d.insert name a).get? name = some a := lookup_put_self name a d.entries

/-- Inserting under a name leaves the other names alone. -/
theorem get?_insert_of_ne (d : Dictionary α) {name other : String} (h : other ≠ name) (a : α) :
    (d.insert name a).get? other = d.get? other := lookup_put_of_ne h a d.entries

@[simp] theorem get?_erase_self (d : Dictionary α) (name : String) :
    (d.erase name).get? name = none := lookup_filter_self name d.entries

/-- Erasing a name leaves the other names alone. -/
theorem get?_erase_of_ne (d : Dictionary α) {name other : String} (h : other ≠ name) :
    (d.erase name).get? other = d.get? other := lookup_filter_of_ne h d.entries

end Dictionary
end PropertyDelete
