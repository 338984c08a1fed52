import PropertyDelete.Proofs.Key.Conversion

/-!
Prototype chains without cycles. `Inherits` relates an object to all that are above it, and a heap
is rooted if no object is above itself. On such a heap a chain lists no object twice, so the bound
on its length is never reached (`length_chain_le`), and a property that an object does not have
itself is that of its prototype, however long the chain is (`property_of_prototype`). What is read
through an object depends on the objects of its chain only (`property_setNative`).
-/
namespace PropertyDelete.Heap

/-- Whether an object is on the prototype chain of another one, above it. -/
inductive Inherits (h : Heap) : ObjectRef → ObjectRef → Prop
  | prototype {o p : ObjectRef} (hp : (h.native o).prototype = some p) : Inherits h o p
  | above {o p q : ObjectRef} (hp : (h.native o).prototype = some p) (hq : Inherits h p q) :
    Inherits h o q

/-- Whether no prototype chain comes back to an object of its own. -/
def Rooted (h : Heap) : Prop := ∀ o, ¬ h.Inherits o o

variable {h h' : Heap} {o p : ObjectRef} {key : String}

/-- Only an object that there is has a prototype. -/
theorem lt_of_prototype (hp : (h.native o).prototype = some p) : o.index < h.natives.length := by
  refine Nat.lt_of_not_le fun hle => ?_
  rw [native_of_le hle] at hp
  cases hp

/-! ## The objects of a chain -/

theorem chain_of_prototype (hp : (h.native o).prototype = some p) (bound : Nat) :
    h.chain (bound + 1) o = o :: h.chain bound p := by
  rw [chain, hp]

theorem chain_of_none (hp : (h.native o).prototype = none) (bound : Nat) :
    h.chain (bound + 1) o = [o] := by
  rw [chain, hp]

theorem inherits_of_mem_chain {bound : Nat} {x : ObjectRef}
    (hp : (h.native o).prototype = some p) (hx : x ∈ h.chain bound p) : h.Inherits o x := by
  induction bound generalizing o p with
  | zero => cases hx
  | succ bound ih =>
    cases hq : (h.native p).prototype with
    | none =>
      rw [chain_of_none hq] at hx
      rw [List.mem_singleton.mp hx]
      exact .prototype hp
    | some q =>
      rw [chain_of_prototype hq] at hx
      rcases List.mem_cons.mp hx with rfl | hx
      · exact .prototype hp
      · exact .above hp (ih hq hx)

theorem nodup_chain (hroot : h.Rooted) (bound : Nat) (o : ObjectRef) :
    (h.chain bound o).Nodup := by
  induction bound generalizing o with
  | zero => exact List.nodup_nil
  | succ bound ih =>
    cases hp : (h.native o).prototype with
    | none =>
      rw [chain_of_none hp]
      exact List.nodup_singleton o
    | some p =>
      rw [chain_of_prototype hp]
      exact List.nodup_cons.mpr ⟨fun ho => hroot o (inherits_of_mem_chain hp ho), ih p⟩

/-- All objects of a chain are there, but possibly the last one. -/
theorem lt_of_mem_dropLast {bound : Nat} {x : ObjectRef} (hx : x ∈ (h.chain bound o).dropLast) :
    x.index < h.natives.length := by
  induction bound generalizing o with
  | zero => cases hx
  | succ bound ih =>
    cases hp : (h.native o).prototype with
    | none =>
      rw [chain_of_none hp] at hx
      cases hx
    | some p =>
      rw [chain_of_prototype hp] at hx
      cases hrest : h.chain bound p with
      | nil =>
        rw [hrest] at hx
        cases hx
      | cons y rest =>
        rw [hrest, List.dropLast_cons_cons] at hx
        rcases List.mem_cons.mp hx with rfl | hx
        · exact lt_of_prototype hp
        · rw [← hrest] at hx
          exact ih hx

theorem length_chain_le (hroot : h.Rooted) (bound : Nat) (o : ObjectRef) :
    (h.chain bound o).length ≤ h.natives.length + 1 := by
  have hnesting : h.Nesting (h.chain bound o).dropLast :=
    ⟨(nodup_chain hroot bound o).sublist (List.dropLast_sublist _), fun _ => lt_of_mem_dropLast⟩
  have hle := hnesting.length_le
  rw [List.length_dropLast] at hle
  omega

/-- A bound that a chain does not reach makes no difference to it. -/
theorem chain_succ {bound : Nat} (hshort : (h.chain (bound + 1) o).length ≤ bound) :
    h.chain (bound + 1) o = h.chain bound o := by
  induction bound generalizing o with
  | zero =>
    rw [chain, List.length_cons] at hshort
    omega
  | succ bound ih =>
    cases hp : (h.native o).prototype with
    | none => rw [chain_of_none hp, chain_of_none hp]
    | some p =>
      rw [chain_of_prototype hp, List.length_cons] at hshort
      rw [chain_of_prototype hp, chain_of_prototype hp, ih (by omega)]

/-- The chain of an object is the object and the chain of its prototype. -/
theorem prototypeChain_of_prototype (hroot : h.Rooted)
    (hp : (h.native o).prototype = some p) : h.prototypeChain o = o :: h.prototypeChain p := by
  have hshort := length_chain_le hroot (h.natives.length + 1 + 1) o
  rw [chain_of_prototype hp, List.length_cons] at hshort
  rw [prototypeChain, prototypeChain, chain_of_prototype hp, chain_succ (by omega)]

/-! ## What is read through an object -/

/-- What an object itself has is found before anything that it inherits. -/
theorem property_of_own {d : Descriptor} (hd : (h.native o).ownProperty? key = some d) :
    h.property o key = d.value.getD .undefined := by
  simp [property, findProperty?, prototypeChain, chain, hd]

theorem property_of_prototype (hroot : h.Rooted) (hp : (h.native o).prototype = some p)
    (hnone : (h.native o).ownProperty? key = none) : h.property o key = h.property p key := by
  rw [property, property, findProperty?, findProperty?, prototypeChain_of_prototype hroot hp,
    List.findSome?_cons, hnone]

theorem property_of_none (hp : (h.native o).prototype = none)
    (hnone : (h.native o).ownProperty? key = none) : h.property o key = .undefined := by
  rw [property, findProperty?, prototypeChain, chain_of_none hp, List.findSome?_cons, hnone]
  rfl

/-- What is found along a chain depends on its objects only. -/
theorem findSome?_chain_congr {bound : Nat}
    (hsame : ∀ x ∈ h.chain bound o, h'.native x = h.native x) (key : String) :
    ((h'.chain bound o).findSome? fun x => (h'.native x).ownProperty? key) =
      (h.chain bound o).findSome? fun x => (h.native x).ownProperty? key := by
  induction bound generalizing o with
  | zero => rfl
  | succ bound ih =>
    have ho : h'.native o = h.native o := hsame o (by simp [chain])
    cases hp : (h.native o).prototype with
    | none =>
      rw [chain_of_none hp, chain_of_none (ho ▸ hp), List.findSome?_cons, List.findSome?_cons, ho]
      rfl
    | some p =>
      rw [chain_of_prototype hp] at hsame
      rw [chain_of_prototype hp, chain_of_prototype (ho ▸ hp), List.findSome?_cons,
        List.findSome?_cons, ho, ih fun x hx => hsame x (List.mem_cons_of_mem o hx)]

/-- A write of an object that is not on a chain is not seen through it. -/
theorem property_setNative (h : Heap) (obj : NativeObject) (hne : p ≠ o)
    (hoff : ¬ h.Inherits p o) (key : String) :
    (h.setNative o obj).property p key = h.property p key := by
  have hsame : ∀ x ∈ h.prototypeChain p, (h.setNative o obj).native x = h.native x := by
    intro x hx
    refine h.native_setNative_of_ne ?_ obj
    rintro rfl
    cases hq : (h.native p).prototype with
    | none =>
      rw [prototypeChain, chain_of_none hq] at hx
      exact hne (List.mem_singleton.mp hx).symm
    | some q =>
      rw [prototypeChain, chain_of_prototype hq] at hx
      rcases List.mem_cons.mp hx with he | hx
      · exact hne he.symm
      · exact hoff (inherits_of_mem_chain hq hx)
  have hlength : (h.setNative o obj).natives.length = h.natives.length := List.length_set
  unfold property findProperty? prototypeChain
  rw [hlength, findSome?_chain_congr hsame]

theorem Inherits.of_prototypes
    (hsame : ∀ x, (h'.native x).prototype = (h.native x).prototype) (hi : h'.Inherits o p) :
    h.Inherits o p := by
  induction hi with
  | prototype hp => exact .prototype ((hsame _).symm.trans hp)
  | above hp _ ih => exact .above ((hsame _).symm.trans hp) ih

/-- Where every prototype was made before the objects that have it, no chain comes back. -/
theorem rooted_of_older (holder : ∀ o p, (h.native o).prototype = some p → p.index < o.index) :
    h.Rooted := by
  have hlt : ∀ o p, h.Inherits o p → p.index < o.index := by
    intro o p hi
    induction hi with
    | prototype hp => exact holder _ _ hp
    | above hp _ ih => exact Nat.lt_trans ih (holder _ _ hp)
  exact fun o ho => Nat.lt_irrefl _ (hlt o o ho)

/-- A heap stays rooted as long as no prototype changes. -/
theorem Rooted.setNative (hroot : h.Rooted) {obj : NativeObject}
    (hobj : obj.prototype = (h.native o).prototype) : (h.setNative o obj).Rooted := by
  intro x hx
  refine hroot x (hx.of_prototypes fun y => ?_)
  by_cases hy : y = o
  · subst hy
    rcases h.native_setNative y obj with hread | hread <;> rw [hread]
    exact hobj
  · rw [h.native_setNative_of_ne hy]

end PropertyDelete.Heap
