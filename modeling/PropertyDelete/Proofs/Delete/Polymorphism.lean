import PropertyDelete.Proofs.Delete.Contract
import PropertyDelete.Proofs.Site.Polymorphism

/-!
When a delete site generalizes. Every variant serves targets of one shape only, so a site that is
not generalized has at least as many entries as there are target shapes among the pairs that it
was presented (`targets_le`), and at most as many as those pairs have narrowest variants. Which
number it is depends on the order in which they came; the two bounds do not. There are eleven
variants, and calls that need all of them (`showcase`).
-/
namespace PropertyDelete

namespace DeleteVariant

/-- The shape of the targets that a variant serves. -/
def target : DeleteVariant → TargetShape
  | ordinaryObject => .ordinaryObject
  | arrayIndex | arrayProperty => .arrayLikeObject
  | stringIndex | stringProperty => .primitiveString
  | symbol => .symbolValue
  | numeric => .numericValue
  | otherPrimitive => .otherPrimitive
  | foreignMember | foreignElement | foreignObject => .foreignObject

theorem target_of_accepts {v : DeleteVariant} {p : Shapes} (h : v.accepts p = true) :
    v.target = p.target := by
  cases v <;> simp_all [accepts, target]

theorem mem_all (v : DeleteVariant) : v ∈ all := by
  cases v <;> decide

end DeleteVariant

/-- The target shapes of the pairs of a set. -/
def targetsOf (ps : Finset Shapes) : Finset TargetShape := ps.image Shapes.target

namespace Delete

variable {site : DeleteSite} {ps : List Shapes}

/-- A site that is not generalized has an entry for every target shape it was presented. -/
theorem targets_le (h : deletion.Remembers site ps) (hg : site.cache.generalized = false) :
    (targetsOf ps.toFinset).card ≤ site.cache.entries.length := by
  have hsub : targetsOf ps.toFinset ⊆ (site.cache.entries.map DeleteVariant.target).toFinset := by
    intro t ht
    obtain ⟨p, hp, rfl⟩ := Finset.mem_image.mp ht
    obtain ⟨v, hfound⟩ := h.covered hg p (List.mem_toFinset.mp hp)
    obtain ⟨hmem, haccepts⟩ := Operation.of_lookup hfound
    rw [List.mem_toFinset, ← DeleteVariant.target_of_accepts haccepts]
    exact List.mem_map_of_mem hmem
  calc (targetsOf ps.toFinset).card
      ≤ (site.cache.entries.map DeleteVariant.target).toFinset.card := Finset.card_le_card hsub
    _ ≤ (site.cache.entries.map DeleteVariant.target).length := List.toFinset_card_le _
    _ = site.cache.entries.length := List.length_map _

/-- A site that was presented more target shapes than it may hold entries is generalized. -/
theorem generalized_of_targets (h : deletion.Remembers site ps)
    (hlt : site.limit < (targetsOf ps.toFinset).card) : site.cache.generalized = true := by
  cases hg : site.cache.generalized with
  | true => rfl
  | false =>
    have htargets := targets_le h hg
    have hwithin := h.within
    omega

theorem narrowestOf_card_le (policy : DeletePolicy) (ps : Finset Shapes) :
    (deletion.narrowestOf policy ps).card ≤ 11 := by
  have hsub : deletion.narrowestOf policy ps ⊆ DeleteVariant.all.toFinset :=
    fun v _ => List.mem_toFinset.mpr v.mem_all
  exact (Finset.card_le_card hsub).trans (List.toFinset_card_le _)

/-! ## Calls that need every variant -/

/-- A dialogue with a list leaves the store as it is. -/
theorem runWith_list {α : Type} {f : ForeignRef} {l : ElementList} {s : Store}
    (h : s.heap.foreign? f = some (.list l)) (d : Dialogue α) : ((d.runWith f).run s).2 = s := by
  induction d with
  | done a => rfl
  | ask m next ih =>
    show ((next (s.deliver f m).1).runWith f (s.deliver f m).2).2 = s
    rw [Store.deliver_list m h]
    exact ih _

/-- A plain object, an empty array and an empty list. -/
def showcase : Heap where
  natives := [{}, .array []]
  foreigns := [.list {}]

/-- Operands of deletes that change nothing, for each variant a pair of shapes that it is the
narrowest one for. -/
def operands : List (Value × Value) :=
  let name := Value.ofString "name"
  let index := Value.ofString "0"
  let symbol := Value.symbol ⟨0, none⟩
  [(.object ⟨0⟩, name), (.object ⟨1⟩, index), (.object ⟨1⟩, name), (Value.ofString "", index),
    (Value.ofString "", name), (symbol, name), (.bigint 0, name), (.null, name),
    (.foreign ⟨0⟩, name), (.foreign ⟨0⟩, index), (.foreign ⟨0⟩, symbol)]

/-- The pair of shapes of two operands. -/
def shapesIn (h : Heap) (c : Value × Value) : Shapes := ⟨h.shape c.1, (h.toKey c.2).shape⟩

theorem showcase_wellFormed : showcase.WellFormed := by
  intro obj hobj
  rcases List.mem_cons.mp hobj with rfl | hobj
  · exact fun slots hs => nomatch hs
  · rw [List.mem_singleton.mp hobj]
    exact NativeObject.wellFormed_array (by decide)

theorem operands_idle (policy : DeletePolicy) (calls : List Call) :
    ∀ c ∈ operands,
      ((generic policy c.1 (showcase.toKey c.2)).run ⟨showcase, calls⟩).2 =
        ⟨showcase, calls⟩ := by
  have hobject : ∀ o key,
      (showcase.native o).hasOwnProperty (showcase.toKey key).storageText = false →
        ((generic policy (.object o) (showcase.toKey key)).run ⟨showcase, calls⟩).2 =
          ⟨showcase, calls⟩ := by
    intro o key h
    have hcontract := contract_object (s := ⟨showcase, calls⟩) showcase_wellFormed
      (showcase.toKey_normal key) policy o
    rw [hcontract.absent (by rw [Store.hasOwn_object]; exact h)]
  simp only [operands, List.forall_mem_cons]
  exact ⟨hobject _ _ (by decide), hobject _ _ (by decide), hobject _ _ (by decide),
    rfl, rfl, rfl, rfl, rfl, runWith_list rfl _, runWith_list rfl _, runWith_list rfl _, nofun⟩

theorem operands_apart :
    (operands.map (shapesIn showcase)).Pairwise fun p q =>
      (DeleteVariant.narrowest p).accepts q = false := by
  decide

/-- A delete that may run at all may do so as long as the host has not asked to stop. -/
theorem budget_clear (policy : DeletePolicy) : budget policy false = .ok () := by
  rw [budget, Bool.and_false]
  rfl

/-- Calls at a site that change nothing present the shapes that their operands have at first. -/
theorem seen_idle {h : Heap} {cs : List (Value × Value)}
    (hidle : ∀ policy calls, ∀ c ∈ cs,
      ((generic policy c.1 (h.toKey c.2)).run ⟨h, calls⟩).2 = ⟨h, calls⟩)
    (site : DeleteSite) (s : Store) (hs : s.heap = h) :
    deletion.seen ⟨site, false, s⟩ (cs.map fun c => .call c.1 c.2) = cs.map (shapesIn h) := by
  induction cs generalizing site s with
  | nil => rfl
  | cons c rest ih =>
    have hbudget : deletion.budget site.policy false = .ok () := budget_clear site.policy
    have hpair : deletion.presented? ⟨site, false, s⟩ (.call c.1 c.2) = some (shapesIn h c) := by
      simp only [Operation.presented?, hbudget, hs, shapesIn]
    have hrest := fun policy calls d hd =>
      hidle policy calls d (List.mem_cons_of_mem c hd)
    have hheap : (deletion.step ⟨site, false, s⟩ (.call c.1 c.2)).store.heap = h := by
      obtain ⟨-, hagree⟩ := execute_agree false site c.1 c.2 hs
        (t := ⟨h, s.calls⟩)
      rw [checked_run (budget_clear site.policy)] at hagree
      exact hagree.trans (congrArg Store.heap (hidle site.policy s.calls c List.mem_cons_self))
    rw [List.map_cons, Operation.seen, hpair, List.map_cons]
    exact congrArg (shapesIn h c :: ·) (ih hrest _ _ hheap)

/-- At a limit up to ten the site cannot serve all of the calls without generalizing. -/
theorem showcase_generalizes (policy : DeletePolicy) {limit : Nat} (hlimit : limit ≤ 10) :
    (deletion.run ⟨.new policy limit, false, { heap := showcase }⟩
      (operands.map fun c => .call c.1 c.2)).site.cache.generalized = true := by
  let start : Scene DeleteVariant DeletePolicy :=
    ⟨.new policy limit, false, { heap := showcase }⟩
  let calls : List SiteStep := operands.map fun c => .call c.1 c.2
  show (deletion.run start calls).site.cache.generalized = true
  have hcalls : ∀ a ∈ calls, a ≠ .generalize := by
    intro a ha
    obtain ⟨c, -, rfl⟩ := List.mem_map.mp ha
    nofun
  have hseen : deletion.seen start calls = operands.map (shapesIn showcase) :=
    seen_idle operands_idle (.new policy limit) { heap := showcase } rfl
  have hsite := deletion.run_site start hcalls
  rw [hseen] at hsite
  have hapart : (operands.map (shapesIn showcase)).Pairwise fun p q =>
      deletion.guard (deletion.narrowest p policy) q policy = false := operands_apart
  obtain ⟨-, hcase⟩ := Operation.entries_of_apart policy limit hapart
  rw [show start.site = .new policy limit from rfl] at hsite
  rw [← hsite] at hcase
  refine hcase.resolve_right fun hentries => ?_
  -- eleven entries do not fit
  have hwithin :=
    ((Operation.Remembers.new deletion policy limit).run (w := start) deletion_selfAccepting
      calls).within
  rw [hentries, (deletion.run_fixed start calls).2] at hwithin
  have heleven : 11 ≤ max limit 1 := hwithin
  omega

/-- When a site generalizes that nothing forces to. It does if it was presented more target
shapes than its limit, and it does not if the pairs have no more narrowest variants than that;
until it does, the number of its entries lies between the two. Both are numbers of the set of
pairs, whatever their order. So no calls generalize a site with a limit of eleven or more, and
with any smaller limit some do. -/
theorem generalizes_between (policy : DeletePolicy) {limit : Nat} (hpos : 0 < limit) :
    (∀ (interrupted : Flags) (store : Store) (steps : List SiteStep),
      (∀ a ∈ steps, a ≠ .generalize) →
        let start : Scene DeleteVariant DeletePolicy := ⟨.new policy limit, interrupted, store⟩
        let cache := (deletion.run start steps).site.cache
        let pairs := (deletion.seen start steps).toFinset
        (limit < (targetsOf pairs).card → cache.generalized = true) ∧
          ((deletion.narrowestOf policy pairs).card ≤ limit → cache.generalized = false) ∧
            (cache.generalized = false →
              (targetsOf pairs).card ≤ cache.entries.length ∧
                cache.entries.length ≤ (deletion.narrowestOf policy pairs).card) ∧
              (11 ≤ limit → cache.generalized = false)) ∧
      (limit ≤ 10 → ∃ (store : Store) (calls : List (Value × Value)),
        (deletion.run ⟨.new policy limit, false, store⟩
          (calls.map fun c => .call c.1 c.2)).site.cache.generalized = true) := by
  refine ⟨?_, fun hlimit => ⟨{ heap := showcase }, operands, showcase_generalizes policy hlimit⟩⟩
  intro interrupted store steps hsteps start cache pairs
  have hnew := Operation.Remembers.new deletion policy limit
  have hremembers := hnew.run (w := start) deletion_selfAccepting steps
  have hpressed := Operation.Pressed.run (w := start) deletion_selfAccepting hnew nofun hsteps
  rw [List.nil_append] at hremembers hpressed
  obtain ⟨hpolicy, hsame⟩ := deletion.run_fixed start steps
  have hsame : (deletion.run start steps).site.limit = limit := hsame.trans (max_eq_left hpos)
  have hfits : (deletion.narrowestOf policy pairs).card ≤ limit → cache.generalized = false := by
    intro hle
    refine hpressed.not_generalized ?_
    rw [hsame, hpolicy]
    exact hle
  have hhigh : cache.entries.length ≤ (deletion.narrowestOf policy pairs).card := by
    have hle := hremembers.length_le
    rw [hpolicy] at hle
    exact hle
  refine ⟨fun hlt => ?_, hfits, fun hg => ⟨targets_le hremembers hg, hhigh⟩, fun hle => ?_⟩
  · refine generalized_of_targets hremembers ?_
    rw [hsame]
    exact hlt
  · exact hfits ((narrowestOf_card_le policy pairs).trans hle)

/-- Two calls on targets of different shapes, at a site for one entry. -/
theorem generalizes_between_one :
    let name := Value.ofString "name"
    let start : Scene DeleteVariant DeletePolicy :=
      ⟨.new { strict := true } 1, false, { heap := showcase }⟩
    let steps : List SiteStep := [.call (.object ⟨0⟩) name, .call .null name]
    0 < 1 ∧ (∀ a ∈ steps, a ≠ .generalize) ∧
      1 < (targetsOf (deletion.seen start steps).toFinset).card ∧
        (deletion.run start steps).site.cache.generalized = true := by
  intro name start steps
  have hsteps : ∀ a ∈ steps, a ≠ .generalize := by
    simp only [steps, List.forall_mem_cons]
    exact ⟨nofun, nofun, nofun⟩
  have htwo : 1 < (targetsOf (deletion.seen start steps).toFinset).card := by decide
  obtain ⟨hruns, -⟩ := generalizes_between { strict := true } Nat.one_pos
  exact ⟨Nat.one_pos, hsteps, htwo, (hruns false { heap := showcase } steps hsteps).1 htwo⟩

/-- The order of the pairs matters between the bounds: a wide entry that came first serves the
pair that a narrow one would have been made for. -/
example :
    let named : Shapes := ⟨.arrayLikeObject, .string⟩
    let indexed : Shapes := ⟨.arrayLikeObject, .index⟩
    let start : DeleteSite := .new { strict := true } 1
    ([named, indexed].foldl deletion.present start).cache.generalized = false ∧
      ([indexed, named].foldl deletion.present start).cache.generalized = true := by
  decide

end Delete
end PropertyDelete
