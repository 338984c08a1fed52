import PropertyDelete.Proofs.Site.Lifecycle
import Mathlib.Data.Finset.Card

/-!
How many entries a site needs. Each entry is the narrowest one for some pair that was presented,
so there are never more of them than there are such narrowest entries (`length_le`), and a site
that nothing forces generalizes only when there are more than its limit (`Pressed.run`). There
are exactly as many when the pairs come in an order in which no narrowest entry serves a later
pair (`entries_of_apart`).
-/
namespace PropertyDelete.Operation

variable {Entry Policy Error Result : Type} {op : Operation Entry Policy Error Result}
variable {site : Site Entry Policy} {ps : List Shapes}

/-- What a site remembers, it could remember with a higher limit. -/
theorem Remembers.widen (h : op.Remembers site ps) :
    op.Remembers { site with limit := site.limit + 1, limit_pos := Nat.succ_pos _ } ps where
  within := Nat.le_succ_of_le h.within
  dropped hg := by
    obtain ⟨hentries, hpos, hle⟩ := h.dropped hg
    exact ⟨hentries, hpos, Nat.le_succ_of_le hle⟩
  counted := h.counted
  distinct := h.distinct
  installed := h.installed
  covered := h.covered

section Counting

variable [DecidableEq Entry]

/-- The narrowest entries for the pairs of shapes of a set. -/
def narrowestOf (op : Operation Entry Policy Error Result) (policy : Policy)
    (ps : Finset Shapes) : Finset Entry :=
  ps.image fun p => op.narrowest p policy

theorem narrowestOf_mono (policy : Policy) {ps qs : Finset Shapes} (h : ps ⊆ qs) :
    (op.narrowestOf policy ps).card ≤ (op.narrowestOf policy qs).card :=
  Finset.card_le_card (Finset.image_subset_image h)

/-- A site has no more entries than the pairs have narrowest ones. -/
theorem Remembers.length_le (h : op.Remembers site ps) :
    site.cache.entries.length ≤ (op.narrowestOf site.policy ps.toFinset).card := by
  have hsub : site.cache.entries.toFinset ⊆ op.narrowestOf site.policy ps.toFinset := by
    intro e he
    obtain ⟨before, after, hsplit⟩ := List.append_of_mem (List.mem_toFinset.mp he)
    obtain ⟨p, hp, rfl, -⟩ := h.installed before e after hsplit
    exact Finset.mem_image_of_mem _ (List.mem_toFinset.mpr hp)
  rw [← List.toFinset_card_of_nodup h.distinct]
  exact Finset.card_le_card hsub

/-- Whether a site that is generalized was presented pairs that have more narrowest entries than
it may hold. -/
def Pressed (op : Operation Entry Policy Error Result) (site : Site Entry Policy)
    (ps : List Shapes) : Prop :=
  site.cache.generalized = true →
    site.limit < (op.narrowestOf site.policy ps.toFinset).card

theorem Pressed.not_generalized (hp : op.Pressed site ps)
    (hle : (op.narrowestOf site.policy ps.toFinset).card ≤ site.limit) :
    site.cache.generalized = false := by
  cases hg : site.cache.generalized with
  | false => rfl
  | true => exact absurd (hp hg) (Nat.not_lt.mpr hle)

theorem Pressed.present (hself : op.SelfAccepting) (h : op.Remembers site ps)
    (hp : op.Pressed site ps) (p : Shapes) : op.Pressed (op.present site p) (ps ++ [p]) := by
  intro hg
  show site.limit < (op.narrowestOf site.policy (ps ++ [p]).toFinset).card
  rcases op.choose_cases site p with
    ⟨hgen, -⟩ | ⟨hgen, ⟨e, -, hc⟩ | ⟨-, -, hc⟩ | ⟨hl, hfull, -⟩⟩
  · have hsub : ps.toFinset ⊆ (ps ++ [p]).toFinset := by
      rw [List.toFinset_append]
      exact Finset.subset_union_left
    exact lt_of_lt_of_le (hp hgen) (narrowestOf_mono site.policy hsub)
  · rw [Operation.present, hc] at hg
    exact absurd (hgen.symm.trans hg) Bool.false_ne_true
  · rw [Operation.present, hc] at hg
    cases hg
  · -- with room for one more, the site would have installed an entry beside all it has
    have hroom : site.cache.entries.length < site.limit + 1 := Nat.lt_succ_of_le h.within
    have hle := (h.widen.install hself hgen hl hroom).length_le
    have hle : (site.cache.entries ++ [op.narrowest p site.policy]).length ≤
        (op.narrowestOf site.policy (ps ++ [p]).toFinset).card := hle
    rw [List.length_append, List.length_singleton] at hle
    omega

/-- A run without forced generalizations. -/
theorem Pressed.run (hself : op.SelfAccepting) {w : Scene Entry Policy}
    (h : op.Remembers w.site ps) (hp : op.Pressed w.site ps) {steps : List SiteStep}
    (hsteps : ∀ a ∈ steps, a ≠ .generalize) :
    op.Pressed (op.run w steps).site (ps ++ op.seen w steps) := by
  induction steps generalizing w ps with
  | nil =>
    rw [seen, List.append_nil]
    exact hp
  | cons a rest ih =>
    have hrest : ∀ b ∈ rest, b ≠ .generalize := fun b hb => hsteps b (List.mem_cons_of_mem a hb)
    rw [seen, ← List.append_assoc]
    refine ih (h.step hself a) ?_ hrest
    rcases op.step_cases w a with ⟨p, hpair, hs⟩ | ⟨-, ha, -⟩ | ⟨hpair, -, hs⟩
    · rw [hpair, hs]
      exact hp.present hself h p
    · exact absurd ha (hsteps a List.mem_cons_self)
    · rw [hpair, hs, Option.toList_none, List.append_nil]
      exact hp

end Counting

/-- Pairs in an order in which no narrowest entry serves a later pair: each needs an entry of its
own, as long as there is room. -/
theorem entries_of_apart (policy : Policy) (limit : Nat)
    (hapart : ps.Pairwise fun p q => op.guard (op.narrowest p policy) q policy = false) :
    let site := ps.foldl op.present (.new policy limit)
    site.policy = policy ∧
      (site.cache.generalized = true ∨
        site.cache.entries = ps.map fun p => op.narrowest p policy) := by
  induction ps using List.reverseRecOn with
  | nil => exact ⟨rfl, Or.inr rfl⟩
  | append_singleton ps p ih =>
    obtain ⟨hbefore, -, hlast⟩ := List.pairwise_append.mp hapart
    obtain ⟨hpolicy, hcase⟩ := ih hbefore
    rw [List.foldl_append, List.map_append]
    generalize ps.foldl op.present (.new policy limit) = site at hpolicy hcase
    refine ⟨hpolicy, ?_⟩
    show (op.present site p).cache.generalized = true ∨ (op.present site p).cache.entries = _
    unfold present
    rcases op.choose_cases site p with
      ⟨hg, hc⟩ | ⟨hg, hcases⟩
    · rw [hc]
      exact Or.inl hg
    have hentries : site.cache.entries = ps.map fun q => op.narrowest q policy :=
      hcase.resolve_left (by rw [hg]; exact Bool.false_ne_true)
    -- the entries so far are the narrowest for earlier pairs, and none of those serves this one
    have hnone : op.lookup site p = none := by
      rw [lookup_eq_none_iff, hentries, hpolicy]
      intro e he
      obtain ⟨q, hq, rfl⟩ := List.mem_map.mp he
      exact hlast q hq p List.mem_cons_self
    rcases hcases with ⟨e, hl, -⟩ | ⟨-, -, hc⟩ | ⟨-, -, hc⟩
    · rw [hnone] at hl
      cases hl
    · rw [hc]
      right
      show site.cache.entries ++ [op.narrowest p site.policy] = _
      rw [hentries, hpolicy]
      rfl
    · rw [hc]
      left
      simp [Site.withCache, SiteCache.generalize, hg]

end PropertyDelete.Operation
