import PropertyDelete.Proofs.Site.Run
import PropertyDelete.Site.ByTarget
import PropertyDelete.Delete.Operation
import Mathlib.Data.List.Nodup

/-!
The life of a site, for every operation whose narrowest entries serve the pairs of shapes that
they are chosen for. `Remembers` is the invariant: what a site remembers, related to the pairs
that have been presented to it. A pair keeps it (`Remembers.present`), so a step does, so a run
does (`Remembers.run`). The other half is what a run cannot do: it takes no entry away and moves
none until it generalizes the site (`run_entries`), and then nothing changes any more
(`run_generalized`). `lifecycle_of_selfAccepting` puts the two together.
-/
namespace PropertyDelete

namespace Operation

variable {Entry Policy Error Result : Type} (op : Operation Entry Policy Error Result)

/-- Whether the narrowest entry for a pair of shapes always serves that pair. -/
def SelfAccepting : Prop := ∀ p policy, op.guard (op.narrowest p policy) p policy = true

/-- What a site remembers, once it has been presented some pairs of shapes. -/
structure Remembers (site : Site Entry Policy) (ps : List Shapes) : Prop where
  within : site.cache.entries.length ≤ site.limit
  dropped : site.cache.generalized = true →
    site.cache.entries = [] ∧ 0 < site.cache.version ∧ site.cache.version ≤ site.limit + 1
  counted : site.cache.generalized = false → site.cache.version = site.cache.entries.length
  distinct : site.cache.entries.Nodup
  /-- Every entry was needed by a pair that no entry before it serves. -/
  installed : ∀ before e after, site.cache.entries = before ++ e :: after →
    ∃ p ∈ ps, e = op.narrowest p site.policy ∧ ∀ d ∈ before, op.guard d p site.policy = false
  covered : site.cache.generalized = false → ∀ p ∈ ps, ∃ e, op.lookup site p = some e

variable {op} {site : Site Entry Policy} {ps : List Shapes} {p : Shapes}

theorem lookup_eq_none_iff :
    op.lookup site p = none ↔ ∀ e ∈ site.cache.entries, op.guard e p site.policy = false := by
  simp only [lookup, List.find?_eq_none, Bool.not_eq_true]

theorem of_lookup {e : Entry} (h : op.lookup site p = some e) :
    e ∈ site.cache.entries ∧ op.guard e p site.policy = true := by
  unfold lookup at h
  have hserves := List.find?_some h
  exact ⟨List.mem_of_find?_eq_some h, hserves⟩

/-- More entries after those that are there do not change which one is found. -/
theorem lookup_of_prefix {later : Site Entry Policy} {e : Entry}
    (hp : later.policy = site.policy) (h : site.cache.entries <+: later.cache.entries)
    (hl : op.lookup site p = some e) : op.lookup later p = some e := by
  unfold lookup
  rw [hp]
  exact h.find?_eq_some hl

/-- A pair that no entry serves is served by the entry installed for it. -/
theorem lookup_install (hself : op.SelfAccepting) (hl : op.lookup site p = none) :
    op.lookup (site.withCache (site.cache.withEntry (op.narrowest p site.policy))) p =
      some (op.narrowest p site.policy) := by
  have hnone : site.cache.entries.find? (fun e => op.guard e p site.policy) = none := hl
  show (site.cache.entries ++ [op.narrowest p site.policy]).find?
    (fun e => op.guard e p site.policy) = _
  rw [List.find?_append, hnone, Option.none_or]
  exact List.find?_cons_of_pos (hself p site.policy)

namespace Remembers

theorem new (op : Operation Entry Policy Error Result) (policy : Policy) (limit : Nat) :
    op.Remembers (.new policy limit) [] where
  within := Nat.zero_le _
  dropped := nofun
  counted _ := rfl
  distinct := List.nodup_nil
  installed _ _ _ h := absurd h.symm (List.append_ne_nil_of_right_ne_nil _ nofun)
  covered _ _ hp := absurd hp List.not_mem_nil

/-- Forced generalization. -/
theorem generalize (h : op.Remembers site ps) : op.Remembers site.generalize ps := by
  unfold Site.generalize SiteCache.generalize
  cases hg : site.cache.generalized with
  | true => exact h
  | false =>
    have hversion := h.counted hg
    have hwithin := h.within
    constructor
    case within => exact Nat.zero_le _
    case dropped =>
      intro _
      refine ⟨rfl, Nat.succ_pos _, ?_⟩
      show site.cache.version + 1 ≤ site.limit + 1
      omega
    case counted => nofun
    case distinct => exact List.nodup_nil
    case installed =>
      intro before e after he
      exact absurd he.symm (List.append_ne_nil_of_right_ne_nil _ nofun)
    case covered => nofun

/-- A pair that needs nothing new. -/
theorem append (h : op.Remembers site ps)
    (hp : site.cache.generalized = false → ∃ e, op.lookup site p = some e) :
    op.Remembers site (ps ++ [p]) where
  within := h.within
  dropped := h.dropped
  counted := h.counted
  distinct := h.distinct
  installed before e after he := by
    obtain ⟨q, hq, hrest⟩ := h.installed before e after he
    exact ⟨q, List.mem_append_left [p] hq, hrest⟩
  covered hg q hq := by
    rcases List.mem_append.mp hq with hq | hq
    · exact h.covered hg q hq
    · rw [List.mem_singleton.mp hq]
      exact hp hg

/-- A pair that no entry serves, at a site with room for another entry. -/
theorem install (hself : op.SelfAccepting) (h : op.Remembers site ps)
    (hg : site.cache.generalized = false) (hl : op.lookup site p = none)
    (hroom : site.cache.entries.length < site.limit) :
    op.Remembers (site.withCache (site.cache.withEntry (op.narrowest p site.policy)))
      (ps ++ [p]) := by
  have hnone := lookup_eq_none_iff.mp hl
  have hserves := hself p site.policy
  constructor
  case within =>
    show (site.cache.entries ++ [_]).length ≤ site.limit
    rw [List.length_append, List.length_singleton]
    exact hroom
  case dropped => nofun
  case counted =>
    intro _
    show site.cache.version + 1 = (site.cache.entries ++ [_]).length
    rw [List.length_append, List.length_singleton, h.counted hg]
  case distinct =>
    -- an entry that serves the pair is not among those that do not
    refine List.nodup_append.mpr ⟨h.distinct, List.nodup_singleton _, ?_⟩
    intro e he d hd heq
    rw [List.mem_singleton.mp hd] at heq
    rw [← heq, hnone e he] at hserves
    cases hserves
  case installed =>
    intro before e after he
    have he : site.cache.entries ++ [op.narrowest p site.policy] = before ++ e :: after := he
    rcases List.eq_nil_or_concat after with rfl | ⟨l, x, rfl⟩
    · -- the new entry
      obtain ⟨rfl, hlast⟩ := List.append_inj' he rfl
      exact ⟨p, List.mem_append_right ps List.mem_cons_self, (List.singleton_inj.mp hlast).symm,
        hnone⟩
    · have he : site.cache.entries ++ [op.narrowest p site.policy] =
          (before ++ e :: l) ++ [x] := by
        rw [he, List.append_assoc, List.concat_eq_append, List.cons_append]
      obtain ⟨q, hq, hrest⟩ := h.installed before e l (List.append_inj' he rfl).1
      exact ⟨q, List.mem_append_left [p] hq, hrest⟩
  case covered =>
    intro _ q hq
    rcases List.mem_append.mp hq with hq | hq
    · obtain ⟨e, hfound⟩ := h.covered hg q hq
      have hkept : site.cache.entries <+: site.cache.entries ++ [op.narrowest p site.policy] :=
        List.prefix_append _ _
      exact ⟨e, hkept.find?_eq_some hfound⟩
    · rw [List.mem_singleton.mp hq]
      exact ⟨op.narrowest p site.policy, lookup_install hself hl⟩

theorem present (hself : op.SelfAccepting) (h : op.Remembers site ps) (p : Shapes) :
    op.Remembers (op.present site p) (ps ++ [p]) := by
  unfold Operation.present
  rcases op.choose_cases site p with
    ⟨hg, hc⟩ | ⟨hg, ⟨e, hl, hc⟩ | ⟨hl, hroom, hc⟩ | ⟨-, -, hc⟩⟩
  · rw [hc]
    exact h.append fun hfalse => absurd (hg.symm.trans hfalse) nofun
  · rw [hc]
    exact h.append fun _ => ⟨e, hl⟩
  · rw [hc]
    exact h.install hself hg hl hroom
  · rw [hc]
    refine h.generalize.append fun hfalse => ?_
    simp [Site.generalize, Site.withCache, SiteCache.generalize, hg] at hfalse

theorem step (hself : op.SelfAccepting) {w : Scene Entry Policy} (h : op.Remembers w.site ps)
    (a : SiteStep) :
    op.Remembers (op.step w a).site (ps ++ (op.presented? w a).toList) := by
  rcases op.step_cases w a with ⟨p, hp, hs⟩ | ⟨hp, -, hs⟩ | ⟨hp, -, hs⟩
  · rw [hp, hs]
    exact h.present hself p
  · rw [hp, hs, Option.toList_none, List.append_nil]
    exact h.generalize
  · rw [hp, hs, Option.toList_none, List.append_nil]
    exact h

theorem run (hself : op.SelfAccepting) {w : Scene Entry Policy} (h : op.Remembers w.site ps)
    (steps : List SiteStep) :
    op.Remembers (op.run w steps).site (ps ++ op.seen w steps) := by
  induction steps generalizing w ps with
  | nil =>
    rw [seen, List.append_nil]
    exact h
  | cons a rest ih =>
    rw [seen, ← List.append_assoc]
    exact ih (h.step hself a)

end Remembers

/-! ## What no run can do -/

/-- The entry that a pair is served by is the one that the site finds for it afterwards. -/
theorem lookup_of_choose (hself : op.SelfAccepting) {e : Entry} {cache : SiteCache Entry}
    (h : op.choose site p = (some e, cache)) : op.lookup (site.withCache cache) p = some e := by
  rcases op.choose_cases site p with
    ⟨-, hc⟩ | ⟨-, ⟨d, hl, hc⟩ | ⟨hl, -, hc⟩ | ⟨-, -, hc⟩⟩
  · rw [hc] at h
    cases h
  · rw [hc] at h
    cases h
    exact hl
  · rw [hc] at h
    cases h
    exact lookup_install hself hl
  · rw [hc] at h
    cases h

section Later

variable (op) {w : Scene Entry Policy}

/-- A pair generalizes a site, or adds at most one entry to it. -/
theorem present_entries (site : Site Entry Policy) (p : Shapes) :
    (op.present site p).cache.generalized = true ∨
      ∃ added, added.length ≤ 1 ∧
        (op.present site p).cache.entries = site.cache.entries ++ added := by
  unfold present
  rcases op.choose_cases site p with
    ⟨hg, hc⟩ | ⟨hg, ⟨e, -, hc⟩ | ⟨-, -, hc⟩ | ⟨-, -, hc⟩⟩
  · rw [hc]
    exact Or.inl hg
  · rw [hc]
    exact Or.inr ⟨[], Nat.zero_le 1, (List.append_nil _).symm⟩
  · rw [hc]
    exact Or.inr ⟨[op.narrowest p site.policy], Nat.le_refl 1, rfl⟩
  · rw [hc]
    left
    simp [Site.withCache, SiteCache.generalize, hg]

/-- A step generalizes the site, or adds at most one entry to it. -/
theorem step_entries (w : Scene Entry Policy) (a : SiteStep) :
    (op.step w a).site.cache.generalized = true ∨
      ∃ added, added.length ≤ 1 ∧
        (op.step w a).site.cache.entries = w.site.cache.entries ++ added := by
  rcases op.step_cases w a with ⟨p, -, hs⟩ | ⟨-, -, hs⟩ | ⟨-, -, hs⟩
  · rw [hs]
    exact op.present_entries w.site p
  · rw [hs]
    left
    show w.site.cache.generalize.generalized = true
    unfold SiteCache.generalize
    split <;> simp_all
  · rw [hs]
    exact Or.inr ⟨[], Nat.zero_le 1, (List.append_nil _).symm⟩

/-- A step does nothing to a site that is generalized. -/
theorem step_generalized (h : w.site.cache.generalized = true) (a : SiteStep) :
    (op.step w a).site = w.site := by
  rcases op.step_cases w a with ⟨p, -, hs⟩ | ⟨-, -, hs⟩ | ⟨-, -, hs⟩
  · have hc : op.choose w.site p = (none, w.site.cache) := by rw [choose, if_pos h]
    rw [hs, present, hc]
    rfl
  · rw [hs, Site.generalize, SiteCache.generalize, if_pos h]
    rfl
  · exact hs

theorem run_generalized (h : w.site.cache.generalized = true) (steps : List SiteStep) :
    (op.run w steps).site = w.site := by
  induction steps generalizing w with
  | nil => rfl
  | cons a rest ih =>
    have hs := op.step_generalized h a
    rw [← hs] at h ⊢
    exact ih h

/-- A run generalizes the site, or leaves all its entries in their places. -/
theorem run_entries (w : Scene Entry Policy) (steps : List SiteStep) :
    (op.run w steps).site.cache.generalized = true ∨
      w.site.cache.entries <+: (op.run w steps).site.cache.entries := by
  induction steps generalizing w with
  | nil => exact Or.inr List.prefix_rfl
  | cons a rest ih =>
    rcases ih (op.step w a) with h | h
    · exact Or.inl h
    · rcases op.step_entries w a with hg | ⟨added, -, hs⟩
      · left
        show (op.run (op.step w a) rest).site.cache.generalized = true
        rw [op.run_generalized hg]
        exact hg
      · rw [hs] at h
        exact Or.inr ((List.prefix_append _ _).trans h)

end Later

/-- The life of a site with a policy and a limit, told at any time of it: the scene is as it is
then, and the pairs are those that the site has been presented so far. -/
structure Lifecycle (op : Operation Entry Policy Error Result) (policy : Policy) (limit : Nat)
    (w : Scene Entry Policy) (ps : List Shapes) : Prop where
  within : w.site.cache.entries.length ≤ limit
  /-- Once generalized, a site has no entries, goes the generic way for every pair, and stays as
  it is. -/
  permanent : w.site.cache.generalized = true →
    w.site.cache.entries = [] ∧ 0 < w.site.cache.version ∧
      w.site.cache.version ≤ limit + 1 ∧
        (∀ p, op.choose w.site p = (none, w.site.cache)) ∧
          ∀ steps, (op.run w steps).site = w.site
  /-- Until then, each version has one entry more than the one before. -/
  counted : w.site.cache.generalized = false →
    w.site.cache.version = w.site.cache.entries.length
  grows : w.site.cache.generalized = false → ∀ a,
    (op.step w a).site.cache.generalized = true ∨
      ∃ added, added.length ≤ 1 ∧
        (op.step w a).site.cache.entries = w.site.cache.entries ++ added
  distinct : w.site.cache.entries.Nodup
  origin : ∀ e ∈ w.site.cache.entries, ∃ p ∈ ps, e = op.narrowest p policy
  /-- No entry is dead: some pair is served by it, and by none before it. -/
  alive : ∀ before e after, w.site.cache.entries = before ++ e :: after →
    ∃ p ∈ ps, op.guard e p policy = true ∧ ∀ d ∈ before, op.guard d p policy = false
  covered : w.site.cache.generalized = false → ∀ p ∈ ps, ∃ e ∈ w.site.cache.entries,
    op.guard e p policy = true
  /-- The entry that a pair has been served by serves it at every later time, until the site
  generalizes. -/
  stable : ∀ p e cache, op.choose w.site p = (some e, cache) → ∀ steps,
    let later := (op.run { w with site := w.site.withCache cache } steps).site
    later.cache.generalized = false → op.choose later p = (some e, later.cache)

theorem Remembers.lifecycle (hself : op.SelfAccepting) {w : Scene Entry Policy}
    (h : op.Remembers w.site ps) :
    op.Lifecycle w.site.policy w.site.limit w ps := by
  constructor
  case within => exact h.within
  case permanent =>
    intro hg
    obtain ⟨hentries, hpos, hle⟩ := h.dropped hg
    refine ⟨hentries, hpos, hle, fun p => ?_, op.run_generalized hg⟩
    rw [choose, if_pos hg]
  case counted => exact h.counted
  case grows => exact fun _ => op.step_entries w
  case distinct => exact h.distinct
  case origin =>
    intro e he
    obtain ⟨before, after, hsplit⟩ := List.append_of_mem he
    obtain ⟨p, hp, horigin, -⟩ := h.installed before e after hsplit
    exact ⟨p, hp, horigin⟩
  case alive =>
    intro before e after hsplit
    obtain ⟨p, hp, rfl, hbefore⟩ := h.installed before e after hsplit
    exact ⟨p, hp, hself p w.site.policy, hbefore⟩
  case covered =>
    intro hg p hp
    obtain ⟨e, he⟩ := h.covered hg p hp
    exact ⟨e, of_lookup he⟩
  case stable =>
    intro p e cache hc steps later hlater
    have hnow := lookup_of_choose hself hc
    -- the entries that are there when the pair is served are there later, in the same places
    have hprefix := (op.run_entries { w with site := w.site.withCache cache } steps).resolve_left
      (by rw [hlater]; exact Bool.false_ne_true)
    have hthen := lookup_of_prefix
      (op.run_fixed { w with site := w.site.withCache cache } steps).1 hprefix hnow
    rw [choose, if_neg (by rw [hlater]; exact Bool.false_ne_true), hthen]

end Operation

theorem deletion_selfAccepting : deletion.SelfAccepting := by
  rintro ⟨target, key⟩ policy
  show (DeleteVariant.narrowest ⟨target, key⟩).accepts ⟨target, key⟩ = true
  cases target <;> cases key <;> rfl

theorem byTarget_selfAccepting : byTarget.SelfAccepting :=
  fun p _ => beq_self_eq_true p.target

/-- The life of every site: for every operation whose narrowest entries serve the pairs that they
are chosen for, such as deletion and the reporting operation, for every policy and limit, and
whatever happens at the site and elsewhere. -/
theorem Operation.lifecycle_of_selfAccepting :
    deletion.SelfAccepting ∧ byTarget.SelfAccepting ∧
      ∀ {Entry Policy Error Result : Type} (op : Operation Entry Policy Error Result),
        op.SelfAccepting → ∀ (policy : Policy) (limit : Nat) (interrupted : Flags) (store : Store)
          (steps : List SiteStep),
          let start : Scene Entry Policy := ⟨.new policy limit, interrupted, store⟩
          op.Lifecycle policy (max limit 1) (op.run start steps) (op.seen start steps) := by
  refine ⟨deletion_selfAccepting, byTarget_selfAccepting, ?_⟩
  intro Entry Policy Error Result op hself policy limit interrupted store steps start
  obtain ⟨hpolicy, hlimit⟩ := op.run_fixed start steps
  have h := (Remembers.new op policy limit).run (w := start) hself steps
  rw [List.nil_append] at h
  have hlife := h.lifecycle hself
  rw [hpolicy, hlimit] at hlife
  exact hlife

/-- Two calls at a delete site with a limit of zero, which generalizes, and at a reporting site
that has room for both. -/
theorem lifecycle_of_two_calls :
    let name := Value.ofString "name"
    let steps : List SiteStep := [.call .null name, .call (.bigint 0) name]
    let deleting : Scene DeleteVariant DeletePolicy := ⟨.new { strict := true } 0, false, {}⟩
    let reporting : Scene TargetShape Unit := ⟨.new () 2, false, {}⟩
    (deletion.SelfAccepting ∧ (deletion.run deleting steps).site.cache.generalized = true ∧
      deletion.Lifecycle { strict := true } 1 (deletion.run deleting steps)
        (deletion.seen deleting steps)) ∧
      byTarget.SelfAccepting ∧
        (byTarget.run reporting steps).site.cache.entries = [.otherPrimitive, .numericValue] ∧
          byTarget.Lifecycle () 2 (byTarget.run reporting steps)
            (byTarget.seen reporting steps) := by
  intro name steps deleting reporting
  obtain ⟨hdeletion, hbyTarget, hlife⟩ := Operation.lifecycle_of_selfAccepting
  have hdeleting := hlife deletion hdeletion { strict := true } 0 false {} steps
  have hreporting := hlife byTarget hbyTarget () 2 false {} steps
  exact ⟨⟨hdeletion, by decide, hdeleting⟩, hbyTarget, by decide, hreporting⟩

end PropertyDelete
