import PropertyDelete.Proofs.Site.Call

/-!
A site at work: calls, one after the other, each on the store that the one before it has left,
and now and then a forced generalization. Between two of them anything may happen elsewhere, to
the store and to the flags that interrupt calls. All that a run does to the site is told by the
forced generalizations and by the pairs of shapes that the calls present (`step_cases`); a call
that the budget refuses presents none.
-/
namespace PropertyDelete

/-- A site, the flags that can interrupt its calls, and the store that they work on. -/
structure Scene (Entry Policy : Type) where
  site : Site Entry Policy
  interrupted : Flags
  store : Store

/-- What happens next at a site. -/
inductive SiteStep where
  | call (target key : Value)
  /-- A forced generalization. -/
  | generalize
  /-- Something happens elsewhere, and leaves any flags and any store. -/
  | elsewhere (interrupted : Flags) (store : Store)

namespace Operation

variable {Entry Policy Error Result : Type} (op : Operation Entry Policy Error Result)

/-- The scene after one step. -/
def step (w : Scene Entry Policy) : SiteStep → Scene Entry Policy
  | .call target key =>
    let call := (op.execute w.interrupted w.site target key).run w.store
    { w with site := call.1.2, store := call.2 }
  | .generalize => { w with site := w.site.generalize }
  | .elsewhere interrupted store => { w with interrupted, store }

/-- The scene after some steps, first one first. -/
def run (w : Scene Entry Policy) (steps : List SiteStep) : Scene Entry Policy :=
  steps.foldl op.step w

/-- The pair of shapes that a step presents to the site: that of the operands of a call, if the
budget lets it through. -/
def presented? (w : Scene Entry Policy) : SiteStep → Option Shapes
  | .call target key =>
    match op.budget w.site.policy w.interrupted with
    | .ok () => some ⟨w.store.heap.shape target, (w.store.heap.toKey key).shape⟩
    | .error _ => none
  | .generalize | .elsewhere _ _ => none

/-- The pairs of shapes that some steps present to the site, first one first. -/
def seen (w : Scene Entry Policy) : List SiteStep → List Shapes
  | [] => []
  | a :: rest => (op.presented? w a).toList ++ seen (op.step w a) rest

/-- The site after a pair of shapes has been presented to it. -/
def present (site : Site Entry Policy) (p : Shapes) : Site Entry Policy :=
  site.withCache (op.choose site p).2

/-- What one step can do to the site, and what it presents: a pair, or a forced generalization,
or nothing at all. -/
theorem step_cases (w : Scene Entry Policy) (a : SiteStep) :
    (∃ p, op.presented? w a = some p ∧ (op.step w a).site = op.present w.site p) ∨
      (op.presented? w a = none ∧ a = .generalize ∧ (op.step w a).site = w.site.generalize) ∨
        (op.presented? w a = none ∧ a ≠ .generalize ∧ (op.step w a).site = w.site) := by
  cases a with
  | call target key =>
    cases hb : op.budget w.site.policy w.interrupted with
    | error e =>
      refine Or.inr (Or.inr ⟨?_, nofun, ?_⟩)
      · simp only [presented?, hb]
      · simp only [step, execute_refused hb]
    | ok u =>
      refine Or.inl ⟨⟨w.store.heap.shape target, (w.store.heap.toKey key).shape⟩, ?_, ?_⟩
      · simp only [presented?, hb]
      · simp only [step, execute_run hb, present]
  | generalize => exact Or.inr (Or.inl ⟨rfl, rfl, rfl⟩)
  | elsewhere interrupted store => exact Or.inr (Or.inr ⟨rfl, nofun, rfl⟩)

/-- What a site does about a pair of shapes: a generalized one has no entry for it; else there
is an entry that serves it, or room for another one, or the site generalizes. -/
theorem choose_cases (site : Site Entry Policy) (p : Shapes) :
    (site.cache.generalized = true ∧ op.choose site p = (none, site.cache)) ∨
      (site.cache.generalized = false ∧
        ((∃ e, op.lookup site p = some e ∧ op.choose site p = (some e, site.cache)) ∨
          (op.lookup site p = none ∧ site.cache.entries.length < site.limit ∧
            op.choose site p =
              (some (op.narrowest p site.policy),
                site.cache.withEntry (op.narrowest p site.policy))) ∨
          (op.lookup site p = none ∧ site.limit ≤ site.cache.entries.length ∧
            op.choose site p = (none, site.cache.generalize)))) := by
  unfold choose
  cases hg : site.cache.generalized with
  | true => exact Or.inl ⟨rfl, rfl⟩
  | false =>
    refine Or.inr ⟨rfl, ?_⟩
    cases hl : op.lookup site p with
    | some e => exact Or.inl ⟨e, rfl, rfl⟩
    | none =>
      by_cases hroom : site.cache.entries.length < site.limit
      · exact Or.inr (Or.inl ⟨rfl, hroom, by rw [if_neg Bool.false_ne_true, if_pos hroom]⟩)
      · exact Or.inr (Or.inr ⟨rfl, by omega, by rw [if_neg Bool.false_ne_true, if_neg hroom]⟩)

/-- A call leaves the cache of a site as it is, or changes it once. -/
theorem execute_cache (interrupted : Flags) (site : Site Entry Policy) (target key : Value)
    (s : Store) :
    ∃ cache, ((op.execute interrupted site target key).run s).1.2 = site.withCache cache ∧
      (cache = site.cache ∨ cache.version = site.cache.version + 1) := by
  cases hb : op.budget site.policy interrupted with
  | error e =>
    rw [execute_refused hb]
    exact ⟨site.cache, rfl, Or.inl rfl⟩
  | ok u =>
    rw [execute_run hb]
    refine ⟨_, rfl, ?_⟩
    rcases op.choose_cases site ⟨s.heap.shape target, (s.heap.toKey key).shape⟩ with
      ⟨-, h⟩ | ⟨hg, ⟨e, -, h⟩ | ⟨-, -, h⟩ | ⟨-, -, h⟩⟩
    · simp [h]
    · simp [h]
    · simp [h, SiteCache.withEntry]
    · simp [h, SiteCache.generalize, hg]

section Fixed

variable (w : Scene Entry Policy)

/-- A step leaves all of the site but its cache. -/
theorem step_fixed (a : SiteStep) :
    (op.step w a).site.policy = w.site.policy ∧ (op.step w a).site.limit = w.site.limit := by
  rcases op.step_cases w a with ⟨p, -, h⟩ | ⟨-, -, h⟩ | ⟨-, -, h⟩
  all_goals
    rw [h]
    exact ⟨rfl, rfl⟩

/-- A run leaves all of the site but its cache. -/
theorem run_fixed (steps : List SiteStep) :
    (op.run w steps).site.policy = w.site.policy ∧
      (op.run w steps).site.limit = w.site.limit := by
  induction steps generalizing w with
  | nil => exact ⟨rfl, rfl⟩
  | cons a rest ih =>
    obtain ⟨hp, hl⟩ := op.step_fixed w a
    obtain ⟨hp', hl'⟩ := ih (op.step w a)
    exact ⟨hp'.trans hp, hl'.trans hl⟩

/-- Without forced generalizations a run does to the site what the pairs do that it presents. -/
theorem run_site {steps : List SiteStep} (h : ∀ a ∈ steps, a ≠ .generalize) :
    (op.run w steps).site = (op.seen w steps).foldl op.present w.site := by
  induction steps generalizing w with
  | nil => rfl
  | cons a rest ih =>
    have hrest := ih (op.step w a) fun b hb => h b (List.mem_cons_of_mem a hb)
    show (op.run (op.step w a) rest).site = _
    rw [hrest, seen, List.foldl_append]
    rcases op.step_cases w a with ⟨p, hp, hs⟩ | ⟨-, ha, -⟩ | ⟨hp, -, hs⟩
    · rw [hp, hs]
      rfl
    · exact absurd ha (h a List.mem_cons_self)
    · rw [hp, hs]
      rfl

end Fixed

end Operation
end PropertyDelete
