import PropertyDelete.Proofs.Delete.Strictness
import PropertyDelete.Proofs.Host.Step
import Mathlib.Data.List.Forall2

/-!
Strictness changes only how a refusal is reported. The same steps are taken in two worlds that
are equal but for the strictness of their delete sites. After each step the worlds are so again
(`World.withStrict_step`), hence after a run (`World.withStrict_run`): what sites remember, the
heap and the log are the same, and the answers report the same events.
-/
namespace PropertyDelete

namespace Arena

variable {Entry : Type} (a : Arena Entry DeletePolicy) (strict : Bool)

/-- The arena whose sites are all strict, or all lenient, and else as they are. -/
def withStrict : Arena Entry DeletePolicy :=
  { a with sites := a.sites.map (·.withStrict strict) }

/-- What the sites of an arena remember. -/
def caches : List (SiteCache Entry) := a.sites.map Site.cache

theorem withStrict_site? (i : Nat) :
    (a.withStrict strict).site? i = (a.site? i).map (·.withStrict strict) := List.getElem?_map

theorem withStrict_setSite (i : Nat) (site : Site Entry DeletePolicy) :
    (a.withStrict strict).setSite i (site.withStrict strict) =
      (a.setSite i site).withStrict strict := by
  unfold setSite withStrict
  rw [List.map_set]

theorem withStrict_caches : (a.withStrict strict).caches = a.caches := by
  unfold caches withStrict
  rw [List.map_map]
  rfl

/-- Two arenas that differ in strictness only still do so after a call at a site, which they
answer by reporting the same event. -/
theorem execute_tied (a : DeleteArena) (i : Nat) (target key : Value) :
    Tied
      (fun x y => Option.Rel Outcome.Corresponds x.1 y.1 ∧
        ∃ next : DeleteArena, x.2 = next.withStrict true ∧ y.2 = next.withStrict false)
      ((a.withStrict true).execute deletion i target key)
      ((a.withStrict false).execute deletion i target key) := by
  intro s
  cases hs : a.site? i with
  | none =>
    have habsent : ∀ strict, (a.withStrict strict).site? i = none := by
      intro strict
      rw [withStrict_site?, hs]
      rfl
    rw [execute_absent (habsent true), execute_absent (habsent false)]
    exact ⟨⟨.none, a, rfl, rfl⟩, rfl⟩
  | some site =>
    have hthere : ∀ strict, (a.withStrict strict).site? i = some (site.withStrict strict) := by
      intro strict
      rw [withStrict_site?, hs]
      rfl
    obtain ⟨⟨hanswer, cache, hstrict, hlenient⟩, hstore⟩ :=
      Delete.execute_tied a.interrupted site target key s
    rw [execute_run (hthere true), execute_run (hthere false)]
    refine ⟨⟨.some hanswer, a.setSite i (site.withCache cache), ?_, ?_⟩, hstore⟩
    · rw [← withStrict_setSite, ← hstrict]
      rfl
    · rw [← withStrict_setSite, ← hlenient]
      rfl

end Arena

namespace World

/-- The world whose delete sites are all strict, or all lenient, and else as they are. -/
def withStrict (w : World) (strict : Bool) : World :=
  { w with arena := w.arena.withStrict strict }

/-- Only deletes look at strictness. -/
theorem withStrict_other (w : World) {a : HostStep} (h : ∀ i target key, a ≠ .delete i target key)
    (strict : Bool) : (w.withStrict strict).step a = (none, (w.step a).2.withStrict strict) := by
  cases a with
  | delete i target key => exact absurd rfl (h i target key)
  | generalize i =>
    simp only [step, withStrict, Arena.withStrict_site?]
    cases w.arena.site? i with
    | none => rfl
    | some site =>
      simp only [Option.map_some, ← Arena.withStrict_setSite]
      rfl
  | interrupt flag b => rfl
  | edit e => rfl

/-- Two worlds that differ in strictness only still do so after a step, which they answer by
reporting the same event. -/
theorem withStrict_step (w : World) (a : HostStep) :
    Option.Rel Outcome.Corresponds ((w.withStrict true).step a).1
        ((w.withStrict false).step a).1 ∧
      ∃ next : World, ((w.withStrict true).step a).2 = next.withStrict true ∧
        ((w.withStrict false).step a).2 = next.withStrict false := by
  cases a with
  | delete i target key =>
    obtain ⟨⟨hanswer, arena, hstrict, hlenient⟩, hstore⟩ :=
      w.arena.execute_tied i target key w.store
    let store := (((w.arena.withStrict true).execute deletion i target key).run w.store).2
    exact ⟨hanswer, ⟨arena, store⟩, congrArg₂ World.mk hstrict rfl,
      congrArg₂ World.mk hlenient hstore.symm⟩
  | _ =>
    rw [withStrict_other, withStrict_other]
    · exact ⟨.none, _, rfl, rfl⟩
    all_goals exact fun _ _ _ => nofun

/-- So it is after a run. -/
theorem withStrict_run (w : World) (steps : List HostStep) :
    List.Forall₂ (Option.Rel Outcome.Corresponds) ((w.withStrict true).run steps).1
        ((w.withStrict false).run steps).1 ∧
      ∃ last : World, ((w.withStrict true).run steps).2 = last.withStrict true ∧
        ((w.withStrict false).run steps).2 = last.withStrict false := by
  induction steps generalizing w with
  | nil => exact ⟨.nil, w, rfl, rfl⟩
  | cons a rest ih =>
    obtain ⟨hfirst, next, hstrict, hlenient⟩ := w.withStrict_step a
    obtain ⟨hothers, hlast⟩ := ih next
    rw [← hstrict, ← hlenient] at hothers hlast
    exact ⟨.cons hfirst hothers, hlast⟩

/-- Strictness changes only how a refusal is reported. Whatever the host does, in a world whose
delete sites are all strict and in the same world with lenient ones: the answers correspond, step
by step, so no strict delete answers false, and no lenient one reports an error but that it has
been interrupted; and the sites remember the same, the heaps are equal, and so are the logs. -/
theorem strictness_only_reports (w : World) (steps : List HostStep) :
    let strict := (w.withStrict true).run steps
    let lenient := (w.withStrict false).run steps
    List.Forall₂ (Option.Rel Outcome.Corresponds) strict.1 lenient.1 ∧
      some (.ok false) ∉ strict.1 ∧ (∀ e, some (.error e) ∈ lenient.1 → e = .interrupted) ∧
        strict.2.arena.caches = lenient.2.arena.caches ∧
          strict.2.store.heap = lenient.2.store.heap ∧
            strict.2.store.calls = lenient.2.store.calls := by
  intro strict lenient
  obtain ⟨hanswers, last, hstrict, hlenient⟩ := w.withStrict_run steps
  have hstore : strict.2.store = lenient.2.store := by
    calc strict.2.store = (last.withStrict true).store := congrArg World.store hstrict
      _ = (last.withStrict false).store := rfl
      _ = lenient.2.store := (congrArg World.store hlenient).symm
  refine ⟨hanswers, ?_, ?_, ?_, congrArg Store.heap hstore, congrArg Store.calls hstore⟩
  · intro hmem
    have hne : ∀ answer ∈ strict.1, answer ≠ some (.ok false) := by
      refine ((List.forall₂_and_left _ _).mp (hanswers.imp fun a b h => ⟨?_, h⟩)).1
      rintro rfl
      cases h with
      | some h => exact h.strict_ne rfl
    exact hne _ hmem rfl
  · intro e hmem
    have herror : ∀ answer ∈ lenient.1, answer = some (.error e) → e = .interrupted := by
      have hflip : List.Forall₂ (flip (Option.Rel Outcome.Corresponds)) lenient.1 strict.1 :=
        List.Forall₂.flip hanswers
      refine ((List.forall₂_and_left _ _).mp (hflip.imp fun b a h => ⟨?_, h⟩)).1
      rintro rfl
      cases h with
      | some h => exact h.lenient_error rfl
    exact herror _ hmem rfl
  · calc strict.2.arena.caches = (last.arena.withStrict true).caches :=
          congrArg (fun w : World => Arena.caches w.arena) hstrict
      _ = last.arena.caches := last.arena.withStrict_caches true
      _ = (last.arena.withStrict false).caches := (last.arena.withStrict_caches false).symm
      _ = lenient.2.arena.caches :=
          (congrArg (fun w : World => Arena.caches w.arena) hlenient).symm

end World
end PropertyDelete
