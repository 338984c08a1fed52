import PropertyDelete.Proofs.Delete.Atomicity
import PropertyDelete.Proofs.Host.Step

/-!
Interrupted deletes leave no trace in a run. A step that is answered by an interruption leaves
the whole world as it is (`World.step_interrupted`), so a run can do without the deletes that are
interrupted in it: the other answers and the end of the run stay the same
(`World.run_uninterrupted`).
-/
namespace PropertyDelete

theorem Arena.setSite_self {Entry Policy : Type} {a : Arena Entry Policy} {i : Nat}
    {site : Site Entry Policy} (h : a.site? i = some site) : a.setSite i site = a := by
  obtain ⟨hi, he⟩ := List.getElem?_eq_some_iff.mp h
  unfold setSite
  rw [← he, List.set_getElem_self]

/-- A call at a site of an arena that has been interrupted has done nothing at all. -/
theorem Arena.execute_interrupted {a : DeleteArena} {i : Nat} {target key : Value} {s : Store}
    (h : ((a.execute deletion i target key).run s).1.1 = some (.error .interrupted)) :
    (a.execute deletion i target key).run s = ((some (.error .interrupted), a), s) := by
  cases hs : a.site? i with
  | none =>
    rw [execute_absent hs] at h
    cases h
  | some site =>
    rw [execute_run hs] at h ⊢
    have hcall := Delete.execute_interrupted (Option.some.inj h)
    simp only [hcall, setSite_self hs]

namespace World

/-- A step that has been interrupted leaves the world as it is. -/
theorem step_interrupted {w : World} {a : HostStep}
    (h : (w.step a).1 = some (.error .interrupted)) : (w.step a).2 = w := by
  cases a with
  | delete i target key =>
    have hcall := Arena.execute_interrupted h
    simp only [step, hcall]
  | generalize i =>
    simp only [step] at h
    split at h <;> cases h
  | interrupt flag b => cases h
  | edit e => cases h

/-- Some steps without those that are interrupted when all are taken one after the other. -/
def uninterrupted (w : World) : List HostStep → List HostStep
  | [] => []
  | a :: rest =>
    let first := w.step a
    let others := first.2.uninterrupted rest
    if first.1 = some (.error .interrupted) then others else a :: others

/-- A run without its interrupted steps: all other answers are the same, and so is the end. -/
theorem run_uninterrupted (w : World) (steps : List HostStep) :
    w.run (w.uninterrupted steps) =
      ((w.run steps).1.filter (· ≠ some (.error .interrupted)), (w.run steps).2) := by
  induction steps generalizing w with
  | nil => rfl
  | cons a rest ih =>
    by_cases h : (w.step a).1 = some (.error .interrupted)
    · -- the step is left out: it would have ended where it starts
      have hkept := step_interrupted h
      simp only [uninterrupted, run, h, hkept, if_true, ih]
      simp
    · simp only [uninterrupted, run, h, if_false, ih]
      simp [h]

end World
end PropertyDelete
