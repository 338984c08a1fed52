import PropertyDelete.Proofs.Host.Step

/-!
Specialization is transparent: whatever the host does, a program with sites that remember
gives the same answers and leaves the same heap as the program without memory. The two worlds
are related by `Alike`, which ties down the policies, the flags and the heap, and says nothing
of caches, limits and logs. A step keeps worlds alike and is answered alike (`Alike.step`), so
a whole run is (`Alike.run`).
-/
namespace PropertyDelete

/-- Whether a world with memory and one without differ at most in caches, limits and logs. -/
structure Alike (w : World) (r : MemorylessWorld) : Prop where
  policies : w.arena.policies = r.policies
  interrupted : w.arena.interrupted = r.interrupted
  heap : w.store.heap = r.store.heap

namespace Alike

variable {w : World} {r : MemorylessWorld}

theorem forget (w : World) : Alike w w.forget := ⟨rfl, rfl, rfl⟩

/-- A delete is answered alike, and keeps worlds alike. -/
theorem delete (h : Alike w r) (i : Nat) (target key : Value) :
    (w.step (.delete i target key)).1 = (r.step (.delete i target key)).1 ∧
      Alike (w.step (.delete i target key)).2 (r.step (.delete i target key)).2 := by
  have hp : r.policies[i]? = (w.arena.site? i).map Site.policy := by
    rw [← h.policies]
    exact w.arena.policies_getElem? i
  have hpol := w.arena.policies_execute deletion i target key w.store
  have hint := w.arena.interrupted_execute deletion i target key w.store
  cases hs : w.arena.site? i with
  | none =>
    -- no such site in either world: nothing is answered and nothing changes
    rw [hs] at hp
    simp only [World.step, MemorylessWorld.step, Arena.execute_absent hs, hp, Option.map_none,
      true_and]
    exact h
  | some site =>
    rw [hs] at hp
    have hcall := Delete.execute_agree w.arena.interrupted site target key h.heap
    rw [Arena.execute_run hs] at hpol hint
    simp only [World.step, MemorylessWorld.step, Arena.execute_run hs, hp, Option.map_some,
      ← h.interrupted]
    exact ⟨congrArg some hcall.1, hpol.trans h.policies, hint, hcall.2⟩

/-- Every step is answered alike, and keeps worlds alike. -/
theorem step (h : Alike w r) (a : HostStep) :
    (w.step a).1 = (r.step a).1 ∧ Alike (w.step a).2 (r.step a).2 := by
  cases a with
  | delete i target key => exact h.delete i target key
  | generalize i =>
    cases hs : w.arena.site? i with
    | none =>
      simp only [World.step, hs]
      exact ⟨rfl, h⟩
    | some site =>
      -- only a cache changes, and the world without memory has none
      simp only [World.step, hs]
      have hp := Arena.policies_setSite (t := site.generalize) hs rfl
      exact ⟨rfl, hp.trans h.policies, h.interrupted, h.heap⟩
  | interrupt flag b =>
    exact ⟨rfl, h.policies, congrArg (Flags.put · flag b) h.interrupted, h.heap⟩
  | edit e => exact ⟨rfl, h.policies, h.interrupted, congrArg (HeapEdit.apply · e) h.heap⟩

/-- A run is answered alike, and ends in worlds that are alike. -/
theorem run (h : Alike w r) (steps : List HostStep) :
    (w.run steps).1 = (r.run steps).1 ∧ Alike (w.run steps).2 (r.run steps).2 := by
  induction steps generalizing w r with
  | nil => exact ⟨rfl, h⟩
  | cons a rest ih =>
    obtain ⟨hfirst, hnext⟩ := h.step a
    obtain ⟨hothers, hend⟩ := ih hnext
    refine ⟨?_, hend⟩
    show (w.step a).1 :: _ = (r.step a).1 :: _
    rw [hfirst, hothers]

end Alike

/-- What sites remember, how much they may remember and whether they were forced to generalize
shows neither in the answers of a run nor in the heap after it: both are those of the run in
which every delete checks the budget and goes the generic way. -/
theorem World.run_transparent (w : World) (steps : List HostStep) :
    (w.run steps).1 = (w.forget.run steps).1 ∧
      (w.run steps).2.store.heap = (w.forget.run steps).2.store.heap := by
  obtain ⟨hanswers, hend⟩ := (Alike.forget w).run steps
  exact ⟨hanswers, hend.heap⟩

end PropertyDelete
