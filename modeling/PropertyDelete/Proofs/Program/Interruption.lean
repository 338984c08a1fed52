import PropertyDelete.Proofs.Host.Interruption
import PropertyDelete.Proofs.Program.Sites

/-!
Programs under the interrupt flag. All delete sites that compilation allocates heed the main flag
(`Later.interruptible`), so while the flag is set a delete in a program does nothing but throw.
What is left of evaluation then makes errors and reads properties; an error is a new object, and
no other object and no site changes (`Machine.evaluate_stopped`). With this the module ends in
the summary of what refusals and interruptions leave alone.
-/
namespace PropertyDelete

/-! ## Sites of programs heed the main flag -/

/-- Whether all sites of an arena heed the main flag. -/
def DeleteArena.Interruptible (a : DeleteArena) : Prop :=
  ∀ p ∈ a.policies, p.interruptible = true ∧ p.flag = .main

/-- Whether an arena has only sites that heed the main flag, if another one has. -/
def KeepsInterruptible (a b : DeleteArena) : Prop :=
  DeleteArena.Interruptible a → DeleteArena.Interruptible b

instance : IsPreorder DeleteArena KeepsInterruptible where
  refl _ := id
  trans _ _ _ hab hbc h := hbc (hab h)

theorem KeepsInterruptible.allocateSite (o : Options) (strict : Bool) :
    Within KeepsInterruptible (Expression.allocateSite o strict) := by
  intro a h p hp
  have hp : p ∈ List.map Site.policy (a.sites ++ [.new _ o.limit]) := hp
  rw [List.map_append, List.mem_append] at hp
  rcases hp with hp | hp
  · exact h p hp
  · rw [List.mem_singleton.mp hp]
    exact ⟨rfl, rfl⟩

namespace Interpreter

theorem new_interruptible (options : Options) (s : Store) :
    DeleteArena.Interruptible ((new options).run s).1.arena :=
  fun _ hp => absurd hp List.not_mem_nil

theorem Next.interruptible {i j : Interpreter} (h : Next i j) :
    KeepsInterruptible i.arena j.arena := by
  cases h with
  | define name v => exact id
  | interrupt b => exact id
  | compile e strict =>
    exact (Expression.compile_within (KeepsInterruptible.allocateSite i.options strict)).1 e i.arena
  | evaluate store script =>
    have h := (script.root.evaluate_keeps ⟨i, store⟩).policies
    intro hi p hp
    exact hi p (h ▸ hp)
  | remember k site cache hsite =>
    have h := Arena.policies_setSite (t := site.withCache cache) hsite rfl
    intro hi p hp
    exact hi p (h ▸ hp)

/-- At every later time too, all sites of an interpreter heed the main flag. -/
theorem Later.interruptible {i j : Interpreter} (h : Later i j) :
    KeepsInterruptible i.arena j.arena := by
  induction h with
  | refl => exact id
  | tail _ hnext ih => exact fun hi => hnext.interruptible (ih hi)

end Interpreter

/-! ## Evaluation under the flag -/

/-- While the flag is set, a call at a site does nothing. -/
theorem DeleteArena.execute_stopped {a : DeleteArena} (hflag : a.interrupted.isSet .main = true)
    (h : DeleteArena.Interruptible a) (i : Nat) (target key : Value) (s : Store) :
    ((a.execute deletion i target key).run s).1.2 = a ∧
      ((a.execute deletion i target key).run s).2 = s := by
  cases hs : a.site? i with
  | none =>
    rw [Arena.execute_absent hs]
    exact ⟨rfl, rfl⟩
  | some site =>
    obtain ⟨hpolicy, hmain⟩ : site.policy.interruptible = true ∧ site.policy.flag = .main := by
      have hmem : a.policies[i]? = some site.policy := by
        rw [Arena.policies_getElem?, hs]
        rfl
      exact h _ (List.mem_of_getElem? hmem)
    have hbudget : deletion.budget site.policy a.interrupted = .error .interrupted := by
      show Delete.budget site.policy a.interrupted = _
      rw [Delete.budget, hpolicy, hmain, hflag]
      rfl
    rw [Arena.execute_run hs, Operation.execute_refused hbudget]
    exact ⟨Arena.setSite_self hs, rfl⟩

namespace Machine

/-- Whether no program of a machine can delete anything: the main flag is set, and all sites heed
it. -/
def Stopped (m : Machine) : Prop :=
  m.interpreter.arena.interrupted.isSet .main = true ∧
    DeleteArena.Interruptible m.interpreter.arena

/-- Whether a machine differs from another one at most in new native objects and in the log: the
interpreter with all its sites is the same, and so is every object that was there. -/
structure Intact (m n : Machine) : Prop where
  interpreter : n.interpreter = m.interpreter
  natives : m.store.heap.natives <+: n.store.heap.natives
  foreigns : n.store.heap.foreigns = m.store.heap.foreigns

theorem Intact.of_heap {m n : Machine} (hi : n.interpreter = m.interpreter)
    (hh : n.store.heap = m.store.heap) : m.Intact n where
  interpreter := hi
  natives := hh ▸ List.prefix_rfl
  foreigns := congrArg Heap.foreigns hh

/-- Whether a machine that is stopped is intact in another one. -/
def IntactIfStopped (m n : Machine) : Prop := m.Stopped → m.Intact n

instance : IsPreorder Machine IntactIfStopped where
  refl _ _ := ⟨rfl, List.prefix_rfl, rfl⟩
  trans m n _ hmn hnu hm := by
    have h := hmn hm
    -- the interpreter is still the same one
    have hn : n.Stopped := by
      unfold Stopped
      rw [h.interpreter]
      exact hm
    have h' := hnu hn
    exact ⟨h'.interpreter.trans h.interpreter, h.natives.trans h'.natives,
      h'.foreigns.trans h.foreigns⟩

theorem effects_intactIfStopped : Effects IntactIfStopped where
  raise m name message _ := ⟨rfl, List.prefix_append _ _, rfl⟩
  read m base key _ := .of_heap rfl (Store.read_heap base (m.store.heap.toKey key) m.store)
  call m base key site hm := by
    obtain ⟨harena, hstore⟩ := DeleteArena.execute_stopped hm.1 hm.2 site base key m.store
    exact .of_heap (congrArg (fun arena => { m.interpreter with arena }) harena)
      (congrArg Store.heap hstore)

/-- While the flag is set, evaluation changes no site and no object that is there. -/
theorem evaluate_stopped {m : Machine} (h : m.Stopped) (script : Script) :
    m.Intact (m.evaluate script).2 :=
  script.root.evaluate_within effects_intactIfStopped m h

end Machine

/-! ## What refusals and interruptions leave alone -/

/-- A delete that is refused leaves every object as it is, whichever way it goes: the generic way,
the way of any variant, with no site, or at any site. A call at a site that is interrupted leaves
the site and the whole store as they are, log included, so that a run can do without its
interrupted deletes: all other answers are the same, and so is the end. While the flag of an
interpreter is set, evaluation by it changes no site, and no object but for new ones. -/
theorem refusals_and_interruptions_inert :
    (∀ policy target key, Atomic (Delete.generic policy target key)) ∧
    (∀ v policy target key, Atomic (Delete.invoke v policy target key)) ∧
    (∀ target key strict, Atomic (Delete.uncached target key strict)) ∧
    (∀ (interrupted : Flags) (site : DeleteSite) (target key : Value) (s : Store),
      let call := (deletion.execute interrupted site target key).run s
      (Outcome.IsRefusal call.1.1 → call.2.heap = s.heap) ∧
        (call.1.1 = .error .interrupted → call = ((.error .interrupted, site), s))) ∧
    (∀ (w : World) (steps : List HostStep),
      w.run (w.uninterrupted steps) =
        ((w.run steps).1.filter (· ≠ some (.error .interrupted)), (w.run steps).2)) ∧
    (∀ (options : Options) (s : Store) (m : Machine),
      ((Interpreter.new options).run s).1.Later m.interpreter →
        m.interpreter.arena.interrupted.isSet .main = true →
          ∀ script, m.Intact (m.evaluate script).2) := by
  refine ⟨?generic, ?invoke, ?uncached, ?execute, World.run_uninterrupted, ?evaluate⟩
  case generic => exact fun policy target key => (Delete.generic_spares policy target key).atomic
  case invoke => exact fun v policy target key => (Delete.invoke_spares policy target key v).atomic
  case uncached => exact fun target key strict => (Delete.uncached_spares target key strict).atomic
  case execute =>
    intro interrupted site target key s call
    refine ⟨fun h => ?_, Delete.execute_interrupted⟩
    exact (Delete.execute_spares target interrupted site key s).resolve_left h.ne
  case evaluate =>
    intro options s m hlater hflag script
    have hsites := hlater.interruptible (Interpreter.new_interruptible options s)
    exact Machine.evaluate_stopped ⟨hflag, hsites⟩ script

/-- The length of an array, which no delete removes: refused at a site that may run, at the same
site interrupted, and by a program while the flag is set. -/
theorem refusals_and_interruptions_inert_length :
    let list : Value := .object ⟨0⟩
    let length := Value.ofString "length"
    let s : Store := { heap := { natives := [NativeObject.array [.null]] } }
    let site : DeleteSite := .new { strict := true, interruptible := true } 1
    let refused := (deletion.execute false site list length).run s
    let interrupted := (deletion.execute true site list length).run s
    (refused.1.1 = .error (.notConfigurable "length") ∧ refused.2.heap = s.heap) ∧
      interrupted = ((.error .interrupted, site), s) ∧
        ∃ script j, ((Interpreter.new {}).run s).1.compile
            (.delete (.member (.ident "list") "length")) true = (.ok script, j) ∧
          let m : Machine := ⟨(j.define "list" list).interrupt true, ((Interpreter.new {}).run s).2⟩
          (m.evaluate script).1 = .error (.object ⟨2⟩) ∧ m.Intact (m.evaluate script).2 := by
  intro list length s site refused interrupted
  obtain ⟨-, -, -, hexecute, -, hevaluate⟩ := refusals_and_interruptions_inert
  have hrefused : refused.1.1 = .error (.notConfigurable "length") := by decide
  have hinterrupted : interrupted.1.1 = .error .interrupted := by decide
  refine ⟨⟨hrefused, (hexecute false site list length s).1 ?_⟩,
    (hexecute true site list length s).2 hinterrupted, _, _, rfl, ?_⟩
  · rw [hrefused]
    exact .fixed "length"
  · intro m
    refine ⟨by rfl, hevaluate {} s m ?_ rfl _⟩
    exact .tail (.tail (.single (.compile _ _ _)) (.define _ _ _)) (.interrupt _ _)

end PropertyDelete
