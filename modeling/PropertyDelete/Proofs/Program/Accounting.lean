import PropertyDelete.Proofs.Program.Complaints
import PropertyDelete.Proofs.Program.Visits
import Mathlib.Data.List.Nodup

/-!
The accounts of an interpreter at work: it compiles programs, with or without success, and
evaluates the scripts that came of it, in any order and any number of times, while variables are
defined, the flag is set and cleared, and anything happens to the store. At all times the numbers
in its scripts are different ones and belong to sites with the policy and the limit that the
script was compiled with (`Consistent`). A step keeps this: a compilation numbers its sites from
the end of the arena on, where no script has a number yet, and nothing that is done later takes a
site away or turns it into another one. So one evaluation calls no site twice, finds every site
that it calls, and leaves the sites of all other scripts alone (`Evaluated`).

Numbers of sites have 32 bits, so all of this is said of an interpreter with fewer than 2^32 sites:
the next one would have a number that is taken.
-/
namespace PropertyDelete

/-- The numbers of the sites in a script, in the order in which evaluation reaches them. -/
def Script.sites (s : Script) : List UInt32 := s.root.sites

namespace Interpreter

/-- The interpreter with some new sites for programs of a given strictness. -/
def allocateSites (i : Interpreter) (strict : Bool) (n : Nat) : Interpreter :=
  { i with arena := i.arena.allocateMany (i.options.sitePolicy strict) i.options.limit n }

/-- A program that compiles is numbered from the end of the arena on. -/
theorem compile_ok {i j : Interpreter} {e : Expression} {strict : Bool} {script : Script}
    (h : i.compile e strict = (.ok script, j)) :
    script.strict = strict ∧
      script.sites = (List.range' i.arena.size e.memberDeletes).map UInt32.ofNat ∧
        j = i.allocateSites strict e.memberDeletes := by
  unfold compile at h
  rcases hr : (e.compile i.options strict).run.run i.arena with ⟨answer, arena⟩
  rw [hr] at h
  cases answer with
  | error err => cases h
  | ok node =>
    cases h
    obtain ⟨harena, hsites⟩ := Expression.compile_numbered.1 e hr
    exact ⟨rfl, hsites, by rw [harena]; rfl⟩

/-- Whether it succeeds or not, compilation does nothing to an interpreter but to allocate
sites. -/
theorem compile_interpreter (i : Interpreter) (e : Expression) (strict : Bool) :
    ∃ n, (i.compile e strict).2 = i.allocateSites strict n := by
  obtain ⟨n, hn⟩ := Expression.compile_allocates i.options strict e i.arena
  refine ⟨n, ?_⟩
  unfold compile allocateSites
  rw [← hn]

end Interpreter

/-- An interpreter at work on a store, and the scripts that it has compiled, first one first. -/
structure Workspace where
  machine : Machine
  scripts : List Script := []

/-- What is done next with an interpreter. -/
inductive WorkStep where
  | compile (e : Expression) (strict : Bool)
  /-- The script of a number is evaluated, if there is one. -/
  | evaluate (number : Nat)
  | define (name : String) (v : Value)
  | interrupt (flag : Bool)
  /-- Something happens elsewhere, and leaves any store. -/
  | elsewhere (store : Store)

namespace Workspace

/-- A new interpreter on a store. -/
def new (options : Options) (store : Store) : Workspace :=
  let answer := (Interpreter.new options).run store
  { machine := ⟨answer.1, answer.2⟩ }

def interpreter (w : Workspace) : Interpreter := w.machine.interpreter

def withInterpreter (w : Workspace) (i : Interpreter) : Workspace :=
  { w with machine := { w.machine with interpreter := i } }

def site? (w : Workspace) (k : UInt32) : Option DeleteSite := w.machine.site? k

/-- The number of sites. -/
def size (w : Workspace) : Nat := w.interpreter.arena.size

/-- The workspace after one step. -/
def step (w : Workspace) : WorkStep → Workspace
  | .compile e strict =>
    match w.interpreter.compile e strict with
    | (.ok script, i) => { w.withInterpreter i with scripts := w.scripts ++ [script] }
    | (.error _, i) => w.withInterpreter i
  | .evaluate number =>
    match w.scripts[number]? with
    | some script => { w with machine := (w.machine.evaluate script).2 }
    | none => w
  | .define name v => w.withInterpreter (w.interpreter.define name v)
  | .interrupt flag => w.withInterpreter (w.interpreter.interrupt flag)
  | .elsewhere store => { w with machine := { w.machine with store } }

/-- The workspace after some steps, first one first. -/
def run (w : Workspace) (steps : List WorkStep) : Workspace := steps.foldl step w

/-! ## One step -/

variable {w : Workspace}

/-- A program that compiles adds its script and the sites for it. -/
theorem step_compile_ok {e : Expression} {strict : Bool} {script : Script} {i : Interpreter}
    (h : w.interpreter.compile e strict = (.ok script, i)) :
    w.step (.compile e strict) =
      { w.withInterpreter (w.interpreter.allocateSites strict e.memberDeletes) with
        scripts := w.scripts ++ [script] } := by
  obtain ⟨-, -, hi⟩ := Interpreter.compile_ok h
  simp only [step, h, hi]

/-- A program that does not compile adds nothing but sites. -/
theorem step_compile_error {e : Expression} {strict : Bool} {err : CompileError} {i : Interpreter}
    (h : w.interpreter.compile e strict = (.error err, i)) :
    ∃ n, w.step (.compile e strict) =
      w.withInterpreter (w.interpreter.allocateSites strict n) := by
  obtain ⟨n, hn⟩ := w.interpreter.compile_interpreter e strict
  rw [h] at hn
  have hi : i = w.interpreter.allocateSites strict n := hn
  exact ⟨n, by simp only [step, h, hi]⟩

theorem step_evaluate {number : Nat} {script : Script} (h : w.scripts[number]? = some script) :
    w.step (.evaluate number) = { w with machine := (w.machine.evaluate script).2 } := by
  simp only [step, h]

theorem step_evaluate_absent {number : Nat} (h : w.scripts[number]? = none) :
    w.step (.evaluate number) = w := by
  simp only [step, h]

theorem site?_allocateSites {k : UInt32} (hk : k.toNat < w.size) (strict : Bool) (n : Nat) :
    (w.withInterpreter (w.interpreter.allocateSites strict n)).site? k = w.site? k :=
  Arena.site?_allocateMany _ _ _ hk n

theorem lt_size_of_site? {k : UInt32} {site : DeleteSite} (h : w.site? k = some site) :
    k.toNat < w.size := (List.getElem?_eq_some_iff.mp h).1

/-- A step takes no site away. -/
theorem size_le_step (s : WorkStep) : w.size ≤ (w.step s).size := by
  cases s with
  | compile e strict =>
    have hgrow : ∀ n, w.size ≤ (w.interpreter.allocateSites strict n).arena.size := by
      intro n
      rw [Interpreter.allocateSites, Arena.size_allocateMany]
      exact Nat.le_add_right _ _
    rcases hc : w.interpreter.compile e strict with ⟨answer, i⟩
    cases answer with
    | ok script =>
      rw [step_compile_ok hc]
      exact hgrow _
    | error err =>
      obtain ⟨n, hn⟩ := step_compile_error hc
      rw [hn]
      exact hgrow n
  | evaluate number =>
    cases hs : w.scripts[number]? with
    | none => rw [step_evaluate_absent hs]
    | some script =>
      rw [step_evaluate hs]
      exact (script.root.evaluate_keeps w.machine).size.ge
  | define name v => exact Nat.le_refl _
  | interrupt flag => exact Nat.le_refl _
  | elsewhere store => exact Nat.le_refl _

theorem size_le_run (steps : List WorkStep) : w.size ≤ (w.run steps).size := by
  induction steps generalizing w with
  | nil => exact Nat.le_refl _
  | cons s rest ih => exact Nat.le_trans (size_le_step s) ih

/-- A step leaves every site under its number, with its policy and its limit. -/
theorem site?_step {k : UInt32} {site : DeleteSite} (h : w.site? k = some site) (s : WorkStep) :
    ∃ cache, (w.step s).site? k = some (site.withCache cache) := by
  have hsame : ∀ u : Workspace, u.site? k = w.site? k →
      ∃ cache, u.site? k = some (site.withCache cache) := by
    intro u hu
    exact ⟨site.cache, hu.trans h⟩
  cases s with
  | compile e strict =>
    have hk := lt_size_of_site? h
    rcases hc : w.interpreter.compile e strict with ⟨answer, i⟩
    cases answer with
    | ok script =>
      rw [step_compile_ok hc]
      exact hsame _ (site?_allocateSites hk _ _)
    | error err =>
      obtain ⟨n, hn⟩ := step_compile_error hc
      rw [hn]
      exact hsame _ (site?_allocateSites hk _ _)
  | evaluate number =>
    cases hs : w.scripts[number]? with
    | none =>
      rw [step_evaluate_absent hs]
      exact hsame w rfl
    | some script =>
      rw [step_evaluate hs]
      obtain ⟨ks, -, hcalls, -⟩ := script.root.evaluate_visits w.machine
      obtain ⟨cache, hcache, -⟩ := hcalls.site?_of_some h
      exact ⟨cache, hcache⟩
  | define name v => exact hsame _ rfl
  | interrupt flag => exact hsame _ rfl
  | elsewhere store => exact hsame _ rfl

/-- A run leaves every site under its number, with its policy and its limit. -/
theorem site?_run {k : UInt32} {site : DeleteSite} (h : w.site? k = some site)
    (steps : List WorkStep) :
    ∃ cache, (w.run steps).site? k = some (site.withCache cache) := by
  induction steps generalizing w site with
  | nil => exact ⟨site.cache, h⟩
  | cons s rest ih =>
    obtain ⟨cache, hs⟩ := site?_step h s
    obtain ⟨later, hlater⟩ := ih hs
    exact ⟨later, hlater⟩

/-! ## The numbers in scripts -/

/-- Whether the numbers in the scripts of an interpreter are different ones, each of a site that
has the policy and the limit which the script was compiled with. -/
structure Consistent (o : Options) (w : Workspace) : Prop where
  options : w.interpreter.options = o
  /-- No number occurs twice, be it in one script or in two. -/
  distinct : (w.scripts.flatMap Script.sites).Nodup
  /-- Every number is that of a site, which is as strict as the script, heeds the flag, and has the
  limit and the rule on hash entries that the interpreter was made with. -/
  resolved : ∀ script ∈ w.scripts, ∀ k ∈ script.sites, ∃ cache, w.site? k =
    some ((Site.new (o.sitePolicy script.strict) o.limit).withCache cache)

namespace Consistent

variable {o : Options}

theorem new (o : Options) (store : Store) : Consistent o (Workspace.new o store) where
  options := rfl
  distinct := List.nodup_nil
  resolved := nofun

theorem lt_size (h : Consistent o w) {script : Script} (hs : script ∈ w.scripts) {k : UInt32}
    (hk : k ∈ script.sites) : k.toNat < w.size := by
  obtain ⟨cache, hsite⟩ := h.resolved script hs k hk
  exact lt_size_of_site? hsite

/-- A step that adds no script keeps the numbers. -/
theorem of_scripts (h : Consistent o w) (s : WorkStep)
    (hoptions : (w.step s).interpreter.options = w.interpreter.options)
    (hscripts : (w.step s).scripts = w.scripts) : Consistent o (w.step s) where
  options := hoptions.trans h.options
  distinct := by
    rw [hscripts]
    exact h.distinct
  resolved := by
    rw [hscripts]
    intro script hs k hk
    obtain ⟨cache, hsite⟩ := h.resolved script hs k hk
    obtain ⟨later, hlater⟩ := site?_step hsite s
    exact ⟨later, hlater⟩

/-- A program that compiles is numbered from the end of the arena on, where no script has a
number. -/
theorem compile (h : Consistent o w) {e : Expression} {strict : Bool} {script : Script}
    {i : Interpreter} (hc : w.interpreter.compile e strict = (.ok script, i))
    (hsize : (w.step (.compile e strict)).size < 2 ^ 32) :
    Consistent o (w.step (.compile e strict)) := by
  obtain ⟨hstrict, hsites, -⟩ := Interpreter.compile_ok hc
  have hold : ∀ old ∈ w.scripts, ∀ k ∈ old.sites, ∃ cache,
      (w.step (.compile e strict)).site? k =
        some ((Site.new (o.sitePolicy old.strict) o.limit).withCache cache) := by
    intro old hs k hk
    obtain ⟨cache, hsite⟩ := h.resolved old hs k hk
    obtain ⟨later, hlater⟩ := site?_step hsite (.compile e strict)
    exact ⟨later, hlater⟩
  rw [step_compile_ok hc] at hold hsize ⊢
  have hbound : w.size + e.memberDeletes < 2 ^ 32 := by
    rwa [size, show Workspace.interpreter _ = w.interpreter.allocateSites strict e.memberDeletes
      from rfl, Interpreter.allocateSites, Arena.size_allocateMany] at hsize
  -- below 2^32 a number is the place of its site
  have hnew : ∀ k ∈ script.sites, w.size ≤ k.toNat ∧ k.toNat < w.size + e.memberDeletes := by
    intro k hk
    rw [hsites] at hk
    obtain ⟨m, hm, rfl⟩ := List.mem_map.mp hk
    have hm : w.size ≤ m ∧ m < w.size + e.memberDeletes := List.mem_range'_1.mp hm
    rwa [UInt32.toNat_ofNat_of_lt' (show m < 2 ^ 32 by omega)]
  constructor
  · exact h.options
  · show ((w.scripts ++ [script]).flatMap Script.sites).Nodup
    rw [List.flatMap_append, List.flatMap_singleton, List.nodup_append]
    refine ⟨h.distinct, ?_, ?_⟩
    · rw [hsites]
      refine List.Nodup.map_on (fun m hm n hn heq => ?_) List.nodup_range'
      have hm : m < w.size + e.memberDeletes := (List.mem_range'_1.mp hm).2
      have hn : n < w.size + e.memberDeletes := (List.mem_range'_1.mp hn).2
      have hnat := congrArg UInt32.toNat heq
      rwa [UInt32.toNat_ofNat_of_lt' (show m < 2 ^ 32 by omega),
        UInt32.toNat_ofNat_of_lt' (show n < 2 ^ 32 by omega)] at hnat
    · rintro k hk _ hl rfl
      obtain ⟨old, hs, hk⟩ := List.mem_flatMap.mp hk
      have hlt := h.lt_size hs hk
      have hge := (hnew k hl).1
      omega
  · intro s hs k hk
    rcases List.mem_append.mp hs with hs | hs
    · exact hold s hs k hk
    · obtain rfl := List.mem_singleton.mp hs
      obtain ⟨hge, hlt⟩ := hnew k hk
      rw [hstrict, ← h.options]
      exact ⟨{}, Arena.site?_allocateMany_new _ _ _ hge hlt⟩

theorem step (h : Consistent o w) (s : WorkStep) (hsize : (w.step s).size < 2 ^ 32) :
    Consistent o (w.step s) := by
  cases s with
  | compile e strict =>
    rcases hc : w.interpreter.compile e strict with ⟨answer, i⟩
    cases answer with
    | ok script => exact h.compile hc hsize
    | error err =>
      obtain ⟨n, hn⟩ := step_compile_error hc
      apply h.of_scripts
      · rw [hn]
        rfl
      · rw [hn]
        rfl
  | evaluate number =>
    cases hs : w.scripts[number]? with
    | none =>
      rw [step_evaluate_absent hs]
      exact h
    | some script =>
      apply h.of_scripts
      · rw [step_evaluate hs]
        exact (script.root.evaluate_keeps w.machine).options
      · rw [step_evaluate hs]
  | define name v => exact h.of_scripts (.define name v) rfl rfl
  | interrupt flag => exact h.of_scripts (.interrupt flag) rfl rfl
  | elsewhere store => exact h.of_scripts (.elsewhere store) rfl rfl

/-- Whatever is done, the numbers in scripts stay consistent, as long as there are fewer than 2^32
sites. -/
theorem run (h : Consistent o w) (steps : List WorkStep) (hsize : (w.run steps).size < 2 ^ 32) :
    Consistent o (w.run steps) := by
  induction steps generalizing w with
  | nil => exact h
  | cons s rest ih =>
    -- there are no more sites after the step than at the end
    have hstep : (w.step s).size < 2 ^ 32 := Nat.lt_of_le_of_lt (size_le_run rest) hsize
    exact ih (h.step s hstep) hsize

end Consistent

/-! ## One evaluation -/

/-- What the evaluation of a script does to the interpreter. -/
structure Evaluated (m : Machine) (script : Script) : Prop where
  size : (m.evaluate script).2.interpreter.arena.size = m.interpreter.arena.size
  globals : (m.evaluate script).2.interpreter.globals = m.interpreter.globals
  /-- The sites of the script are called in the order of their numbers in it, all of them if the
  evaluation ends normally. -/
  calls : ∃ ks, ks <+: script.sites ∧ Machine.Calls ks m (m.evaluate script).2 ∧
    ∀ v, (m.evaluate script).1 = .ok v → ks = script.sites
  /-- All other sites stay as they are. -/
  others : ∀ k, k ∉ script.sites → (m.evaluate script).2.site? k = m.site? k
  /-- A site changes once at most, and only what it remembers. -/
  once : ∀ k site, m.site? k = some site →
    ∃ cache, (m.evaluate script).2.site? k = some (site.withCache cache) ∧
      (cache = site.cache ∨ cache.version = site.cache.version + 1)
  /-- What is thrown is never the error of a delete that has no site. -/
  found : ∀ v, (m.evaluate script).1 = .error v →
    (m.evaluate script).2.store.heap.errorMessage v ≠ "TypeError: Unknown delete site"

theorem Evaluated.of_sites {m : Machine} {script : Script} (hdistinct : script.sites.Nodup)
    (hresolved : ∀ k ∈ script.sites, k.toNat < m.interpreter.arena.size) : Evaluated m script := by
  have hkeeps := script.root.evaluate_keeps m
  obtain ⟨ks, hfirst, hcalls, hall⟩ := script.root.evaluate_visits m
  constructor
  case size => exact hkeeps.size
  case globals => exact hkeeps.globals
  case calls => exact ⟨ks, hfirst, hcalls, hall⟩
  case others =>
    intro k hk
    exact hcalls.site?_of_not_mem fun hm => hk (hfirst.subset hm)
  case once =>
    intro k site hs
    obtain ⟨cache, hcache, hraised⟩ := hcalls.site?_of_some hs
    have hcount : ks.count k ≤ 1 :=
      List.nodup_iff_count_le_one.mp (hdistinct.sublist hfirst.sublist) k
    exact ⟨cache, hcache, hraised.eq_or hcount⟩
  case found =>
    intro v hv
    have hcomplaint := script.root.evaluate_complains hresolved m (.refl _) v hv
    exact hcomplaint.ne_unknownSite

/-! ## The accounts -/

/-- The accounts of an interpreter at work, at one time. -/
structure Accounting (o : Options) (w : Workspace) : Prop extends Consistent o w where
  /-- Sites are only added, after those that there are: whatever is done next, these keep their
  numbers, their policies and their limits. -/
  grows : ∀ steps k site, w.site? k = some site →
    ∃ cache, (w.run steps).site? k = some (site.withCache cache)
  /-- A program that compiles adds its script, and a new site for each delete of a member in it,
  at any depth, numbered in the order of evaluation. -/
  compiled : ∀ e strict script i, w.interpreter.compile e strict = (.ok script, i) →
    script.strict = strict ∧
      script.sites = (List.range' w.size e.memberDeletes).map UInt32.ofNat ∧
        w.step (.compile e strict) =
          { w.withInterpreter (w.interpreter.allocateSites strict e.memberDeletes) with
            scripts := w.scripts ++ [script] }
  /-- A program that does not compile adds nothing but new sites. -/
  failed : ∀ e strict err i, w.interpreter.compile e strict = (.error err, i) →
    ∃ n, w.step (.compile e strict) = w.withInterpreter (w.interpreter.allocateSites strict n)
  evaluated : ∀ script ∈ w.scripts, Evaluated w.machine script

theorem Consistent.accounting {o : Options} (h : Consistent o w) : Accounting o w where
  toConsistent := h
  grows steps k site hs := site?_run hs steps
  compiled e strict script i hc := by
    obtain ⟨hstrict, hsites, -⟩ := Interpreter.compile_ok hc
    exact ⟨hstrict, hsites, step_compile_ok hc⟩
  failed e strict err i hc := step_compile_error hc
  evaluated script hs := by
    apply Evaluated.of_sites
    · exact (List.nodup_flatMap.mp h.distinct).1 script hs
    · intro k hk
      exact h.lt_size hs hk

/-- The accounts of an interpreter are in order at all times, whatever has been done with it since
it was made, as long as there are fewer than 2^32 sites. -/
theorem accounting_run (o : Options) (store : Store) (steps : List WorkStep)
    (hsize : ((new o store).run steps).size < 2 ^ 32) :
    Accounting o ((new o store).run steps) :=
  ((Consistent.new o store).run steps hsize).accounting

/-- A delete inside the key of a delete, then a program that fails when it has two sites already,
then one more delete. The first script is evaluated twice, and its sites change once each. -/
theorem accounting_run_nested :
    let list := Expression.ident "list"
    let nested : Expression := .delete (.index list (.delete (.member list "b")))
    let failing : Expression := .sequence [nested, .privateMember list (.new ⟨0, 0⟩ "a")]
    let w := (new {} { heap := { natives := [NativeObject.array [.null]] } }).run
      [.compile nested false, .define "list" (.object ⟨0⟩), .compile failing false, .evaluate 0,
        .compile (.delete (.member list "b")) true, .evaluate 0]
    w.scripts.map Script.sites = [[0, 1], [4]] ∧ w.size = 5 ∧
      [0, 1, 2, 3, 4].map (fun k => (w.site? k).map fun site => site.cache.version) =
        [some 1, some 1, some 0, some 0, some 0] ∧
      Accounting {} w :=
  ⟨by decide, by decide, by decide, accounting_run _ _ _ (by decide)⟩

end Workspace
end PropertyDelete
