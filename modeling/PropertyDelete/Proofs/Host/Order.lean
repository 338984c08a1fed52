import PropertyDelete.Proofs.Delete.Commutation
import PropertyDelete.Proofs.Host.Step

/-!
The order of deletes. Some deletes, with no site or at the sites of a program, are performed one
after the other on a well-formed heap; no target is a scripted object, and no key an object. Each
has the answer that it has alone, and neither the heap nor anything but the caches of the sites
shows afterwards in which order they came (`performAll_perm`). For as an act on the heap a delete
depends on no more than what is settled at its place (`perform_act`), and no delete changes that.
-/
namespace PropertyDelete

/-! ## What a call leaves of an arena -/

namespace Arena

variable {Entry Policy Error Result : Type}

/-- An arena with nothing in the caches of its sites. -/
def bare (a : Arena Entry Policy) : Arena Entry Policy :=
  { a with sites := a.sites.map (·.withCache {}) }

theorem policies_bare (a : Arena Entry Policy) : a.bare.policies = a.policies := by
  simp only [policies, bare, List.map_map]
  rfl

/-- A call changes at most a cache. -/
theorem bare_execute (op : Operation Entry Policy Error Result) (a : Arena Entry Policy) (i : Nat)
    (target key : Value) (s : Store) :
    ((a.execute op i target key).run s).1.2.bare = a.bare := by
  cases hsite : a.site? i with
  | none => rw [execute_absent hsite]
  | some site =>
    obtain ⟨cache, hcache⟩ := op.execute_site a.interrupted site target key s
    rw [execute_run hsite]
    show (a.setSite i ((op.execute a.interrupted site target key).run s).1.2).bare = a.bare
    rw [hcache]
    have hself : (a.sites.map (·.withCache {}))[i]? = some (site.withCache {}) := by
      rw [List.getElem?_map]
      exact congrArg (Option.map (·.withCache {})) hsite
    obtain ⟨hi, he⟩ := List.getElem?_eq_some_iff.mp hself
    have hsites : (a.sites.set i (site.withCache cache)).map (·.withCache {}) =
        a.sites.map (·.withCache {}) := by
      rw [List.map_set]
      show (a.sites.map (·.withCache {})).set i (site.withCache {}) = _
      rw [← he]
      exact List.set_getElem_self hi
    exact congrArg (fun sites => { a with sites }) hsites

end Arena

/-! ## Deletes and their places -/

/-- Where a delete is performed. -/
inductive Place where
  /-- With no site. -/
  | direct (policy : DeletePolicy)
  /-- At the site of a number. -/
  | site (i : Nat)

structure Request where
  place : Place
  target : Value
  key : Value

/-- What is settled at a place, where there is such a place and the budget lets deletes through. -/
def Place.settled (policies : List DeletePolicy) (interrupted : Flags) :
    Place → Option (Except DeleteError DeletePolicy)
  | .direct policy => some (.ok policy)
  | .site i => policies[i]?.map fun policy =>
    (Delete.budget policy interrupted).map fun _ => policy

/-- Performs a delete. There is no answer if there is no such site. -/
def World.perform (w : World) (d : Request) : Option Outcome × World :=
  match d.place with
  | .direct policy =>
    let call := (Delete.generic policy d.target (w.store.heap.toKey d.key)).run w.store
    (some call.1, { w with store := call.2 })
  | .site i => w.step (.delete i d.target d.key)

/-- The answers of some deletes, in order, and the world after them. -/
def World.performAll (w : World) : List Request → List (Option Outcome) × World
  | [] => ([], w)
  | d :: rest =>
    let first := w.perform d
    let others := first.2.performAll rest
    (first.1 :: others.1, others.2)

/-- A delete as an act on the heap. -/
def Request.act (policies : List DeletePolicy) (interrupted : Flags) (d : Request) (h : Heap) :
    Option Outcome × Heap :=
  match d.place.settled policies interrupted with
  | none => (none, h)
  | some (.error e) => (some (.error e), h)
  | some (.ok policy) =>
    let answer := h.delete policy d.target (Heap.primitiveKey d.key)
    (some answer.1, answer.2)

namespace Request

variable {policies : List DeletePolicy} {interrupted : Flags} {d d' : Request} {h : Heap}

/-- A delete as an act is idle, or one on the heap. -/
theorem act_cases (policies : List DeletePolicy) (interrupted : Flags) (d : Request) :
    (∃ answer, ∀ h, d.act policies interrupted h = (answer, h)) ∨
      ∃ policy, ∀ h, d.act policies interrupted h =
        (some (h.delete policy d.target (Heap.primitiveKey d.key)).1,
          (h.delete policy d.target (Heap.primitiveKey d.key)).2) := by
  unfold act
  cases d.place.settled policies interrupted with
  | none => exact Or.inl ⟨none, fun h => rfl⟩
  | some settled =>
    cases settled with
    | error e => exact Or.inl ⟨some (.error e), fun h => rfl⟩
    | ok policy => exact Or.inr ⟨policy, fun h => rfl⟩

theorem act_exchangeable (hwf : h.WellFormed) (hp : h.Plain d.target) (hp' : h.Plain d'.target) :
    Exchangeable (d.act policies interrupted) (d'.act policies interrupted) h := by
  rcases act_cases policies interrupted d with ⟨answer, hact⟩ | ⟨policy, hact⟩
  · exact exchangeable_idle hact _ h
  · rcases act_cases policies interrupted d' with ⟨answer', hact'⟩ | ⟨policy', hact'⟩
    · exact (exchangeable_idle hact' _ h).symm
    · have hdeletes := Heap.delete_exchangeable hwf hp hp' (Heap.primitiveKey_normal d.key)
        (Heap.primitiveKey_normal d'.key) policy policy'
      constructor
      · rw [hact', hact, hact]
        exact congrArg some hdeletes.first
      · rw [hact, hact', hact']
        exact congrArg some hdeletes.second
      · rw [hact, hact', hact', hact]
        exact hdeletes.state

theorem act_keeps (hwf : h.WellFormed) {target : Value} (hp : h.Plain target) :
    (d.act policies interrupted h).2.WellFormed ∧
      (d.act policies interrupted h).2.Plain target := by
  rcases act_cases policies interrupted d with ⟨answer, hact⟩ | ⟨policy, hact⟩
  · rw [hact]
    exact ⟨hwf, hp⟩
  · rw [hact]
    exact ⟨hwf.delete (Heap.primitiveKey_normal d.key) policy d.target, hp.delete policy d.target _⟩

end Request

namespace World

variable {w : World}

/-- The delete at a place where the budget lets it through, as far as the heap goes. -/
theorem generic_act {d : Request} (hp : w.store.heap.Plain d.target)
    (hkey : ∀ o, d.key ≠ .object o) {policies : List DeletePolicy} {interrupted : Flags}
    {policy : DeletePolicy} (hsettled : d.place.settled policies interrupted = some (.ok policy)) :
    let call := (Delete.generic policy d.target (w.store.heap.toKey d.key)).run w.store
    some call.1 = (d.act policies interrupted w.store.heap).1 ∧
      call.2.heap = (d.act policies interrupted w.store.heap).2 := by
  rw [w.store.heap.toKey_of_ne_object hkey, Request.act, hsettled]
  obtain ⟨hanswer, hheap⟩ := Delete.generic_plain hp policy (Heap.primitiveKey d.key)
  exact ⟨congrArg some hanswer, hheap⟩

theorem step_act {i : Nat} {target key : Value} (hp : w.store.heap.Plain target)
    (hkey : ∀ o, key ≠ .object o) :
    let d : Request := ⟨.site i, target, key⟩
    (w.step (.delete i target key)).1 =
        (d.act w.arena.policies w.arena.interrupted w.store.heap).1 ∧
      (w.step (.delete i target key)).2.store.heap =
        (d.act w.arena.policies w.arena.interrupted w.store.heap).2 := by
  intro d
  have hpolicy := w.arena.policies_getElem? i
  have hsettled : d.place.settled w.arena.policies w.arena.interrupted =
      (w.arena.policies[i]?).map fun policy =>
        (Delete.budget policy w.arena.interrupted).map fun _ => policy := rfl
  cases hs : w.arena.site? i with
  | none =>
    rw [hpolicy, hs] at hsettled
    simp only [step, Arena.execute_absent hs, Request.act, hsettled, Option.map_none, true_and]
  | some site =>
    rw [hpolicy, hs] at hsettled
    obtain ⟨hanswer, hheap⟩ := Delete.execute_agree w.arena.interrupted site target key
      (rfl : w.store.heap = w.store.heap)
    simp only [step, Arena.execute_run hs]
    rw [hanswer, hheap]
    cases hb : Delete.budget site.policy w.arena.interrupted with
    | error e =>
      rw [Delete.checked_refused hb, Request.act, hsettled, Option.map_some, Option.map_some, hb]
      exact ⟨rfl, rfl⟩
    | ok u =>
      rw [Delete.checked_run hb]
      refine generic_act hp hkey (d := d) ?_
      rw [hsettled, Option.map_some, Option.map_some, hb]
      rfl

/-- Performed in a world, a delete is an act on the heap, and changes at most a cache besides. -/
theorem perform_act {d : Request} (hp : w.store.heap.Plain d.target)
    (hkey : ∀ o, d.key ≠ .object o) :
    (w.perform d).1 = (d.act w.arena.policies w.arena.interrupted w.store.heap).1 ∧
      (w.perform d).2.store.heap =
        (d.act w.arena.policies w.arena.interrupted w.store.heap).2 ∧
      (w.perform d).2.arena.bare = w.arena.bare := by
  obtain ⟨place, target, key⟩ := d
  cases place with
  | direct policy =>
    have hsettled : (Place.direct policy).settled w.arena.policies w.arena.interrupted =
        some (.ok policy) := rfl
    obtain ⟨hanswer, hheap⟩ := generic_act hp hkey hsettled
    exact ⟨hanswer, hheap, rfl⟩
  | site i =>
    obtain ⟨hanswer, hheap⟩ := step_act (i := i) hp hkey
    exact ⟨hanswer, hheap, w.arena.bare_execute deletion i target key w.store⟩

/-- Performed in a world, some deletes are acts on the heap, one after the other. -/
theorem performAll_act {ds : List Request} {policies : List DeletePolicy} {interrupted : Flags}
    (hpolicies : w.arena.policies = policies) (hinterrupted : w.arena.interrupted = interrupted)
    (hwf : w.store.heap.WellFormed)
    (hds : ∀ d ∈ ds, w.store.heap.Plain d.target ∧ ∀ o, d.key ≠ .object o) :
    (w.performAll ds).1 = (inTurn (Request.act policies interrupted) ds w.store.heap).1 ∧
      (w.performAll ds).2.store.heap =
        (inTurn (Request.act policies interrupted) ds w.store.heap).2 ∧
      (w.performAll ds).2.arena.bare = w.arena.bare := by
  induction ds generalizing w with
  | nil => exact ⟨rfl, rfl, rfl⟩
  | cons d rest ih =>
    obtain ⟨⟨hp, hkey⟩, hothers⟩ := List.forall_mem_cons.mp hds
    obtain ⟨hanswer, hheap, hbare⟩ := perform_act hp hkey
    rw [hpolicies, hinterrupted] at hanswer hheap
    -- the next delete finds the same places, and a heap that is as good
    have hpolicies' : (w.perform d).2.arena.policies = policies := by
      rw [← Arena.policies_bare, hbare, Arena.policies_bare, hpolicies]
    have hinterrupted' : (w.perform d).2.arena.interrupted = interrupted :=
      (congrArg Arena.interrupted hbare).trans hinterrupted
    have hwf' : (w.perform d).2.store.heap.WellFormed := by
      rw [hheap]
      exact (Request.act_keeps hwf hp).1
    have hothers' : ∀ d' ∈ rest, (w.perform d).2.store.heap.Plain d'.target ∧
        ∀ o, d'.key ≠ .object o := by
      intro d' hd'
      rw [hheap]
      exact ⟨(Request.act_keeps hwf (hothers d' hd').1).2, (hothers d' hd').2⟩
    obtain ⟨hanswers, hlast, hbare'⟩ := ih hpolicies' hinterrupted' hwf' hothers'
    rw [hheap] at hanswers hlast
    refine ⟨?_, hlast, hbare'.trans hbare⟩
    show (w.perform d).1 :: ((w.perform d).2.performAll rest).1 = _
    rw [hanswer, hanswers]
    rfl

/-- The order of deletes shows in nothing but caches: on a well-formed heap, where no target is a
scripted object and no key an object, every delete has the answer that it has alone, and two orders
leave the same heap, and the same arena apart from what its sites remember. -/
theorem performAll_perm (hwf : w.store.heap.WellFormed) {ds ds' : List Request}
    (hds : ∀ d ∈ ds, w.store.heap.Plain d.target ∧ ∀ o, d.key ≠ .object o)
    (hperm : ds.Perm ds') :
    (w.performAll ds).1 = ds.map (fun d => (w.perform d).1) ∧
      (w.performAll ds').1 = ds'.map (fun d => (w.perform d).1) ∧
      (w.performAll ds).2.store.heap = (w.performAll ds').2.store.heap ∧
      (w.performAll ds).2.arena.bare = (w.performAll ds').2.arena.bare := by
  have hds' : ∀ d ∈ ds', w.store.heap.Plain d.target ∧ ∀ o, d.key ≠ .object o :=
    fun d hd => hds d (hperm.mem_iff.mpr hd)
  have hgood : w.store.heap.WellFormed ∧ ∀ d ∈ ds, w.store.heap.Plain d.target :=
    ⟨hwf, fun d hd => (hds d hd).1⟩
  have hkeep : ∀ d, d ∈ ds → ∀ h : Heap, (h.WellFormed ∧ ∀ d ∈ ds, h.Plain d.target) →
      (d.act w.arena.policies w.arena.interrupted h).2.WellFormed ∧
        ∀ d' ∈ ds, (d.act w.arena.policies w.arena.interrupted h).2.Plain d'.target := by
    rintro d hd h ⟨hwf, hp⟩
    exact ⟨(Request.act_keeps hwf (hp d hd)).1, fun d' hd' => (Request.act_keeps hwf (hp d' hd')).2⟩
  have hexchange : ∀ d d', d ∈ ds → d' ∈ ds → ∀ h : Heap,
      (h.WellFormed ∧ ∀ d ∈ ds, h.Plain d.target) →
        Exchangeable (d.act w.arena.policies w.arena.interrupted)
          (d'.act w.arena.policies w.arena.interrupted) h := by
    rintro d d' hd hd' h ⟨hwf, hp⟩
    exact Request.act_exchangeable hwf (hp d hd) (hp d' hd')
  have halone : ∀ d ∈ ds, (d.act w.arena.policies w.arena.interrupted w.store.heap).1 =
      (w.perform d).1 :=
    fun d hd => (perform_act (hds d hd).1 (hds d hd).2).1.symm
  obtain ⟨hanswers, hheap, hbare⟩ := performAll_act rfl rfl hwf hds
  obtain ⟨hanswers', hheap', hbare'⟩ := performAll_act rfl rfl hwf hds'
  refine ⟨?_, ?_, ?_, hbare.trans hbare'.symm⟩
  · rw [hanswers, inTurn_answers hkeep hexchange (fun d hd => hd) hgood]
    exact List.map_congr_left halone
  · have hmem (d : Request) (hd : d ∈ ds') : d ∈ ds := hperm.mem_iff.mpr hd
    rw [hanswers', inTurn_answers hkeep hexchange hmem hgood]
    exact List.map_congr_left fun d hd => halone d (hmem d hd)
  · rw [hheap, hheap']
    exact inTurn_perm hkeep hexchange hperm (fun d hd => hd) hgood

/-- Two deletes at one site, exchanged, and one of a member besides: the same answers and the same
heap, but the site has come to need its entries in another order. -/
theorem performAll_perm_swap :
    let w : World :=
      { arena := { sites := [.new { strict := true } 4] }
        store := { heap :=
          { natives := [.array [.null]]
            foreigns := [.record { members := [⟨"a", .null, true⟩] }] } } }
    let element : Request := ⟨.site 0, .object ⟨0⟩, Value.ofString "0"⟩
    let length : Request := ⟨.site 0, .object ⟨0⟩, Value.ofString "length"⟩
    let member : Request := ⟨.direct { strict := false }, .foreign ⟨0⟩, Value.ofString "a"⟩
    let run := w.performAll [element, length, member]
    let run' := w.performAll [length, element, member]
    run.1 = [some (.ok true), some (.error (.notConfigurable "length")), some (.ok true)] ∧
      run'.1 = [some (.error (.notConfigurable "length")), some (.ok true), some (.ok true)] ∧
      run.2.store.heap = run'.2.store.heap ∧ run.2.arena.bare = run'.2.arena.bare ∧
      run.2.arena.sites.map (·.cache.entries) ≠ run'.2.arena.sites.map (·.cache.entries) := by
  intro w element length member run run'
  have hwf : w.store.heap.WellFormed := by
    rintro obj (_ | ⟨_, hobj⟩)
    · exact NativeObject.wellFormed_array (by decide)
    · cases hobj
  have hplain (o : ObjectRef) : w.store.heap.Plain (.object o) := nofun
  have hrecord : w.store.heap.Plain (.foreign ⟨0⟩) := by
    intro f hf
    cases hf
    exact ⟨_, rfl, trivial⟩
  have hkey (t : Utf16) (o : ObjectRef) : Value.string t ≠ .object o := nofun
  have hds : ∀ d ∈ [element, length, member],
      w.store.heap.Plain d.target ∧ ∀ o, d.key ≠ .object o := by
    simp only [List.forall_mem_cons]
    exact ⟨⟨hplain _, hkey _⟩, ⟨hplain _, hkey _⟩, ⟨hrecord, hkey _⟩, List.forall_mem_nil _⟩
  have hmember : (w.perform member).1 = some (.ok true) :=
    (perform_act (d := member) hrecord (hkey _)).1.trans (by decide)
  have helement : (w.perform element).1 = some (.ok true) := by decide
  have hlength : (w.perform length).1 = some (.error (.notConfigurable "length")) := by decide
  obtain ⟨hanswers, hanswers', hheap, hbare⟩ :=
    performAll_perm hwf hds (List.Perm.swap length element [member])
  refine ⟨?_, ?_, hheap, hbare, by decide⟩
  · rw [hanswers, List.map_cons, List.map_cons, List.map_cons, helement, hlength, hmember]
    rfl
  · rw [hanswers', List.map_cons, List.map_cons, List.map_cons, helement, hlength, hmember]
    rfl

end World

end PropertyDelete
