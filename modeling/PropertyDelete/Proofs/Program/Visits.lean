import PropertyDelete.Proofs.Program.Numbering
import PropertyDelete.Proofs.Site.Run

/-!
Which sites evaluation calls, and when. Between calls at its sites evaluation leaves the
interpreter alone, so what it does to a machine is told by the numbers of the sites that it
calls, first one first (`Machine.Calls`). For a node these are the numbers in it, in order, all
of them if evaluation ends normally and the first ones of them if it throws (`evaluate_visits`).
So a site that is not in the node stays as it is, and one that occurs once in it is changed once
at most.
-/
namespace PropertyDelete

namespace SiteCache

variable {Entry : Type} {c d e : SiteCache Entry} {m n : Nat}

/-- Whether a cache becomes another one by so many changes at most. Each change raises the version
by one. -/
def Raised (n : Nat) (c d : SiteCache Entry) : Prop :=
  (d = c ∨ c.version < d.version) ∧ d.version ≤ c.version + n

namespace Raised

theorem refl (c : SiteCache Entry) (n : Nat) : c.Raised n c := ⟨Or.inl rfl, by omega⟩

theorem once (h : d = c ∨ d.version = c.version + 1) : c.Raised 1 d := by
  rcases h with rfl | h
  · exact refl d 1
  · exact ⟨Or.inr (by omega), by omega⟩

theorem trans (h : c.Raised m d) (h' : d.Raised n e) : c.Raised (m + n) e := by
  obtain ⟨hd, hm⟩ := h
  obtain ⟨he, hn⟩ := h'
  refine ⟨?_, by omega⟩
  rcases he with rfl | he
  · exact hd
  · rcases hd with rfl | hd
    · exact Or.inr he
    · exact Or.inr (by omega)

/-- One change at most raises the version by one, if it is a change at all. -/
theorem eq_or (h : c.Raised n d) (hn : n ≤ 1) : d = c ∨ d.version = c.version + 1 := by
  obtain ⟨hd, hle⟩ := h
  rcases hd with rfl | hd
  · exact Or.inl rfl
  · exact Or.inr (by omega)

end Raised

end SiteCache

namespace Arena

variable {Entry Policy Error Result : Type} {op : Operation Entry Policy Error Result}
variable {a : Arena Entry Policy} {i j : Nat}

/-- A call at a site leaves the other ones as they are. -/
theorem site?_execute_of_ne (h : j ≠ i) (target key : Value) (s : Store) :
    ((a.execute op i target key).run s).1.2.site? j = a.site? j := by
  cases hs : a.site? i with
  | none => rw [execute_absent hs]
  | some site =>
    rw [execute_run hs]
    simp only [setSite, site?]
    exact List.getElem?_set_ne (Ne.symm h)

/-- A call at a site changes its cache once at most, and nothing else of it. -/
theorem site?_execute_self {site : Site Entry Policy} (h : a.site? i = some site)
    (target key : Value) (s : Store) :
    ∃ cache, ((a.execute op i target key).run s).1.2.site? i = some (site.withCache cache) ∧
      site.cache.Raised 1 cache := by
  obtain ⟨cache, hsite, hversion⟩ := op.execute_cache a.interrupted site target key s
  refine ⟨cache, ?_, .once hversion⟩
  have hi : i < a.sites.length := (List.getElem?_eq_some_iff.mp h).1
  rw [execute_run h]
  simp [setSite, site?, hi, hsite]

end Arena

namespace Machine

def site? (m : Machine) (k : UInt32) : Option DeleteSite := m.interpreter.arena.site? k.toNat

/-- The machine after a call at a site. -/
def afterCall (m : Machine) (site : UInt32) (base key : Value) : Machine :=
  let call := (m.interpreter.arena.execute deletion site.toNat base key).run m.store
  { interpreter := { m.interpreter with arena := call.1.2 }, store := call.2 }

section AfterCall

variable {m : Machine} {k site : UInt32} (base key : Value)

theorem site?_afterCall_of_ne (h : k ≠ site) : (m.afterCall site base key).site? k = m.site? k :=
  Arena.site?_execute_of_ne (fun e => h (UInt32.toNat_inj.mp e)) base key m.store

theorem site?_afterCall_self {s : DeleteSite} (h : m.site? k = some s) :
    ∃ cache, (m.afterCall k base key).site? k = some (s.withCache cache) ∧
      s.cache.Raised 1 cache :=
  Arena.site?_execute_self h base key m.store

end AfterCall

/-- Whether a machine becomes another one by calls at the sites of some numbers, first one first.
Before, between and after the calls anything may happen to the store. -/
inductive Calls : List UInt32 → Machine → Machine → Prop
  | done (m : Machine) : Calls [] m m
  | aside {ks : List UInt32} {m n : Machine} (s : Store) (rest : Calls ks { m with store := s } n) :
    Calls ks m n
  | call {ks : List UInt32} {m n : Machine} (site : UInt32) (base key : Value)
    (rest : Calls ks (m.afterCall site base key) n) : Calls (site :: ks) m n

namespace Calls

variable {ks ls : List UInt32} {m n u : Machine} {k : UInt32}

theorem append (h : Calls ks m n) (h' : Calls ls n u) : Calls (ks ++ ls) m u := by
  induction h with
  | done m => exact h'
  | aside s _ ih => exact .aside s (ih h')
  | call site base key _ ih => exact .call site base key (ih h')

/-- A site that is not called stays as it is. -/
theorem site?_of_not_mem (h : Calls ks m n) (hk : k ∉ ks) : n.site? k = m.site? k := by
  induction h with
  | done m => rfl
  | aside s _ ih => exact ih hk
  | call site base key _ ih =>
    simp only [List.mem_cons, not_or] at hk
    rw [ih hk.2, site?_afterCall_of_ne base key hk.1]

/-- A site keeps its number, its policy and its limit, and its cache changes at most as often as
the site is called. -/
theorem site?_of_some (h : Calls ks m n) {site : DeleteSite} (hs : m.site? k = some site) :
    ∃ cache, n.site? k = some (site.withCache cache) ∧
      site.cache.Raised (ks.count k) cache := by
  induction h generalizing site with
  | done m => exact ⟨site.cache, hs, .refl _ _⟩
  | aside s _ ih => exact ih hs
  | call other base key _ ih =>
    by_cases hk : k = other
    · subst hk
      obtain ⟨cache, hcall, hraised⟩ := site?_afterCall_self base key hs
      obtain ⟨last, hlast, hlater⟩ := ih hcall
      refine ⟨last, hlast, ?_⟩
      rw [List.count_cons_self, Nat.add_comm]
      exact hraised.trans hlater
    · obtain ⟨last, hlast, hlater⟩ := ih ((site?_afterCall_of_ne base key hk).trans hs)
      refine ⟨last, hlast, ?_⟩
      rwa [List.count_cons_of_ne (Ne.symm hk)]

end Calls

end Machine

/-- Whether a part of evaluation calls the sites of some numbers, in order: all of them if it ends
normally, and the first ones of them if it throws. -/
def Visits {α : Type} (x : Evaluation α) (sites : List UInt32) : Prop :=
  ∀ m, ∃ ks, ks <+: sites ∧ Machine.Calls ks m (x.run.run m).2 ∧
    ∀ a, (x.run.run m).1 = .ok a → ks = sites

namespace Visits

variable {α β : Type}

theorem pure' (a : α) : Visits (pure a) [] :=
  fun m => ⟨[], List.prefix_rfl, .done m, fun _ _ => rfl⟩

theorem get' : Visits (get : Evaluation Machine) [] :=
  fun m => ⟨[], List.prefix_rfl, .done m, fun _ _ => rfl⟩

/-- What only changes the store calls no site. -/
theorem aside {x : Evaluation α} (h : ∀ m, ∃ s, (x.run.run m).2 = { m with store := s }) :
    Visits x [] := by
  intro m
  obtain ⟨s, hs⟩ := h m
  refine ⟨[], List.prefix_rfl, ?_, fun _ _ => rfl⟩
  rw [hs]
  exact .aside s (.done _)

theorem raise (name message : String) : Visits (Evaluation.raise name message : Evaluation α) [] :=
  aside fun _ => ⟨_, rfl⟩

theorem onStore (x : StoreM α) : Visits (Evaluation.onStore x) [] := aside fun _ => ⟨_, rfl⟩

theorem bind {x : Evaluation α} {f : α → Evaluation β} {s t : List UInt32} (hx : Visits x s)
    (hf : ∀ a, Visits (f a) t) : Visits (x >>= f) (s ++ t) := by
  intro m
  obtain ⟨ks, hfirst, hcalls, hall⟩ := hx m
  rw [run_bind]
  rcases hr : x.run.run m with ⟨r, n⟩
  rw [hr] at hcalls hall
  cases r with
  | error e => exact ⟨ks, hfirst.trans (List.prefix_append _ _), hcalls, nofun⟩
  | ok a =>
    obtain rfl := hall a rfl
    obtain ⟨ls, hrest, hcalls', hall'⟩ := hf a n
    refine ⟨ks ++ ls, (List.prefix_append_right_inj ks).mpr hrest, hcalls.append hcalls', ?_⟩
    intro b hb
    rw [hall' b hb]

/-- What calls no site before something else leaves the calls of that. -/
theorem before {x : Evaluation α} {f : α → Evaluation β} {t : List UInt32} (hx : Visits x [])
    (hf : ∀ a, Visits (f a) t) : Visits (x >>= f) t := hx.bind hf

theorem global (name : String) : Visits (Evaluation.global name) [] := by
  apply get'.before
  intro m
  cases m.interpreter.globals.get? name with
  | some v => exact pure' v
  | none => exact raise _ _

theorem requireObject (base key : Value) : Visits (Evaluation.requireObject base key) [] := by
  unfold Evaluation.requireObject
  split
  · exact get'.before fun m => raise _ _
  · exact pure' ()

theorem readMember (base key : Value) : Visits (Evaluation.readMember base key) [] := by
  apply (requireObject base key).before
  intro _
  exact get'.before fun m => onStore _

theorem settle (answer : Option Outcome) : Visits (Evaluation.settle answer) [] := by
  match answer with
  | none => exact raise _ _
  | some (.ok deleted) => exact pure' _
  | some (.error e) => exact raise _ _

theorem callSite (base key : Value) (site : UInt32) :
    Visits (Evaluation.callSite base key site) [site] := by
  intro m
  obtain ⟨ks, hfirst, hcalls, hall⟩ :=
    settle ((m.interpreter.arena.execute deletion site.toNat base key).run m.store).1.1
      (m.afterCall site base key)
  obtain rfl := List.prefix_nil.mp hfirst
  rw [Evaluation.callSite_run]
  exact ⟨[site], List.prefix_rfl, .call site base key hcalls, fun _ _ => rfl⟩

theorem deleteMember (base key : Value) (site : UInt32) :
    Visits (Evaluation.deleteMember base key site) [site] := by
  rw [Evaluation.deleteMember_eq]
  exact (requireObject base key).before fun _ => callSite base key site

end Visits

theorem visits_law : EvaluationLaw fun _ x sites => Visits x sites where
  pure' := .pure'
  get' := .get'
  bind := .bind
  global := .global
  readMember := .readMember
  deleteMember := .deleteMember

/-- Evaluation calls the sites in a node in the order in which the node has them. -/
theorem Node.evaluate_visits (node : Node) : Visits node.evaluate node.sites :=
  node.evaluate_law visits_law

end PropertyDelete
