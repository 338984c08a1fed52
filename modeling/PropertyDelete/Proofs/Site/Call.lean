import PropertyDelete.Site.Arena

/-!
A call at a site, spelled out. A call that the budget refuses changes nothing at all; any
other call goes by the entry that the site chooses for the shapes of its operands, and then
only the cache of the site is another one. A site keeps its policy and its limit for ever.
-/
namespace PropertyDelete

namespace Operation

variable {Entry Policy Error Result : Type} {op : Operation Entry Policy Error Result}
variable {interrupted : Flags} {site : Site Entry Policy}

theorem execute_refused {e : Error} (h : op.budget site.policy interrupted = .error e)
    (target key : Value) (s : Store) :
    (op.execute interrupted site target key).run s = ((.error e, site), s) := by
  unfold execute
  rw [h]
  rfl

theorem execute_run (h : op.budget site.policy interrupted = .ok ()) (target key : Value)
    (s : Store) :
    (op.execute interrupted site target key).run s =
      let choice := op.choose site ⟨s.heap.shape target, (s.heap.toKey key).shape⟩
      let answer := (op.perform choice.1 site.policy target (s.heap.toKey key)).run s
      ((answer.1, site.withCache choice.2), answer.2) := by
  unfold execute
  rw [h]
  rfl

/-- A call leaves all of a site but its cache. -/
theorem execute_site (op : Operation Entry Policy Error Result) (interrupted : Flags)
    (site : Site Entry Policy) (target key : Value) (s : Store) :
    ∃ cache, ((op.execute interrupted site target key).run s).1.2 = site.withCache cache := by
  cases h : op.budget site.policy interrupted with
  | error e =>
    rw [execute_refused h]
    exact ⟨site.cache, rfl⟩
  | ok u =>
    rw [execute_run h]
    exact ⟨_, rfl⟩

end Operation

namespace Arena

variable {Entry Policy Error Result : Type} {op : Operation Entry Policy Error Result}
variable {a : Arena Entry Policy} {i : Nat}

/-- A call at a site that there is. -/
theorem execute_run {site : Site Entry Policy} (h : a.site? i = some site) (target key : Value)
    (s : Store) :
    (a.execute op i target key).run s =
      let call := (op.execute a.interrupted site target key).run s
      ((some call.1.1, a.setSite i call.1.2), call.2) := by
  unfold execute
  rw [h]
  rfl

theorem execute_absent (h : a.site? i = none) (target key : Value) (s : Store) :
    (a.execute op i target key).run s = ((none, a), s) := by
  unfold execute
  rw [h]
  rfl

/-- The policies of the sites. -/
def policies (a : Arena Entry Policy) : List Policy := a.sites.map Site.policy

theorem policies_getElem? (a : Arena Entry Policy) (i : Nat) :
    a.policies[i]? = (a.site? i).map Site.policy := by
  simp [policies, site?]

/-- A site may be replaced by one of the same policy. -/
theorem policies_setSite {s t : Site Entry Policy} (h : a.site? i = some s)
    (hp : t.policy = s.policy) : (a.setSite i t).policies = a.policies := by
  have hself : a.policies[i]? = some t.policy := by
    rw [policies_getElem?, h, hp]
    rfl
  obtain ⟨hi, he⟩ := List.getElem?_eq_some_iff.mp hself
  show (a.sites.set i t).map Site.policy = a.policies
  rw [List.map_set, ← he]
  exact List.set_getElem_self hi

/-- A call keeps the policies of all sites. -/
theorem policies_execute (op : Operation Entry Policy Error Result) (a : Arena Entry Policy)
    (i : Nat) (target key : Value) (s : Store) :
    ((a.execute op i target key).run s).1.2.policies = a.policies := by
  cases h : a.site? i with
  | none => rw [execute_absent h]
  | some site =>
    rw [execute_run h]
    obtain ⟨cache, hc⟩ := op.execute_site a.interrupted site target key s
    apply policies_setSite h
    rw [hc]
    rfl

theorem interrupted_execute (op : Operation Entry Policy Error Result)
    (a : Arena Entry Policy) (i : Nat) (target key : Value) (s : Store) :
    ((a.execute op i target key).run s).1.2.interrupted = a.interrupted := by
  cases h : a.site? i with
  | none => rw [execute_absent h]
  | some site => rw [execute_run h]; rfl

end Arena
end PropertyDelete
