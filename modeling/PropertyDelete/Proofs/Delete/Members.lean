import PropertyDelete.Proofs.Delete.Frame
import PropertyDelete.Proofs.Foreign.Members
import PropertyDelete.Proofs.Host.Step

/-!
The members of a record over its whole life. The record is built member by member, and from then on
objects are deleted from, sent messages, locked and unlocked, the record itself or any other, in
any order. One access keeps what one message keeps (`Access.apply_record`), and a run is one access
after the other (`Store.afterAccesses_record`). Hence what is safe for good: the members of those
names whose first member is fixed, and all members while the record is locked. A fixed member
behind a removable one of its name is not safe, as it is removed with that one (`members_survive`).
-/
namespace PropertyDelete

namespace Delete

open Heap (Prunes)

theorem generic_prunes (policy : DeletePolicy) (f g : ForeignRef) (key : Key) (s : Store) :
    Prunes f s.heap ((generic policy (.foreign g) key).run s).2.heap := by
  have hheap := (Dialogue.runWith_heldOn g (Foreign.delete key policy) s).2
  show Prunes f s.heap (((Foreign.delete key policy).runWith g).run s).2.heap
  rw [hheap]
  exact .heldOn g _ _

/-- A delete of any target, made in any way, comes to messages at most. -/
theorem Way.run_prunes (w : Way) (target : Value) (f : ForeignRef) (s : Store) :
    Prunes f s.heap ((w.run target).run s).2.heap := by
  by_cases ht : ∃ g, target = .foreign g
  · obtain ⟨g, rfl⟩ := ht
    cases w with
    | route r key =>
      show Prunes f s.heap ((r.run (.foreign g) key).run s).2.heap
      cases hb : r.budget with
      | error e =>
        rw [Route.run_refused hb]
        exact .of_eq rfl
      | ok u =>
        rw [(Route.run_agree hb (.foreign g) key s).2]
        exact generic_prunes r.policy f g _ s
    | generic policy key => exact generic_prunes policy f g key s
    | variant v policy key =>
      have hheap := (invoke_agree v policy (.foreign g) key s s rfl).2
      show Prunes f s.heap ((invoke v policy (.foreign g) key).run s).2.heap
      rw [hheap]
      exact generic_prunes policy f g key s
  · have ht : ∀ g, target ≠ .foreign g := fun g e => ht ⟨g, e⟩
    obtain ⟨hforeigns, -⟩ := native_frame ht w s
    refine .of_eq ?_
    rw [Heap.foreign?, hforeigns]
    rfl

end Delete

open MemberRecord (Preserves)

/-- What is done to the objects of a heap: one is deleted from, or sent a message, or locked or
unlocked. -/
inductive Access where
  | delete (w : Delete.Way) (target : Value)
  | send {k : ReplyKind} (g : ForeignRef) (m : Message k)
  | lock (g : ForeignRef) (flag : Bool)

def Access.apply (s : Store) : Access → Store
  | delete w target => ((w.run target).run s).2
  | send g m => (s.deliver g m).2
  | lock g flag => { s with heap := s.heap.lock g flag }

/-- A store after its objects have been accessed, first access first. -/
def Store.afterAccesses (s : Store) (run : List Access) : Store := run.foldl Access.apply s

variable {s : Store} {f : ForeignRef}

/-- To lock or unlock any object changes no members. -/
theorem Heap.lock_members {h : Heap} {r : MemberRecord} (hr : h.foreign? f = some (.record r))
    (g : ForeignRef) (flag : Bool) :
    ∃ r', (h.lock g flag).foreign? f = some (.record r') ∧ r'.members = r.members := by
  unfold lock
  split
  · next r₀ hg =>
    by_cases hf : f = g
    · subst hf
      obtain rfl : r₀ = r := record_inj hg hr
      exact ⟨_, foreign?_setForeign_self hg _, rfl⟩
    · exact ⟨r, (foreign?_setForeign_of_ne h hf _).trans hr, rfl⟩
  · next m hg =>
    have hf : f ≠ g := by
      rintro rfl
      cases hr.symm.trans hg
    exact ⟨r, (foreign?_setForeign_of_ne h hf _).trans hr, rfl⟩
  · exact ⟨r, hr, rfl⟩

/-- One access loses no guarded member of a record, and no member at all of a locked one. -/
theorem Access.apply_record {r : MemberRecord} (hr : s.heap.foreign? f = some (.record r))
    (a : Access) :
    ∃ r', (a.apply s).heap.foreign? f = some (.record r') ∧ Preserves r r' ∧
      (r.locked = true → r'.members = r.members) := by
  have hpruned : Heap.Prunes f s.heap (a.apply s).heap →
      ∃ r', (a.apply s).heap.foreign? f = some (.record r') ∧ Preserves r r' ∧
        (r.locked = true → r'.members = r.members) := by
    intro h
    obtain ⟨r', hr', hp⟩ := h r hr
    exact ⟨r', hr', hp.preserves, fun hlocked => by rw [hp.inert hlocked]⟩
  cases a with
  | delete w target => exact hpruned (w.run_prunes target f s)
  | send g m =>
    refine hpruned ?_
    show Heap.Prunes f s.heap (s.deliver g m).2.heap
    rw [(s.deliver_eq g m).2]
    exact .told m g
  | lock g flag =>
    obtain ⟨r', hr', hmembers⟩ := Heap.lock_members hr g flag
    exact ⟨r', hr', .of_members hmembers, fun _ => hmembers⟩

/-- No run of accesses loses a guarded member. -/
theorem Store.afterAccesses_record {r : MemberRecord} (run : List Access)
    (hr : s.heap.foreign? f = some (.record r)) :
    ∃ r', (s.afterAccesses run).heap.foreign? f = some (.record r') ∧ Preserves r r' := by
  induction run generalizing s r with
  | nil => exact ⟨r, hr, .of_members rfl⟩
  | cons a rest ih =>
    obtain ⟨r', hr', hstep, -⟩ := a.apply_record hr
    obtain ⟨r'', hr'', hrest⟩ := ih hr'
    exact ⟨r'', hr'', hstep.trans hrest⟩

/-- Whatever is done, in any order, a record stays a record; its members are some of those that it
was built with, in the same order, and among them are all of the names whose first member is fixed;
and what is done while it is locked takes none of them. That no fixed member is ever lost is true
of the records, and only those, whose fixed members all come behind no removable one of the same
name. -/
theorem members_survive (added : List Member)
    (hr : s.heap.foreign? f = some (.record (.built added))) :
    (∀ run, ∃ r, (s.afterAccesses run).heap.foreign? f = some (.record r) ∧
      r.members.Sublist added ∧
      r.members.filter (MemberRecord.built added).isGuarded =
        added.filter (MemberRecord.built added).isGuarded ∧
      ∀ a, r.locked = true →
        ∃ r', (s.afterAccesses (run ++ [a])).heap.foreign? f = some (.record r') ∧
          r'.members = r.members) ∧
    ((∀ run r, (s.afterAccesses run).heap.foreign? f = some (.record r) →
        r.members.filter (!·.removable) = added.filter (!·.removable)) ↔
      ∀ m ∈ added, m.removable = false → (MemberRecord.built added).isGuarded m = true) := by
  have hadded : (MemberRecord.built added).members = added := by rw [MemberRecord.built_eq]
  refine ⟨?_, ?_, ?_⟩
  · intro run
    obtain ⟨r, hafter, hpreserves⟩ := Store.afterAccesses_record run hr
    have hsub := hpreserves.sublist
    have hkept := hpreserves.kept
    rw [hadded] at hsub hkept
    refine ⟨r, hafter, hsub, hkept, fun a hlocked => ?_⟩
    obtain ⟨r', hr', -, hmembers⟩ := a.apply_record hafter
    refine ⟨r', ?_, hmembers hlocked⟩
    rw [Store.afterAccesses, List.foldl_append]
    exact hr'
  · intro hsafe m hm hfixed
    -- if not, one message removes the member
    refine (Bool.eq_false_or_eq_true _).resolve_right fun hloose => ?_
    have hremove := MemberRecord.remove_of_not_isGuarded (hadded.symm ▸ hm)
      (by rw [MemberRecord.built_eq]) hloose
    have hafter : (s.afterAccesses [.send f (.removeMember m.name)]).heap.foreign? f =
        some (.record ((MemberRecord.built added).without m.name)) := by
      show (s.deliver f (.removeMember m.name)).2.heap.foreign? f = _
      rw [(s.deliver_eq f _).2, Heap.told_record _ hr, Heap.foreign?_setForeign_self hr]
      exact congrArg (some ∘ ForeignObject.record) hremove
    have hleft : m ∈ ((MemberRecord.built added).without m.name).members.filter
        (!·.removable) := by
      rw [hsafe _ _ hafter]
      exact List.mem_filter.mpr ⟨hm, by rw [hfixed]; rfl⟩
    have hname := (List.mem_filter.mp (List.mem_filter.mp hleft).1).2
    simp at hname
  · intro hguarded run r hafter
    obtain ⟨r', hafter', hpreserves⟩ := Store.afterAccesses_record run hr
    obtain rfl : r' = r := Heap.record_inj hafter' hafter
    have hfixed := hpreserves.fixed
    rw [hadded] at hfixed
    exact hfixed hguarded

/-- A record with a fixed member before a removable one of the same name. Another member is deleted
through a scripted object, the record is locked, and a removal is tried. -/
theorem members_survive_fixed_first :
    let added : List Member := [⟨"a", .null, false⟩, ⟨"b", .null, true⟩, ⟨"a", .null, true⟩]
    let wrapper : ScriptedObject := { reply? := fun _ => none, base := some ⟨0⟩ }
    let s : Store := { heap := { foreigns := [.record (.built added), .scripted wrapper] } }
    let site : DeleteSite := .new { strict := true, foreignHash := true } 4
    let run : List Access :=
      [.delete (.route (.cached false site) (.ofString "b")) (.foreign ⟨1⟩), .lock ⟨0⟩ true,
        .send ⟨0⟩ (.removeMember "a")]
    s.heap.foreign? ⟨0⟩ = some (.record (.built added)) ∧
      ∃ r, (s.afterAccesses run).heap.foreign? ⟨0⟩ = some (.record r) ∧
        r.members.filter (!·.removable) = [⟨"a", .null, false⟩] ∧ r.members.Sublist added := by
  intro added wrapper s site run
  have hr : s.heap.foreign? ⟨0⟩ = some (.record (.built added)) := rfl
  obtain ⟨hruns, hfixed⟩ := members_survive added hr
  obtain ⟨r, hafter, hsub, -⟩ := hruns run
  have hfirst : ∀ m ∈ added, m.removable = false →
      (MemberRecord.built added).isGuarded m = true := by decide
  exact ⟨hr, r, hafter, hfixed.mpr hfirst run r hafter, hsub⟩

/-- A record with a removable member before a fixed one of the same name: a delete takes both. -/
theorem delete_takes_fixed_namesake :
    let added : List Member := [⟨"a", .null, true⟩, ⟨"a", .boolean true, false⟩]
    let s : Store := { heap := { foreigns := [.record (.built added)] } }
    let run : List Access :=
      [.delete (.route (.direct false) (.ofString "a")) (.foreign ⟨0⟩)]
    s.heap.foreign? ⟨0⟩ = some (.record (.built added)) ∧ ⟨"a", .boolean true, false⟩ ∈ added ∧
      ∃ r, (s.afterAccesses run).heap.foreign? ⟨0⟩ = some (.record r) ∧ r.members = [] := by
  intro added s run
  have hr : s.heap.foreign? ⟨0⟩ = some (.record (.built added)) := rfl
  have hkey : s.heap.toKey (.ofString "a") = .text (.ofString "a") := by decide
  have hheap := (Delete.Route.run_foreign (r := .direct false) rfl ⟨0⟩ (.ofString "a") s).2
  rw [hkey, Foreign.delete_host _ _ hr trivial] at hheap
  refine ⟨hr, by decide,
    ((MemberRecord.built added).delete (.text (.ofString "a")) false).2, ?_, by decide⟩
  show (((Delete.Route.direct false).run (.foreign ⟨0⟩) (.ofString "a")).run s).2.heap.foreign?
    ⟨0⟩ = _
  rw [hheap, Heap.foreign?_setForeign_self hr]
  rfl

end PropertyDelete
