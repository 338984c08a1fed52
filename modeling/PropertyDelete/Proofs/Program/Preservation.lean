import PropertyDelete.Proofs.Delete.Paths
import PropertyDelete.Proofs.Program.Meaning
import PropertyDelete.Proofs.Program.Sites
import PropertyDelete.Proofs.Text.Conventions

/-!
Compilation preserves meaning. What a member is to read as and what a literal is to mean are what
evaluation reads and what compilation takes (`Store.member_eq`, `Literal.meaning_of_value`). An
evaluation matches a meaning (`Matches`) if both come to the same value or throw the same one and
leave the same heap, from every state of the interpreter that differs from the present one only in
what its sites remember. The relation goes through bind, since evaluation never does more to an
interpreter than that (`Keeps`), and it holds at a delete, since a site answers what the generic
path answers. By induction on the expression, every node matches the meaning of the expression that
it was compiled from. Numbers of sites have 32 bits, so this is said of programs that are compiled
while there are fewer than 2^32 sites; whatever is compiled after them takes no site from them.
-/
namespace PropertyDelete

/-! ## Members and literals -/

theorem NativeObject.ownValue?_eq (o : NativeObject) (name : String) :
    o.ownValue? name = (o.ownProperty? name).map fun d => d.value.getD .undefined := by
  unfold ownValue? ownProperty? isArrayLike
  cases o.table.find? name with
  | some d => rfl
  | none =>
    cases he : o.elements with
    | none => rfl
    | some slots =>
      by_cases hname : name = "length"
      · simp only [hname, if_true, Option.isSome_some, Bool.not_true, Bool.false_eq_true, if_false]
        rw [lengthProperty, length, he]
        rfl
      · simp only [hname, if_false, Option.isSome_some, Bool.not_true, Bool.false_eq_true]
        cases ArrayIndex.slot? name with
        | none => rfl
        | some i =>
          rw [Option.bind_some, Option.bind_some, element?, he, Option.bind_some]
          cases slots[i]?.join <;> rfl

/-- The value that is found first along a prototype chain is that of the property found first. -/
theorem Heap.valueWithin_eq (h : Heap) (name : String) (bound : Nat) (o : ObjectRef) :
    h.valueWithin name bound o =
      (((h.chain bound o).findSome? fun p => (h.native p).ownProperty? name).bind
        Descriptor.value).getD .undefined := by
  induction bound generalizing o with
  | zero => rfl
  | succ bound ih =>
    rw [valueWithin, chain, List.findSome?_cons, NativeObject.ownValue?_eq]
    cases (h.native o).ownProperty? name with
    | some d => rfl
    | none =>
      cases (h.native o).prototype with
      | some p => exact ih p
      | none => rfl

/-- The member of a value that a program is to come to is the one that evaluation reads. -/
theorem Store.member_eq (base : Value) (key : Key) : Store.member base key = Store.read base key := by
  unfold Store.member Store.read
  refine bind_congr fun s => ?_
  cases base with
  | object o =>
    have hvalue : s.heap.property o key.storageText =
        s.heap.valueWithin key.storageText (s.heap.natives.length + 1) o :=
      (s.heap.valueWithin_eq key.storageText _ o).symm
    dsimp only [Heap.target]
    cases (s.heap.native o).isArrayLike <;> simp [hvalue]
  | string t =>
    cases key with
    | index i => cases hunit : t.units[i]? <;> simp [Heap.target, hunit]
    | text name => simp [Heap.target, Key.isNamed, Utf16.equalsString, Utf16.length]
    | symbol sym => rfl
  | foreign f =>
    refine bind_congr fun d => ?_
    cases d <;> rfl
  | _ => cases key <;> rfl

/-- A literal that has a value means it. -/
theorem Literal.meaning_of_value {l : Literal} {v : Value} (h : l.value = .ok v) :
    l.meaning = v := by
  cases l with
  | bigint text =>
    rw [Literal.value] at h
    cases hz : Decimal.readInteger? text.toList with
    | some z =>
      rw [hz] at h
      cases h
      rw [Literal.meaning, ((Decimal.readsNumerals_readInteger? _ _).mp hz).2]
    | none =>
      rw [hz] at h
      cases h
  | _ => exact Except.ok.inj h

/-! ## Evaluation and meaning -/

/-- Whether evaluation by an interpreter in the state `i` comes to what a meaning comes to: from
the same heap both end in the same way and leave the same heap. What the sites of `i` remember
is left open. -/
def Matches {α : Type} (i : Interpreter) (x : Evaluation α) (y : Meaning α) : Prop :=
  ∀ (m : Machine) (s : Store), i.Unmoved m.interpreter → m.store.heap = s.heap →
    (x.run.run m).1 = (y.run.run s).1 ∧ (x.run.run m).2.store.heap = (y.run.run s).2.heap

theorem Evaluation.raise_run {α : Type} (name message : String) (m : Machine) :
    (raise name message : Evaluation α).run.run m =
      let answer := m.store.allocate (m.interpreter.errorObject name message)
      (.error (.object answer.1), { m with store := answer.2 }) := rfl

theorem Scope.raise_run {α : Type} (c : Scope) (name message : String) (s : Store) :
    (c.raise name message : Meaning α).run.run s =
      let answer := s.allocate (c.error name message)
      (.error (.object answer.1), answer.2) := rfl

/-- A delete of a member first asks whether it may run, like a call at a site. -/
theorem Scope.perform_run {c : Scope} (flags : Flags) (hflags : c.interrupted = flags.isSet .main)
    (base key : Value) (s : Store) :
    (c.perform base key).run.run s =
      let call := (Delete.checked c.policy flags base key).run s
      (c.settle call.1).run.run call.2 := by
  have hbudget : Delete.budget c.policy flags =
      if c.interrupted then .error .interrupted else .ok () := by
    rw [hflags]
    rfl
  unfold perform
  cases hb : c.interrupted with
  | true =>
    rw [hb, if_pos rfl] at hbudget
    rw [Delete.checked_refused hbudget]
    rfl
  | false =>
    rw [hb, if_neg Bool.false_ne_true] at hbudget
    rw [Delete.checked_run hbudget]
    rfl

namespace Matches

variable {α β : Type} {i : Interpreter} {strict : Bool}

theorem pure' (a : α) : Matches i (pure a) (pure a) := fun _ _ _ h => ⟨rfl, h⟩

theorem bind {x : Evaluation α} {y : Meaning α} {f : α → Evaluation β} {g : α → Meaning β}
    (hk : Keeps x) (hx : Matches i x y) (hf : ∀ a, Matches i (f a) (g a)) :
    Matches i (x >>= f) (y >>= g) := by
  intro m s hi hs
  -- the second half starts from an interpreter that is still only a cache away from `i`
  have hn := hi.trans (hk m)
  obtain ⟨hv, hh⟩ := hx m s hi hs
  rw [run_bind, run_bind]
  rcases hm : x.run.run m with ⟨r, n⟩
  rcases ht : y.run.run s with ⟨q, t⟩
  rw [hm] at hn hv hh
  rw [ht] at hv hh
  subst hv
  cases r with
  | ok a => exact hf a n t hn hh
  | error e => exact ⟨rfl, hh⟩

/-- Both sides look at the heap, and go on with the same one. -/
theorem get_bind {f : Machine → Evaluation α} {g : Store → Meaning α}
    (h : ∀ (m : Machine) (s : Store), i.Unmoved m.interpreter → m.store.heap = s.heap →
      Matches i (f m) (g s)) : Matches i (get >>= f) (get >>= g) :=
  fun m s hi hs => h m s hi hs m s hi hs

theorem onStore {x y : StoreM α} (h : Agree x y) : Matches i (Evaluation.onStore x) (liftM y) := by
  intro m s _ hs
  obtain ⟨hv, hh⟩ := h m.store s hs
  exact ⟨congrArg Except.ok hv, hh⟩

theorem raise (name message : String) :
    Matches i (Evaluation.raise name message : Evaluation α)
      ((i.scope strict).raise name message) := by
  intro m s hi hs
  have herr : m.interpreter.errorObject name message = (i.scope strict).error name message := by
    unfold Interpreter.errorObject
    rw [hi.errorPrototype]
    rfl
  obtain ⟨hv, hh⟩ := Store.allocate_agree ((i.scope strict).error name message) hs
  rw [Evaluation.raise_run, Scope.raise_run, herr]
  exact ⟨congrArg (fun o => Except.error (Value.object o)) hv, hh⟩

theorem global (name : String) :
    Matches i (Evaluation.global name)
      (match (i.scope strict).globals.get? name with
        | some v => return v
        | none => (i.scope strict).raise "ReferenceError" (name ++ " is not defined")) := by
  intro m s hi hs
  have hg : m.interpreter.globals = (i.scope strict).globals := hi.globals
  have hrun : (Evaluation.global name).run.run m =
      (match m.interpreter.globals.get? name with
        | some v => pure v
        | none => Evaluation.raise "ReferenceError" (name ++ " is not defined")
        : Evaluation Value).run.run m := rfl
  rw [hrun, hg]
  cases (i.scope strict).globals.get? name with
  | some v => exact pure' v m s hi hs
  | none => exact raise _ _ m s hi hs

theorem raiseNoObject (base : Value) {text : String} (htext : ∀ h : Heap, h.display base = text)
    (key : Value) :
    Matches i
      (get >>= fun m : Machine => Evaluation.raiseTypeError ("Cannot convert " ++
        m.store.heap.display base ++ " to object (property '" ++
          (m.store.heap.toKey key).display ++ "')"))
      ((i.scope strict).raiseNoObject text key) := by
  refine get_bind fun m s _ hs => ?_
  rw [hs, htext]
  exact raise _ _

theorem requireObject (base key : Value) :
    Matches i (Evaluation.requireObject base key) ((i.scope strict).requireObject base key) := by
  unfold Evaluation.requireObject Scope.requireObject
  cases base with
  | undefined => exact raiseNoObject .undefined (fun _ => rfl) key
  | null => exact raiseNoObject .null (fun _ => rfl) key
  | _ => exact pure' ()

theorem readMember (base key : Value) :
    Matches i (Evaluation.readMember base key) ((i.scope strict).read base key) := by
  unfold Evaluation.readMember Scope.read
  refine bind (Keeps.requireObject base key) (requireObject base key) fun _ => ?_
  refine get_bind fun m s _ hs => ?_
  rw [hs]
  dsimp only
  rw [Store.member_eq]
  exact onStore (Store.read_agree base _)

theorem settle (answer : Outcome) :
    Matches i (Evaluation.settle (some answer)) ((i.scope strict).settle answer) := by
  cases answer with
  | ok deleted => exact pure' _
  | error e => cases e <;> exact raise _ _

/-- A call at a site that has the policy of the program is a delete in the generic way, whatever
the site remembers. -/
theorem callSite {site : UInt32}
    (hp : i.arena.policies[site.toNat]? = some (i.scope strict).policy) (base key : Value) :
    Matches i (Evaluation.callSite base key site) ((i.scope strict).perform base key) := by
  intro m s hi hs
  rw [← hi.policies, Arena.policies_getElem?] at hp
  obtain ⟨st, hst, hpol⟩ := Option.map_eq_some_iff.mp hp
  have hcall := hi.trans (Interpreter.Unmoved.call m.interpreter site.toNat base key m.store)
  -- whatever entries the site has, it answers like a delete that has none
  have hagree := Delete.execute_agree m.interpreter.arena.interrupted st base key hs
  rw [hpol, hi.interrupted] at hagree
  rw [Evaluation.callSite_run, Scope.perform_run i.arena.interrupted rfl]
  rw [Arena.execute_run hst, hi.interrupted] at hcall ⊢
  obtain ⟨hv, hh⟩ := hagree
  dsimp only
  rw [← hv]
  exact settle _ ⟨_, _⟩ _ hcall hh

theorem deleteMember {site : UInt32}
    (hp : i.arena.policies[site.toNat]? = some (i.scope strict).policy) (base key : Value) :
    Matches i (Evaluation.deleteMember base key site) ((i.scope strict).delete base key) := by
  rw [Evaluation.deleteMember_eq]
  exact bind (Keeps.requireObject base key) (requireObject base key) fun _ =>
    callSite hp base key

end Matches

namespace Expression

theorem meaning_delete_value (c : Scope) {operand : Expression}
    (h : operand.isReference = false) :
    meaning c (.delete operand) = do
      let _ ← meaning c operand
      return .boolean true := by
  cases operand with
  | identifier i => cases h
  | dot object name => cases h
  | index object key => cases h
  | _ => simp only [meaning]

/-- Whether an interpreter has the sites of an arena in their places, and these are few enough for
each to have a number of its own. -/
structure Placed (i : Interpreter) (b : DeleteArena) : Prop where
  policies : b.policies <+: i.arena.policies
  size : b.size < 2 ^ 32

theorem Placed.of_extends {i : Interpreter} {a b : DeleteArena} (hb : Placed i b)
    (h : a.policies <+: b.policies) : Placed i a where
  policies := h.trans hb.policies
  size := by
    have hle := h.length_le
    simp only [Arena.policies, List.length_map] at hle
    exact Nat.lt_of_le_of_lt hle hb.size

/-- A new site has the policy of the program, and keeps its number. -/
theorem allocateSite_policy {i : Interpreter} {o : Options} {strict : Bool} {a b : DeleteArena}
    {site : UInt32} (h : (allocateSite o strict).run.run a = (.ok site, b)) (hb : Placed i b) :
    i.arena.policies[site.toNat]? =
      some { strict, foreignHash := o.foreignHash, interruptible := true } := by
  cases h
  obtain ⟨⟨rest, hrest⟩, hsize⟩ := hb
  have hlt : a.sites.length < 2 ^ 32 := by
    simp only [Arena.size, List.length_append, List.length_singleton] at hsize
    omega
  rw [← hrest, UInt32.toNat_ofNat_of_lt' hlt]
  simp [Arena.policies, Site.new]

/-- Whether every node that an expression can be compiled to, with sites that the interpreter
has, matches the meaning of the expression. -/
def Sound (i : Interpreter) (strict : Bool) (e : Expression) : Prop :=
  ∀ {a b : DeleteArena} {node : Node},
    (compile i.options strict e).run.run a = (.ok node, b) → Placed i b →
      Matches i node.evaluate (e.meaning (i.scope strict))

/-- `Sound` of several expressions. -/
def AllSound (i : Interpreter) (strict : Bool) (es : List Expression) : Prop :=
  ∀ {a b : DeleteArena} {nodes : List Node},
    (compileAll i.options strict es).run.run a = (.ok nodes, b) → Placed i b →
      ∀ last, Matches i (Node.evaluateAll nodes last) (meaningAll (i.scope strict) es last)

namespace Sound

variable {i : Interpreter} {strict : Bool}

theorem literal (l : Literal) : Sound i strict (.literal l) := by
  intro a b node h _
  simp only [compile] at h
  obtain ⟨v, t, hv, hnode⟩ := run_bind_ok h
  cases hnode
  simp only [Node.evaluate, meaning]
  cases hl : l.value with
  | ok w =>
    rw [hl] at hv
    cases hv
    rw [Literal.meaning_of_value hl]
    exact Matches.pure' _
  | error e =>
    rw [hl] at hv
    cases hv

theorem identifier (x : Identifier) : Sound i strict (.identifier x) := by
  intro a b node h _
  simp only [compile] at h
  cases h
  simp only [Node.evaluate, meaning]
  exact Matches.global x.name

theorem dot {object : Expression} (ho : Sound i strict object) (name : Identifier) :
    Sound i strict (.dot object name) := by
  intro a b node h hb
  simp only [compile] at h
  obtain ⟨n, t, hobject, hnode⟩ := run_bind_ok h
  cases hnode
  simp only [Node.evaluate, meaning, pure_bind]
  exact Matches.bind (Node.evaluate_keeps n) (ho hobject hb) fun base =>
    Matches.readMember base _

theorem index {object key : Expression} (ho : Sound i strict object)
    (hk : Sound i strict key) : Sound i strict (.index object key) := by
  intro a b node h hb
  simp only [compile] at h
  obtain ⟨n, t, hobject, h⟩ := run_bind_ok h
  obtain ⟨k, u, hkey, hnode⟩ := run_bind_ok h
  cases hnode
  have ht := compile_grows i.options strict key t
  rw [hkey] at ht
  simp only [Node.evaluate, meaning]
  refine Matches.bind (Node.evaluate_keeps n) (ho hobject (hb.of_extends ht)) fun base => ?_
  refine Matches.bind (Node.evaluate_keeps k) (hk hkey hb) fun key => ?_
  exact Matches.readMember base key

theorem privateMember (object : Expression) (name : Identifier) :
    Sound i strict (.privateMember object name) := by
  intro a b node h _
  simp only [compile] at h
  obtain ⟨n, t, _, hnode⟩ := run_bind_ok h
  cases hnode

theorem deleteDot {object : Expression} (ho : Sound i strict object) (name : Identifier) :
    Sound i strict (.delete (.dot object name)) := by
  intro a b node h hb
  simp only [compile] at h
  obtain ⟨n, t, hobject, h⟩ := run_bind_ok h
  obtain ⟨site, u, hsite, hnode⟩ := run_bind_ok h
  cases hnode
  have ht := Grows.allocateSite i.options strict t
  rw [hsite] at ht
  have hp := allocateSite_policy hsite hb
  simp only [Node.evaluate, meaning, pure_bind]
  exact Matches.bind (Node.evaluate_keeps n) (ho hobject (hb.of_extends ht)) fun base =>
    Matches.deleteMember hp base _

/-- The base is evaluated first, then the key, and only then is the site called, which has been
there since the program was compiled. -/
theorem deleteIndex {object key : Expression} (ho : Sound i strict object)
    (hk : Sound i strict key) : Sound i strict (.delete (.index object key)) := by
  intro a b node h hb
  simp only [compile] at h
  obtain ⟨n, t, hobject, h⟩ := run_bind_ok h
  obtain ⟨k, u, hkey, h⟩ := run_bind_ok h
  obtain ⟨site, v, hsite, hnode⟩ := run_bind_ok h
  cases hnode
  have ht := compile_grows i.options strict key t
  rw [hkey] at ht
  -- the site comes after those of both operands, and later compilations come after it
  have hu := Grows.allocateSite i.options strict u
  rw [hsite] at hu
  have hp := allocateSite_policy hsite hb
  have hub := hb.of_extends hu
  simp only [Node.evaluate, meaning]
  refine Matches.bind (Node.evaluate_keeps n) (ho hobject (hub.of_extends ht)) fun base => ?_
  refine Matches.bind (Node.evaluate_keeps k) (hk hkey hub) fun key => ?_
  exact Matches.deleteMember hp base key

theorem deleteIdentifier (x : Identifier) : Sound i strict (.delete (.identifier x)) := by
  intro a b node h _
  simp only [compile] at h
  cases strict with
  | true => cases h
  | false =>
    cases h
    simp only [Node.evaluate, meaning]
    -- no defined variable is ever deleted, so the globals still decide the answer
    intro m s hi hs
    have hg : m.interpreter.globals = (i.scope false).globals := hi.globals
    refine ⟨?_, hs⟩
    show Except.ok (Value.boolean (!m.interpreter.globals.contains x.name)) = _
    rw [hg]
    rfl

theorem deleteValue {operand : Expression} (h : operand.isReference = false)
    (ho : Sound i strict operand) : Sound i strict (.delete operand) := by
  intro a b node hcompile hb
  rw [compile_delete_value i.options strict h] at hcompile
  obtain ⟨n, t, hoperand, hnode⟩ := run_bind_ok hcompile
  cases hnode
  rw [meaning_delete_value (i.scope strict) h]
  simp only [Node.evaluate]
  exact Matches.bind (Node.evaluate_keeps n) (ho hoperand hb) fun _ => Matches.pure' _

theorem sequence {items : List Expression} (hi : AllSound i strict items) :
    Sound i strict (.sequence items) := by
  intro a b node h hb
  simp only [compile] at h
  obtain ⟨nodes, t, hitems, hnode⟩ := run_bind_ok h
  cases hnode
  simp only [Node.evaluate, meaning]
  exact hi hitems hb .undefined

end Sound

namespace AllSound

variable {i : Interpreter} {strict : Bool}

theorem nil : AllSound i strict [] := by
  intro a b nodes h _ last
  simp only [compileAll] at h
  cases h
  simp only [Node.evaluateAll, meaningAll]
  exact Matches.pure' last

theorem cons {e : Expression} {rest : List Expression} (he : Sound i strict e)
    (hrest : AllSound i strict rest) : AllSound i strict (e :: rest) := by
  intro a b nodes h hb last
  simp only [compileAll] at h
  obtain ⟨n, t, hnode, h⟩ := run_bind_ok h
  obtain ⟨ns, u, hnodes, hall⟩ := run_bind_ok h
  cases hall
  have ht := compileAll_grows i.options strict rest t
  rw [hnodes] at ht
  simp only [Node.evaluateAll, meaningAll]
  exact Matches.bind (Node.evaluate_keeps n) (he hnode (hb.of_extends ht)) fun v =>
    hrest hnodes hb v

end AllSound

mutual

theorem sound (i : Interpreter) (strict : Bool) : ∀ e : Expression, Sound i strict e
  | .literal l => Sound.literal l
  | .identifier x => Sound.identifier x
  | .dot object name => Sound.dot (sound i strict object) name
  | .index object key => Sound.index (sound i strict object) (sound i strict key)
  | .privateMember object name => Sound.privateMember object name
  | .delete (.dot object name) => Sound.deleteDot (sound i strict object) name
  | .delete (.index object key) =>
    Sound.deleteIndex (sound i strict object) (sound i strict key)
  | .delete (.identifier x) => Sound.deleteIdentifier x
  | .delete (.literal l) => Sound.deleteValue rfl (sound i strict (.literal l))
  | .delete (.privateMember object name) =>
    Sound.deleteValue rfl (sound i strict (.privateMember object name))
  | .delete (.delete operand) => Sound.deleteValue rfl (sound i strict (.delete operand))
  | .delete (.sequence items) => Sound.deleteValue rfl (sound i strict (.sequence items))
  | .sequence items => Sound.sequence (allSound i strict items)

theorem allSound (i : Interpreter) (strict : Bool) :
    ∀ es : List Expression, AllSound i strict es
  | [] => AllSound.nil
  | e :: rest => AllSound.cons (sound i strict e) (allSound i strict rest)

end

end Expression

namespace Machine

/-- A program that was compiled when there were fewer than 2^32 sites comes, at every later time
and on every store, to what its source means then: it ends in the same way and leaves the same
heap, and of the interpreter it changes nothing but what sites remember. -/
theorem evaluate_compiled {i j : Interpreter} {e : Expression} {strict : Bool} {script : Script}
    (hc : i.compile e strict = (.ok script, j)) (hsize : j.arena.size < 2 ^ 32) (m : Machine)
    (hl : j.Later m.interpreter) :
    let source := (e.meaning (m.interpreter.scope strict)).run.run m.store
    (m.evaluate script).1 = source.1 ∧ (m.evaluate script).2.store.heap = source.2.heap ∧
      m.interpreter.Unmoved (m.evaluate script).2.interpreter := by
  intro source
  unfold Interpreter.compile at hc
  rcases hr : (e.compile i.options strict).run.run i.arena with ⟨answer, arena⟩
  rw [hr] at hc
  cases answer with
  | error err => cases hc
  | ok node =>
    cases hc
    obtain ⟨ho, hp⟩ := hl.kept
    rw [← show m.interpreter.options = i.options from ho] at hr
    obtain ⟨hv, hh⟩ := e.sound m.interpreter strict hr ⟨hp, hsize⟩ m m.store (.refl _) rfl
    exact ⟨hv, hh, node.evaluate_keeps m⟩

/-- A delete inside the key of a delete, `delete list[delete list.b]`, run twice: the second
run finds the sites as the first one left them. -/
theorem evaluate_compiled_twice :
    let e : Expression :=
      .delete (.index (.ident "list") (.delete (.member (.ident "list") "b")))
    let i : Interpreter :=
      { options := {}, globals := ⟨[("list", .object ⟨1⟩)]⟩, errorPrototype := ⟨0⟩ }
    let s : Store := { heap := { natives := [{}, NativeObject.array [.null]] } }
    ∃ script j, i.compile e false = (.ok script, j) ∧ j.arena.size < 2 ^ 32 ∧
      let m := (Machine.evaluate ⟨j, s⟩ script).2
      let source := (e.meaning (m.interpreter.scope false)).run.run m.store
      j.Later m.interpreter ∧ source.1 = .ok (.boolean true) ∧
        (m.evaluate script).1 = source.1 ∧ (m.evaluate script).2.store.heap = source.2.heap ∧
          m.interpreter.Unmoved (m.evaluate script).2.interpreter :=
  ⟨_, _, rfl, by decide, .single (.evaluate _ _ _), rfl,
    evaluate_compiled rfl (by decide) _ (.single (.evaluate _ _ _))⟩

end Machine
end PropertyDelete
