import PropertyDelete.Program.Evaluate
import PropertyDelete.Proofs.Site.Call
import Mathlib.Logic.Relation
import Mathlib.Order.Defs.Unbundled

/-!
What programs do to the sites of their interpreter. All that compilation does to an arena is to
allocate sites (`compile_within`), so it only adds sites, after those that are there
(`compile_grows`), whether or not it succeeds. Evaluation of a node consists of a few kinds of
parts, put together in the order of the sites in the node, and what holds of these holds of it
(`evaluate_law`). So all that it does to a machine is to make errors, to read properties and to
call sites (`evaluate_within`), and it leaves all of an interpreter but what its sites remember
(`evaluate_keeps`), whether or not it throws. At every later time an interpreter then has the
sites it has now, under the same numbers and with the same policies (`Later.kept`).
-/
namespace PropertyDelete

section Run

variable {ε σ α β : Type}

theorem run_bind (x : ExceptT ε (StateM σ) α) (f : α → ExceptT ε (StateM σ) β) (s : σ) :
    (x >>= f).run.run s =
      match x.run.run s with
      | (.ok a, t) => (f a).run.run t
      | (.error e, t) => (.error e, t) := by
  rw [ExceptT.run_bind, StateT.run_bind]
  show (match (x.run.run s).1 with | .ok a => _ | .error e => _ : StateM σ _).run (x.run.run s).2 = _
  rcases x.run.run s with ⟨r, t⟩
  cases r <;> rfl

/-- A computation that succeeds does so part by part. -/
theorem run_bind_ok {x : ExceptT ε (StateM σ) α} {f : α → ExceptT ε (StateM σ) β} {s u : σ}
    {b : β} (h : (x >>= f).run.run s = (.ok b, u)) :
    ∃ a t, x.run.run s = (.ok a, t) ∧ (f a).run.run t = (.ok b, u) := by
  rw [run_bind] at h
  rcases hx : x.run.run s with ⟨r, t⟩
  rw [hx] at h
  cases r with
  | ok a => exact ⟨a, t, rfl, h⟩
  | error e => cases h

/-- Whether a computation, however it ends, takes every state to a related one. -/
def Within (R : σ → σ → Prop) (x : ExceptT ε (StateM σ) α) : Prop := ∀ s, R s (x.run.run s).2

namespace Within

variable {R : σ → σ → Prop} [IsPreorder σ R]

theorem pure' (a : α) : Within R (pure a : ExceptT ε (StateM σ) α) := fun s => refl_of R s

theorem throw' (e : ε) : Within R (throw e : ExceptT ε (StateM σ) α) := fun s => refl_of R s

theorem get' : Within R (get : ExceptT ε (StateM σ) σ) := fun s => refl_of R s

theorem bind {x : ExceptT ε (StateM σ) α} {f : α → ExceptT ε (StateM σ) β} (hx : Within R x)
    (hf : ∀ a, Within R (f a)) : Within R (x >>= f) := by
  intro s
  have h := hx s
  rw [run_bind]
  rcases hr : x.run.run s with ⟨r, t⟩
  rw [hr] at h
  cases r with
  | ok a => exact trans_of R h (hf a t)
  | error e => exact h

end Within

end Run

/-! ## Compilation only adds sites -/

/-- Whether the sites of an arena are among those of another one, in their places. -/
def Extends (a b : DeleteArena) : Prop := a.policies <+: b.policies

instance : IsPreorder DeleteArena Extends where
  refl _ := List.prefix_rfl
  trans _ _ _ := List.IsPrefix.trans

/-- Whether a compilation leaves the sites that are there, in their places. -/
def Grows {α : Type} (x : Compilation α) : Prop :=
  ∀ a, a.policies <+: (x.run.run a).2.policies

theorem Grows.allocateSite (o : Options) (strict : Bool) :
    Grows (Expression.allocateSite o strict) := by
  intro a
  show a.policies <+: List.map Site.policy (a.sites ++ [_])
  rw [List.map_append]
  exact List.prefix_append _ _

namespace Expression

/-- Whether an expression is a reference, so that deleting it is not just evaluating it. -/
def isReference : Expression → Bool
  | .identifier _ | .dot _ _ | .index _ _ => true
  | _ => false

theorem compile_delete_value (o : Options) (strict : Bool) {operand : Expression}
    (h : operand.isReference = false) :
    compile o strict (.delete operand) = do
      return .deleteValue (← compile o strict operand) := by
  cases operand with
  | identifier i => cases h
  | dot object name => cases h
  | index object key => cases h
  | _ => simp only [compile]

/-- Induction on expressions along compilation, which goes through the delete of a reference in a
way of its own and through any other delete by way of its operand. -/
theorem induct_references {P : Expression → Prop} {Q : List Expression → Prop}
    (literal : ∀ l, P (.literal l)) (identifier : ∀ i, P (.identifier i))
    (dot : ∀ object name, P object → P (.dot object name))
    (index : ∀ object key, P object → P key → P (.index object key))
    (privateMember : ∀ object name, P object → P (.privateMember object name))
    (deleteDot : ∀ object name, P object → P (.delete (.dot object name)))
    (deleteIndex : ∀ object key, P object → P key → P (.delete (.index object key)))
    (deleteIdentifier : ∀ i, P (.delete (.identifier i)))
    (deleteValue : ∀ operand, operand.isReference = false → P operand → P (.delete operand))
    (sequence : ∀ items, Q items → P (.sequence items))
    (nil : Q []) (cons : ∀ e rest, P e → Q rest → Q (e :: rest)) :
    (∀ e, P e) ∧ ∀ es, Q es := by
  refine compile.mutual_induct true P Q literal identifier dot index privateMember deleteDot
    deleteIndex (fun i _ => deleteIdentifier i) (fun i _ => deleteIdentifier i) ?_ sequence nil cons
  intro operand hdot hindex hidentifier
  refine deleteValue operand ?_
  cases operand with
  | identifier i => exact (hidentifier i rfl).elim
  | dot object name => exact (hdot object name rfl).elim
  | index object key => exact (hindex object key rfl).elim
  | _ => rfl

section Within

variable {o : Options} {strict : Bool} {R : DeleteArena → DeleteArena → Prop}
  [IsPreorder DeleteArena R]

theorem value_within (l : Literal) : Within R (liftExcept l.value : Compilation Value) := by
  cases l.value with
  | ok v => exact .pure' v
  | error e => exact .throw' e

/-- All that compilation does to an arena is to allocate sites. -/
theorem compile_within (h : Within R (allocateSite o strict)) :
    (∀ e : Expression, Within R (compile o strict e)) ∧
      ∀ es : List Expression, Within R (compileAll o strict es) := by
  refine induct_references ?literal ?identifier ?dot ?index ?privateMember ?deleteDot ?deleteIndex
    ?deleteIdentifier ?deleteValue ?sequence ?nil ?cons
  case literal =>
    intro l
    simp only [compile]
    exact .bind (value_within l) fun v => .pure' _
  case identifier =>
    intro i
    simp only [compile]
    exact .pure' _
  case dot =>
    intro object name hobject
    simp only [compile]
    exact .bind hobject fun node => .pure' _
  case index =>
    intro object key hobject hkey
    simp only [compile]
    exact .bind hobject fun node => .bind hkey fun node => .pure' _
  case privateMember =>
    intro object name hobject
    simp only [compile]
    exact .bind hobject fun node => .throw' _
  case deleteDot =>
    intro object name hobject
    simp only [compile]
    exact .bind hobject fun node => .bind h fun site => .pure' _
  case deleteIndex =>
    intro object key hobject hkey
    simp only [compile]
    exact .bind hobject fun node => .bind hkey fun node => .bind h fun site => .pure' _
  case deleteIdentifier =>
    intro i
    simp only [compile]
    cases strict with
    | true => exact .throw' _
    | false => exact .pure' _
  case deleteValue =>
    intro operand hreference hoperand
    rw [compile_delete_value o strict hreference]
    exact .bind hoperand fun node => .pure' _
  case sequence =>
    intro items hitems
    simp only [compile]
    exact .bind hitems fun nodes => .pure' _
  case nil =>
    simp only [compileAll]
    exact .pure' _
  case cons =>
    intro e rest he hrest
    simp only [compileAll]
    exact .bind he fun node => .bind hrest fun nodes => .pure' _

end Within

theorem compile_grows (o : Options) (strict : Bool) (e : Expression) :
    Grows (compile o strict e) :=
  (compile_within (R := Extends) (Grows.allocateSite o strict)).1 e

theorem compileAll_grows (o : Options) (strict : Bool) (es : List Expression) :
    Grows (compileAll o strict es) :=
  (compile_within (R := Extends) (Grows.allocateSite o strict)).2 es

end Expression

/-! ## What evaluation does to a machine -/

namespace Evaluation

/-- What the answer of a call at a site comes to. -/
def settle : Option Outcome → Evaluation Value
  | none => raiseTypeError "Unknown delete site"
  | some (.ok deleted) => return .boolean deleted
  | some (.error e) => raiseTypeError e.message

/-- A call at a site as part of evaluation. -/
def callSite (base key : Value) (site : UInt32) : Evaluation Value := do
  let i := (← get).interpreter
  let answer ← onStore (i.arena.execute deletion site.toNat base key)
  modify fun m => { m with interpreter := { m.interpreter with arena := answer.2 } }
  settle answer.1

theorem deleteMember_eq (base key : Value) (site : UInt32) :
    deleteMember base key site = requireObject base key >>= fun _ => callSite base key site := by
  unfold deleteMember callSite
  congr

theorem callSite_run (base key : Value) (site : UInt32) (m : Machine) :
    (callSite base key site).run.run m =
      let call := (m.interpreter.arena.execute deletion site.toNat base key).run m.store
      (settle call.1.1).run.run
        { interpreter := { m.interpreter with arena := call.1.2 }, store := call.2 } := by
  rfl

end Evaluation

/-- Whether a relation between machines holds of what evaluation does to a machine: it makes an
error, it reads a property, and it calls a site. -/
structure Effects (R : Machine → Machine → Prop) : Prop where
  raise (m : Machine) (name message : String) :
    R m { m with store := (m.store.allocate (m.interpreter.errorObject name message)).2 }
  read (m : Machine) (base key : Value) :
    R m { m with store := ((Store.read base (m.store.heap.toKey key)).run m.store).2 }
  call (m : Machine) (base key : Value) (site : Nat) :
    let call := (m.interpreter.arena.execute deletion site base key).run m.store
    R m { interpreter := { m.interpreter with arena := call.1.2 }, store := call.2 }

theorem Effects.raise_within {α : Type} {R : Machine → Machine → Prop} (h : Effects R)
    (name message : String) : Within R (Evaluation.raise name message : Evaluation α) :=
  fun m => h.raise m name message

namespace Effects

variable {R : Machine → Machine → Prop} [IsPreorder Machine R] (h : Effects R)
include h

theorem global_within (name : String) : Within R (Evaluation.global name) := by
  refine .bind .get' fun m => ?_
  cases m.interpreter.globals.get? name with
  | some v => exact .pure' v
  | none => exact h.raise_within _ _

theorem requireObject_within (base key : Value) :
    Within R (Evaluation.requireObject base key) := by
  unfold Evaluation.requireObject
  split
  · exact .bind .get' fun m => h.raise_within _ _
  · exact .pure' _

theorem readMember_within (base key : Value) : Within R (Evaluation.readMember base key) :=
  .bind (h.requireObject_within base key) fun _ m => h.read m base key

theorem settle_within (answer : Option Outcome) : Within R (Evaluation.settle answer) := by
  match answer with
  | none => exact h.raise_within _ _
  | some (.ok deleted) => exact .pure' _
  | some (.error e) => exact h.raise_within _ _

theorem callSite_within (base key : Value) (site : UInt32) :
    Within R (Evaluation.callSite base key site) := by
  intro m
  rw [Evaluation.callSite_run]
  exact trans_of R (h.call m base key site.toNat) (h.settle_within _ ⟨_, _⟩)

theorem deleteMember_within (base key : Value) (site : UInt32) :
    Within R (Evaluation.deleteMember base key site) := by
  rw [Evaluation.deleteMember_eq]
  exact .bind (h.requireObject_within base key) fun _ => h.callSite_within base key site

end Effects

/-! ## What evaluation consists of -/

namespace Node

mutual

/-- The numbers of the sites in a node, in the order in which evaluation reaches them: those of
the operands of a delete before that of the delete itself. -/
def sites : Node → List UInt32
  | .constant _ | .global _ | .deleteBinding _ => []
  | .member object key => sites object ++ sites key
  | .deleteProperty object key site => sites object ++ sites key ++ [site]
  | .deleteValue operand => sites operand
  | .sequence items => sitesAll items

/-- The numbers of the sites in some nodes, first one first. -/
def sitesAll : List Node → List UInt32
  | [] => []
  | node :: rest => sites node ++ sitesAll rest

end

end Node

/-- Whether something that can be said of a part of evaluation and of the sites that it is to call
holds of all that the evaluation of nodes consists of: of the parts that are no evaluation of
another node, and of what is put together from two parts of which it holds. -/
structure EvaluationLaw (P : (α : Type) → Evaluation α → List UInt32 → Prop) : Prop where
  pure' {α : Type} (a : α) : P α (pure a) []
  get' : P Machine get []
  bind {α β : Type} {x : Evaluation α} {f : α → Evaluation β} {s t : List UInt32} :
    P α x s → (∀ a, P β (f a) t) → P β (x >>= f) (s ++ t)
  global (name : String) : P Value (Evaluation.global name) []
  readMember (base key : Value) : P Value (Evaluation.readMember base key) []
  deleteMember (base key : Value) (site : UInt32) :
    P Value (Evaluation.deleteMember base key site) [site]

namespace EvaluationLaw

variable {P : (α : Type) → Evaluation α → List UInt32 → Prop}

/-- The second part calls no site. -/
theorem bind_nil (h : EvaluationLaw P) {α β : Type} {x : Evaluation α} {f : α → Evaluation β}
    {s : List UInt32} (hx : P α x s) (hf : ∀ a, P β (f a) []) : P β (x >>= f) s := by
  simpa using h.bind hx hf

end EvaluationLaw

namespace Node

variable {P : (α : Type) → Evaluation α → List UInt32 → Prop}

mutual

/-- What holds of all that evaluation consists of holds of the evaluation of a node. -/
theorem evaluate_law (h : EvaluationLaw P) : ∀ node : Node, P Value node.evaluate node.sites
  | .constant v => by
    simp only [evaluate, sites]
    exact h.pure' v
  | .global name => by
    simp only [evaluate, sites]
    exact h.global name
  | .member object key => by
    simp only [evaluate, sites]
    apply h.bind (evaluate_law h object)
    intro base
    exact h.bind_nil (evaluate_law h key) fun key => h.readMember base key
  | .deleteProperty object key site => by
    simp only [evaluate, sites, List.append_assoc]
    apply h.bind (evaluate_law h object)
    intro base
    exact h.bind (evaluate_law h key) fun key => h.deleteMember base key site
  | .deleteBinding name => by
    simp only [evaluate, sites]
    exact h.bind_nil h.get' fun m => h.pure' _
  | .deleteValue operand => by
    simp only [evaluate, sites]
    exact h.bind_nil (evaluate_law h operand) fun _ => h.pure' _
  | .sequence items => by
    simp only [evaluate, sites]
    exact evaluateAll_law h items .undefined

theorem evaluateAll_law (h : EvaluationLaw P) :
    ∀ (nodes : List Node) (last : Value), P Value (evaluateAll nodes last) (sitesAll nodes)
  | [], last => by
    simp only [evaluateAll, sitesAll]
    exact h.pure' last
  | node :: rest, last => by
    simp only [evaluateAll, sitesAll]
    exact h.bind (evaluate_law h node) fun v => evaluateAll_law h rest v

end

end Node

theorem Effects.law {R : Machine → Machine → Prop} [IsPreorder Machine R] (h : Effects R) :
    EvaluationLaw fun _ x _ => Within R x where
  pure' := .pure'
  get' := .get'
  bind := .bind
  global := h.global_within
  readMember := h.readMember_within
  deleteMember := h.deleteMember_within

theorem Node.evaluate_within {R : Machine → Machine → Prop} [IsPreorder Machine R]
    (h : Effects R) (node : Node) : Within R node.evaluate :=
  node.evaluate_law h.law

/-! ## Evaluation changes only what sites remember -/

/-- Whether two interpreters differ at most in the caches of their sites. -/
structure Interpreter.Unmoved (i j : Interpreter) : Prop where
  options : j.options = i.options
  globals : j.globals = i.globals
  errorPrototype : j.errorPrototype = i.errorPrototype
  interrupted : j.arena.interrupted = i.arena.interrupted
  policies : j.arena.policies = i.arena.policies

namespace Interpreter.Unmoved

theorem refl (i : Interpreter) : Unmoved i i := ⟨rfl, rfl, rfl, rfl, rfl⟩

theorem trans {i j k : Interpreter} (h₁ : Unmoved i j) (h₂ : Unmoved j k) : Unmoved i k where
  options := h₂.options.trans h₁.options
  globals := h₂.globals.trans h₁.globals
  errorPrototype := h₂.errorPrototype.trans h₁.errorPrototype
  interrupted := h₂.interrupted.trans h₁.interrupted
  policies := h₂.policies.trans h₁.policies

/-- No site comes or goes. -/
theorem size {i j : Interpreter} (h : Unmoved i j) : j.arena.size = i.arena.size := by
  have hsize := congrArg List.length h.policies
  simp only [Arena.policies, List.length_map] at hsize
  exact hsize

/-- A call at a site leaves all of the interpreter but a cache. -/
theorem call (i : Interpreter) (site : Nat) (base key : Value) (s : Store) :
    i.Unmoved { i with arena := ((i.arena.execute deletion site base key).run s).1.2 } where
  options := rfl
  globals := rfl
  errorPrototype := rfl
  interrupted := i.arena.interrupted_execute deletion site base key s
  policies := i.arena.policies_execute deletion site base key s

end Interpreter.Unmoved

/-- Whether the interpreters of two machines differ at most in the caches of their sites. -/
def Machine.Unmoved (m n : Machine) : Prop := m.interpreter.Unmoved n.interpreter

instance : IsPreorder Machine Machine.Unmoved where
  refl m := .refl m.interpreter
  trans _ _ _ := .trans

theorem Effects.unmoved : Effects Machine.Unmoved where
  raise m _ _ := .refl m.interpreter
  read m _ _ := .refl m.interpreter
  call m base key site := .call m.interpreter site base key m.store

/-- Whether evaluation leaves all of an interpreter but the caches of its sites. -/
def Keeps {α : Type} (x : Evaluation α) : Prop :=
  ∀ m : Machine, m.interpreter.Unmoved (x.run.run m).2.interpreter

theorem Keeps.requireObject (base key : Value) : Keeps (Evaluation.requireObject base key) :=
  Effects.unmoved.requireObject_within base key

theorem Node.evaluate_keeps (node : Node) : Keeps node.evaluate :=
  node.evaluate_within Effects.unmoved

/-! ## Later states of an interpreter -/

namespace Interpreter

/-- One state of an interpreter and the next one: a variable is defined, the flag is set or
cleared, a program is compiled, with or without success, a script is evaluated, on any store,
or what one of the sites remembers becomes anything else. -/
inductive Next : Interpreter → Interpreter → Prop
  | define (i : Interpreter) (name : String) (v : Value) : Next i (i.define name v)
  | interrupt (i : Interpreter) (b : Bool) : Next i (i.interrupt b)
  | compile (i : Interpreter) (e : Expression) (strict : Bool) : Next i (i.compile e strict).2
  | evaluate (i : Interpreter) (store : Store) (script : Script) :
    Next i (Machine.evaluate ⟨i, store⟩ script).2.interpreter
  | remember (i : Interpreter) (k : Nat) (site : DeleteSite) (cache : SiteCache DeleteVariant)
    (h : i.arena.site? k = some site) :
    Next i { i with arena := i.arena.setSite k (site.withCache cache) }

/-- Any state of an interpreter and a later one. -/
def Later : Interpreter → Interpreter → Prop := Relation.ReflTransGen Next

theorem Next.kept {i j : Interpreter} (h : Next i j) :
    j.options = i.options ∧ i.arena.policies <+: j.arena.policies := by
  cases h with
  | define name v => exact ⟨rfl, List.prefix_rfl⟩
  | interrupt b => exact ⟨rfl, List.prefix_rfl⟩
  | compile e strict => exact ⟨rfl, Expression.compile_grows i.options strict e i.arena⟩
  | evaluate store script =>
    have h := Node.evaluate_keeps script.root ⟨i, store⟩
    exact ⟨h.options, h.policies ▸ List.prefix_rfl⟩
  | remember k site cache h =>
    have hp := Arena.policies_setSite (t := site.withCache cache) h rfl
    exact ⟨rfl, hp ▸ List.prefix_rfl⟩

/-- The options of an interpreter are settled once, and its sites stay where they are. -/
theorem Later.kept {i j : Interpreter} (h : Later i j) :
    j.options = i.options ∧ i.arena.policies <+: j.arena.policies := by
  induction h with
  | refl => exact ⟨rfl, List.prefix_rfl⟩
  | tail _ hnext ih =>
    obtain ⟨ho, hp⟩ := hnext.kept
    exact ⟨ho.trans ih.1, ih.2.trans hp⟩

end Interpreter
end PropertyDelete
