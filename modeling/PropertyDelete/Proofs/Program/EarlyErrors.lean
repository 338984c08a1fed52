import PropertyDelete.Proofs.Program.Numbering
import PropertyDelete.Proofs.Text.Conventions

/-!
The early errors of a program. Three constructs are early errors, wherever they occur
(`EarlyError`). The parts of an expression, taken in the order in which evaluation is done with
them, say which of its early errors is the first one (`FirstError`), and compilation ends in that
one, and in no error if there is none (`compile_reports`). The relation behind this, `Reports`,
composes like the compilation of operands does. A program that compiles in strict mode has no early
error in sloppy mode either, so it compiles in both, and to one tree.
-/
namespace PropertyDelete

namespace Expression

/-! ## Parts of an expression -/

mutual

/-- An expression and the expressions in it, at any depth, in the order in which evaluation is done
with them: a base before its key, items from left to right, and an expression after its operands. -/
def parts : Expression → List Expression
  | .literal l => [.literal l]
  | .identifier i => [.identifier i]
  | .dot object name => parts object ++ [.dot object name]
  | .index object key => parts object ++ (parts key ++ [.index object key])
  | .privateMember object name => parts object ++ [.privateMember object name]
  | .delete operand => parts operand ++ [.delete operand]
  | .sequence items => partsAll items ++ [.sequence items]

/-- The parts of some expressions, first one first. -/
def partsAll : List Expression → List Expression
  | [] => []
  | e :: rest => parts e ++ partsAll rest

end

/-! ## Early errors -/

/-- The constructs that are early errors, each with what is reported of it. Whether its parts are
early errors does not matter. -/
inductive EarlyError (strict : Bool) : Expression → CompileError → Prop
  | bigint (text : String) (h : ¬ Decimal.Numeral text.toList) :
    EarlyError strict (.literal (.bigint text)) (.invalidBigint text)
  | privateMember (object : Expression) (name : Identifier) :
    EarlyError strict (.privateMember object name) (.privateMember name.name)
  | deleteIdentifier (i : Identifier) (h : strict = true) :
    EarlyError strict (.delete (.identifier i)) (.strictIdentifierDelete i.name)

/-- Whether an expression, its parts apart, is no early error. -/
def Clean (strict : Bool) (e : Expression) : Prop := ∀ err, ¬ EarlyError strict e err

/-- Whether an error is that of the first early error among some expressions. -/
inductive FirstError (strict : Bool) : List Expression → CompileError → Prop
  | here {e : Expression} {rest : List Expression} {err : CompileError}
    (h : EarlyError strict e err) : FirstError strict (e :: rest) err
  | later {e : Expression} {rest : List Expression} {err : CompileError} (h : Clean strict e)
    (hrest : FirstError strict rest err) : FirstError strict (e :: rest) err

variable {o : Options} {strict : Bool} {err err' : CompileError} {ps qs : List Expression}

namespace EarlyError

variable {e : Expression}

theorem unique (h : EarlyError strict e err) (h' : EarlyError strict e err') : err = err' := by
  cases h <;> cases h' <;> rfl

/-- Strict mode has the early errors of sloppy mode. -/
theorem toStrict (h : EarlyError strict e err) : EarlyError true e err := by
  cases h with
  | bigint text h => exact .bigint text h
  | privateMember object name => exact .privateMember object name
  | deleteIdentifier i h => exact .deleteIdentifier i rfl

/-- A literal is an early error if it has no value. -/
theorem literal_iff {l : Literal} :
    EarlyError strict (.literal l) err ↔ l.value = .error err := by
  cases l with
  | bigint text =>
    rw [Literal.value]
    cases hz : Decimal.readInteger? text.toList with
    | some z =>
      have hnumeral := ((Decimal.readsNumerals_readInteger? _ _).mp hz).1
      exact iff_of_false (fun | .bigint _ h => h hnumeral) (fun h => nomatch h)
    | none =>
      have hnumeral := Decimal.readsNumerals_readInteger?.eq_none_iff.mp hz
      exact ⟨fun | .bigint _ _ => rfl, fun h => by cases h; exact .bigint text hnumeral⟩
  | _ => exact iff_of_false (fun h => nomatch h) (fun h => nomatch h)

end EarlyError

namespace Clean

@[simp] theorem identifier (i : Identifier) : Clean strict (.identifier i) := fun _ h => nomatch h

@[simp] theorem dot (object : Expression) (name : Identifier) : Clean strict (.dot object name) :=
  fun _ h => nomatch h

@[simp] theorem index (object key : Expression) : Clean strict (.index object key) :=
  fun _ h => nomatch h

@[simp] theorem sequence (items : List Expression) : Clean strict (.sequence items) :=
  fun _ h => nomatch h

/-- Only the delete of an identifier can be an early error, and only in strict mode. -/
theorem delete {operand : Expression} (h : ∀ i, operand = .identifier i → strict = false) :
    Clean strict (.delete operand) := by
  intro err herr
  cases herr with
  | deleteIdentifier i hstrict => simp [h i rfl] at hstrict

end Clean

namespace FirstError

theorem exists_part (h : FirstError strict ps err) : ∃ e ∈ ps, EarlyError strict e err := by
  induction h with
  | here h => exact ⟨_, List.mem_cons_self, h⟩
  | later _ _ ih =>
    obtain ⟨e, he, h⟩ := ih
    exact ⟨e, List.mem_cons_of_mem _ he, h⟩

theorem unique (h : FirstError strict ps err) (h' : FirstError strict ps err') : err = err' := by
  induction h with
  | here h =>
    cases h' with
    | here h' => exact h.unique h'
    | later hclean _ => exact absurd h (hclean _)
  | later hclean _ ih =>
    cases h' with
    | here h' => exact absurd h' (hclean _)
    | later _ h' => exact ih h'

theorem append_left (h : FirstError strict ps err) : FirstError strict (ps ++ qs) err := by
  induction h with
  | here h => exact .here h
  | later hclean _ ih => exact .later hclean ih

theorem append_right (hps : ∀ e ∈ ps, Clean strict e) (h : FirstError strict qs err) :
    FirstError strict (ps ++ qs) err := by
  induction ps with
  | nil => exact h
  | cons e rest ih =>
    rw [List.forall_mem_cons] at hps
    exact .later hps.1 (ih hps.2)

end FirstError

/-! ## What compilation reports -/

/-- Whether a part of compilation ends in the first early error of some expressions, and succeeds
only if there is none among them. -/
structure Reports {α : Type} (strict : Bool) (x : Compilation α) (ps : List Expression) :
    Prop where
  ok {a b : DeleteArena} {v : α} : x.run.run a = (.ok v, b) → ∀ e ∈ ps, Clean strict e
  error {a b : DeleteArena} {err : CompileError} :
    x.run.run a = (.error err, b) → FirstError strict ps err

namespace Reports

variable {α β : Type}

theorem pure' (v : α) (h : ∀ e ∈ ps, Clean strict e) : Reports strict (pure v) ps where
  ok _ := h
  error h := nomatch h

theorem throw' (h : FirstError strict ps err) :
    Reports strict (throw err : Compilation α) ps where
  ok h := nomatch h
  error {_ _ _} h' := by
    cases h'
    exact h

theorem bind {x : Compilation α} {f : α → Compilation β} (hx : Reports strict x ps)
    (hf : ∀ v, Reports strict (f v) qs) : Reports strict (x >>= f) (ps ++ qs) where
  ok {_ _ _} h := by
    obtain ⟨v, t, hv, hw⟩ := run_bind_ok h
    exact List.forall_mem_append.2 ⟨hx.ok hv, (hf v).ok hw⟩
  error {a _ _} h := by
    rw [run_bind] at h
    rcases hr : x.run.run a with ⟨r, t⟩
    rw [hr] at h
    cases r with
    -- the second part is reached only if there is no early error in the first
    | ok v => exact .append_right (hx.ok hr) ((hf v).error h)
    | error err' =>
      cases h
      exact (hx.error hr).append_left

/-- The first part reports nothing of its own. -/
theorem nil_bind {x : Compilation α} {f : α → Compilation β} (hx : Reports strict x [])
    (hf : ∀ v, Reports strict (f v) qs) : Reports strict (x >>= f) qs :=
  hx.bind hf

theorem map {x : Compilation α} (hx : Reports strict x ps) (f : α → β) :
    Reports strict (x >>= fun v => pure (f v)) ps := by
  have h := hx.bind fun v => pure' (f v) (List.forall_mem_nil (Clean strict))
  rwa [List.append_nil] at h

theorem allocateSite : Reports strict (allocateSite o strict) [] where
  ok _ := by simp
  error h := nomatch h

theorem literal (l : Literal) :
    Reports strict (liftExcept l.value : Compilation Value) [.literal l] := by
  cases hl : l.value with
  | ok v =>
    refine .pure' v fun e he err herr => ?_
    rw [List.mem_singleton.1 he, EarlyError.literal_iff, hl] at herr
    cases herr
  | error err => exact .throw' (.here (EarlyError.literal_iff.2 hl))

/-- A part of compilation fails with an error exactly if that is the first early error. -/
theorem error_iff {x : Compilation α} (h : Reports strict x ps) (a : DeleteArena) :
    (x.run.run a).1 = .error err ↔ FirstError strict ps err := by
  rcases hr : x.run.run a with ⟨r, t⟩
  cases r with
  | ok v =>
    refine iff_of_false (fun h => nomatch h) (fun hfirst => ?_)
    obtain ⟨e, he, herr⟩ := hfirst.exists_part
    exact h.ok hr e he err herr
  | error err' =>
    have hfirst := h.error hr
    exact ⟨fun he => by cases he; exact hfirst, fun h' => by rw [hfirst.unique h']⟩

theorem fails_iff {x : Compilation α} (h : Reports strict x ps) (a : DeleteArena) :
    (∃ err, (x.run.run a).1 = .error err) ↔ ∃ e ∈ ps, ∃ err, EarlyError strict e err := by
  constructor
  · rintro ⟨err, herr⟩
    obtain ⟨e, he, herr⟩ := ((h.error_iff a).1 herr).exists_part
    exact ⟨e, he, err, herr⟩
  · rintro ⟨e, he, err, herr⟩
    rcases hr : x.run.run a with ⟨r, t⟩
    cases r with
    | ok v => exact absurd herr (h.ok hr e he err)
    | error err' => exact ⟨err', rfl⟩

end Reports

theorem compile_reports (o : Options) (strict : Bool) :
    (∀ e : Expression, Reports strict (compile o strict e) e.parts) ∧
      ∀ es : List Expression, Reports strict (compileAll o strict es) (partsAll es) := by
  refine induct_references ?literal ?identifier ?dot ?index ?privateMember ?deleteDot ?deleteIndex
    ?deleteIdentifier ?deleteValue ?sequence ?nil ?cons
  case literal =>
    intro l
    simp only [compile, parts]
    exact .map (.literal l) Node.constant
  case identifier =>
    intro i
    simp only [compile, parts]
    exact .pure' _ (by simp)
  case dot =>
    intro object name hobject
    simp only [compile, parts]
    exact .bind hobject fun node => .pure' _ (by simp)
  case index =>
    intro object key hobject hkey
    simp only [compile, parts]
    exact .bind hobject fun node => .bind hkey fun node => .pure' _ (by simp)
  case privateMember =>
    intro object name hobject
    simp only [compile, parts]
    exact .bind hobject fun node => .throw' (.here (.privateMember object name))
  case deleteDot =>
    intro object name hobject
    have hclean : Clean strict (.delete (.dot object name)) := .delete fun i h => by cases h
    simp only [compile, parts, List.append_assoc]
    exact .bind hobject fun node => .nil_bind .allocateSite fun site => .pure' _ (by simp [hclean])
  case deleteIndex =>
    intro object key hobject hkey
    have hclean : Clean strict (.delete (.index object key)) := .delete fun i h => by cases h
    simp only [compile, parts, List.append_assoc]
    exact .bind hobject fun node => .bind hkey fun node =>
      .nil_bind .allocateSite fun site => .pure' _ (by simp [hclean])
  case deleteIdentifier =>
    intro i
    simp only [compile, parts]
    -- the identifier is a part of its own, and never an early error
    cases strict with
    | true => exact .throw' (.later (.identifier i) (.here (.deleteIdentifier i rfl)))
    | false =>
      have hclean : Clean false (.delete (.identifier i)) := .delete fun _ _ => rfl
      exact .pure' _ (by simp [hclean])
  case deleteValue =>
    intro operand hreference hoperand
    have hclean : Clean strict (.delete operand) := by
      refine .delete fun i h => ?_
      simp [h, isReference] at hreference
    rw [compile_delete_value o strict hreference, parts]
    exact .bind hoperand fun node => .pure' _ (by simp [hclean])
  case sequence =>
    intro items hitems
    simp only [compile, parts]
    exact .bind hitems fun nodes => .pure' _ (by simp)
  case nil =>
    simp only [compileAll, partsAll]
    exact .pure' _ (by simp)
  case cons =>
    intro e rest he hrest
    simp only [compileAll, partsAll]
    exact .bind he fun node => .map hrest (node :: ·)

end Expression

open Expression

namespace Interpreter

variable {i : Interpreter} {e : Expression} {strict : Bool}

theorem compile_error_iff {err : CompileError} :
    (i.compile e strict).1 = .error err ↔
      ((e.compile i.options strict).run.run i.arena).1 = .error err := by
  unfold compile
  rcases (e.compile i.options strict).run.run i.arena with ⟨answer, arena⟩
  cases answer <;> simp [Except.map]

theorem compile_fails_iff :
    (∃ err, (i.compile e strict).1 = .error err) ↔
      ∃ part ∈ e.parts, ∃ err, EarlyError strict part err := by
  simp only [compile_error_iff]
  exact ((compile_reports i.options strict).1 e).fails_iff i.arena

/-- An expression that compiles is compiled to its tree. -/
theorem compile_tree {tree : Node} (htree : e.Relocates tree) {script : Script}
    (h : (i.compile e strict).1 = .ok script) :
    script = ⟨tree.renumber (.ofNat i.arena.size + ·), strict⟩ := by
  unfold compile at h
  rcases hr : (e.compile i.options strict).run.run i.arena with ⟨answer, arena⟩
  rw [hr] at h
  cases answer with
  | ok node =>
    cases h
    rw [htree hr]
  | error err => cases h

/-- Compilation fails exactly if there is an early error in the expression, at any depth, and then
with the error of the first one. An expression that compiles in strict mode is compiled by every
interpreter and in both modes, to one tree apart from the number of its first site. -/
theorem compile_early_errors (e : Expression) :
    (∀ (i : Interpreter) (strict : Bool),
      ((∃ err, (i.compile e strict).1 = .error err) ↔
        ∃ part ∈ e.parts, ∃ err, EarlyError strict part err) ∧
      ∀ err, (i.compile e strict).1 = .error err ↔ FirstError strict e.parts err) ∧
    ∀ (i : Interpreter) (script : Script), (i.compile e true).1 = .ok script →
      ∃ tree : Node, ∀ (j : Interpreter) (strict : Bool),
        (j.compile e strict).1 = .ok ⟨tree.renumber (.ofNat j.arena.size + ·), strict⟩ := by
  refine ⟨fun i strict => ⟨compile_fails_iff, fun err => ?error⟩, fun i script hscript => ?tree⟩
  case error =>
    rw [compile_error_iff]
    exact ((compile_reports i.options strict).1 e).error_iff i.arena
  case tree =>
    obtain ⟨tree, htree⟩ := compile_relocates.1 e
    refine ⟨tree, fun j strict => ?_⟩
    cases hj : (j.compile e strict).1 with
    | ok script => rw [compile_tree htree hj]
    | error err =>
      -- an early error in either mode is one in strict mode, where there is none
      obtain ⟨part, hpart, err, herr⟩ := compile_fails_iff.1 ⟨err, hj⟩
      have hfails := compile_fails_iff (i := i).2 ⟨part, hpart, err, herr.toStrict⟩
      simp [hscript] at hfails

/-- A delete inside the key of a delete compiles in strict mode. -/
theorem compile_early_errors_nested :
    let e : Expression :=
      .delete (.index (.ident "list") (.delete (.member (.ident "list") "b")))
    let i : Interpreter := { options := {}, errorPrototype := ⟨0⟩ }
    ∃ script, (i.compile e true).1 = .ok script ∧
      ∃ tree : Node, ∀ (j : Interpreter) (strict : Bool),
        (j.compile e strict).1 = .ok ⟨tree.renumber (.ofNat j.arena.size + ·), strict⟩ := by
  intro e i
  obtain ⟨script, hscript⟩ : ∃ script, (i.compile e true).1 = .ok script := ⟨_, rfl⟩
  exact ⟨script, hscript, (compile_early_errors e).2 i script hscript⟩

-- the base comes before the key, and the delete of the identifier after both
example :
    let key : Expression := .literal (.bigint "_1")
    let e : Expression :=
      .sequence [.delete (.index (.privateMember (.ident "list") (.new ⟨0, 0⟩ "x")) key),
        .delete (.ident "list")]
    let i : Interpreter := { options := {}, errorPrototype := ⟨0⟩ }
    (i.compile e true).1 = .error (.privateMember "x") ∧
      (i.compile (.delete key) true).1 = .error (.invalidBigint "_1") :=
  ⟨rfl, rfl⟩

end Interpreter
end PropertyDelete
