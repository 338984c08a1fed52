import PropertyDelete.Proofs.Program.Sites

/-!
How compilation numbers the delete sites. A program that compiles has one new site for each
delete of a member in it, at any depth, and the numbers that its nodes carry, taken in the order
in which evaluation reaches them, are the next ones of the arena (`compile_numbered`). Both are
told by one relation between the arenas before and after, `Numbered`, which composes like the
compilation of operands does. So a program compiles to one tree wherever it does, apart from the
number that the first of its sites has (`compile_relocates`). A program that does not compile has
added some sites like those, and nothing else (`compile_allocates`).
-/
namespace PropertyDelete

/-- The policy of the sites of a program. -/
def Options.sitePolicy (o : Options) (strict : Bool) : DeletePolicy :=
  { strict, foreignHash := o.foreignHash, interruptible := true }

namespace Expression

/-- Whether an expression is a member of another one. -/
def isMember : Expression → Bool
  | .dot _ _ | .index _ _ | .privateMember _ _ => true
  | _ => false

mutual

/-- The number of deletes of members in an expression, at any depth. -/
def memberDeletes : Expression → Nat
  | .literal _ | .identifier _ => 0
  | .dot object _ | .privateMember object _ => memberDeletes object
  | .index object key => memberDeletes object + memberDeletes key
  | .delete operand => memberDeletes operand + if operand.isMember then 1 else 0
  | .sequence items => memberDeletesAll items

/-- The number of deletes of members in some expressions. -/
def memberDeletesAll : List Expression → Nat
  | [] => 0
  | e :: rest => memberDeletes e + memberDeletesAll rest

end

end Expression

namespace Arena

variable {Entry Policy : Type} (a : Arena Entry Policy) (policy : Policy) (limit : Nat)

/-- The arena with some more sites, all of them new. -/
def allocateMany (n : Nat) : Arena Entry Policy :=
  { a with sites := a.sites ++ List.replicate n (.new policy limit) }

@[simp] theorem allocateMany_zero : a.allocateMany policy limit 0 = a := by
  simp [allocateMany]

@[simp] theorem allocateMany_add (m n : Nat) :
    (a.allocateMany policy limit m).allocateMany policy limit n =
      a.allocateMany policy limit (m + n) := by
  simp [allocateMany, List.replicate_append_replicate]

@[simp] theorem size_allocateMany (n : Nat) :
    (a.allocateMany policy limit n).size = a.size + n := by
  simp [allocateMany, size]

theorem site?_allocateMany {k : Nat} (hk : k < a.size) (n : Nat) :
    (a.allocateMany policy limit n).site? k = a.site? k := by
  simp only [allocateMany, site?]
  exact List.getElem?_append_left hk

theorem site?_allocateMany_new {k n : Nat} (hk : a.size ≤ k) (hn : k < a.size + n) :
    (a.allocateMany policy limit n).site? k = some (.new policy limit) := by
  simp only [size] at hk hn
  simp only [allocateMany, site?]
  rw [List.getElem?_append_right hk, List.getElem?_replicate, if_pos (by omega)]

end Arena

namespace Expression

variable {o : Options} {strict : Bool} {a b c : DeleteArena}

/-- Whether one arena comes from another one by the allocation of so many sites, and some numbers
are those of the new sites, in order. -/
structure Numbered (o : Options) (strict : Bool) (a b : DeleteArena) (sites : List UInt32)
    (n : Nat) : Prop where
  arena : b = a.allocateMany (o.sitePolicy strict) o.limit n
  sites : sites = (List.range' a.size n).map UInt32.ofNat

namespace Numbered

theorem nil : Numbered o strict a a [] 0 := ⟨by simp, rfl⟩

theorem append {s t : List UInt32} {m n : Nat} (hs : Numbered o strict a b s m)
    (ht : Numbered o strict b c t n) : Numbered o strict a c (s ++ t) (m + n) := by
  obtain ⟨rfl, rfl⟩ := hs
  obtain ⟨rfl, rfl⟩ := ht
  constructor
  · simp
  · rw [Arena.size_allocateMany, ← List.map_append, List.range'_append_1]

theorem site {k : UInt32} (h : (allocateSite o strict).run.run a = (.ok k, b)) :
    Numbered o strict a b [k] 1 := by
  cases h
  exact ⟨rfl, rfl⟩

end Numbered

/-- Whether no node is what an expression compiles to. -/
def Rejected (e : Expression) : Prop :=
  ∀ {o : Options} {strict : Bool} {a b : DeleteArena} {node : Node},
    (compile o strict e).run.run a ≠ (.ok node, b)

namespace Rejected

theorem literal {l : Literal} {err : CompileError} (hv : l.value = .error err) :
    (Expression.literal l).Rejected := by
  intro o strict a b node h
  simp only [compile, hv] at h
  cases h

theorem privateMember (object : Expression) (name : Identifier) :
    (object.privateMember name).Rejected := by
  intro o strict a b node h
  simp only [compile] at h
  obtain ⟨n, c, -, hnode⟩ := run_bind_ok h
  cases hnode

end Rejected

/-- A member is a reference, unless it is a private one, and that does not compile. -/
theorem isMember_of_compile {operand : Expression} {node : Node}
    (hreference : operand.isReference = false)
    (h : (compile o strict operand).run.run a = (.ok node, b)) : operand.isMember = false := by
  cases operand with
  | dot object name => cases hreference
  | index object key => cases hreference
  | privateMember object name => exact absurd h (Rejected.privateMember object name)
  | _ => rfl

/-- A program that compiles has a new site for each delete of a member in it, and carries their
numbers in the order of evaluation. -/
theorem compile_numbered :
    (∀ e : Expression, ∀ {a b : DeleteArena} {node : Node},
      (compile o strict e).run.run a = (.ok node, b) →
        Numbered o strict a b node.sites e.memberDeletes) ∧
    ∀ es : List Expression, ∀ {a b : DeleteArena} {nodes : List Node},
      (compileAll o strict es).run.run a = (.ok nodes, b) →
        Numbered o strict a b (Node.sitesAll nodes) (memberDeletesAll es) := by
  refine induct_references ?literal ?identifier ?dot ?index ?privateMember ?deleteDot ?deleteIndex
    ?deleteIdentifier ?deleteValue ?sequence ?nil ?cons
  case literal =>
    intro l a b node h
    cases hv : l.value with
    | ok v =>
      simp only [compile, hv] at h
      cases h
      exact .nil
    | error err => exact absurd h (Rejected.literal hv)
  case identifier =>
    intro i a b node h
    simp only [compile] at h
    cases h
    exact .nil
  case dot =>
    intro object name hobject a b node h
    simp only [compile] at h
    obtain ⟨n, t, hn, hnode⟩ := run_bind_ok h
    cases hnode
    simpa [Node.sites, memberDeletes] using hobject hn
  case index =>
    intro object key hobject hkey a b node h
    simp only [compile] at h
    obtain ⟨n, t, hn, h⟩ := run_bind_ok h
    obtain ⟨k, u, hk, hnode⟩ := run_bind_ok h
    cases hnode
    simp only [Node.sites, memberDeletes]
    exact (hobject hn).append (hkey hk)
  case privateMember =>
    intro object name _ a b node h
    exact absurd h (Rejected.privateMember object name)
  case deleteDot =>
    intro object name hobject a b node h
    simp only [compile] at h
    obtain ⟨n, t, hn, h⟩ := run_bind_ok h
    obtain ⟨site, u, hsite, hnode⟩ := run_bind_ok h
    cases hnode
    simpa [Node.sites, memberDeletes, isMember] using (hobject hn).append (.site hsite)
  case deleteIndex =>
    intro object key hobject hkey a b node h
    simp only [compile] at h
    obtain ⟨n, t, hn, h⟩ := run_bind_ok h
    obtain ⟨k, u, hk, h⟩ := run_bind_ok h
    obtain ⟨site, v, hsite, hnode⟩ := run_bind_ok h
    cases hnode
    simp only [Node.sites, memberDeletes, isMember, if_true]
    exact ((hobject hn).append (hkey hk)).append (.site hsite)
  case deleteIdentifier =>
    intro i a b node h
    simp only [compile] at h
    cases strict with
    | true => cases h
    | false =>
      cases h
      exact .nil
  case deleteValue =>
    intro operand hreference hoperand a b node h
    rw [compile_delete_value o strict hreference] at h
    obtain ⟨n, t, hn, hnode⟩ := run_bind_ok h
    cases hnode
    simpa [Node.sites, memberDeletes, isMember_of_compile hreference hn] using hoperand hn
  case sequence =>
    intro items hitems a b node h
    simp only [compile] at h
    obtain ⟨nodes, t, hn, hnode⟩ := run_bind_ok h
    cases hnode
    simpa [Node.sites, memberDeletes] using hitems hn
  case nil =>
    intro a b nodes h
    simp only [compileAll] at h
    cases h
    exact .nil
  case cons =>
    intro e rest he hrest a b nodes h
    simp only [compileAll] at h
    obtain ⟨n, t, hn, h⟩ := run_bind_ok h
    obtain ⟨ns, u, hns, hall⟩ := run_bind_ok h
    cases hall
    simp only [Node.sitesAll, memberDeletesAll]
    exact (he hn).append (hrest hns)

end Expression

/-! ## The tree apart from the numbers in it -/

namespace Node

mutual

/-- The node with other numbers for its sites. -/
def renumber (f : UInt32 → UInt32) : Node → Node
  | .constant v => .constant v
  | .global name => .global name
  | .member object key => .member (renumber f object) (renumber f key)
  | .deleteProperty object key site =>
    .deleteProperty (renumber f object) (renumber f key) (f site)
  | .deleteBinding name => .deleteBinding name
  | .deleteValue operand => .deleteValue (renumber f operand)
  | .sequence items => .sequence (renumberAll f items)

/-- Nodes with other numbers for their sites. -/
def renumberAll (f : UInt32 → UInt32) : List Node → List Node
  | [] => []
  | node :: rest => renumber f node :: renumberAll f rest

end

mutual

theorem renumber_renumber (f g : UInt32 → UInt32) :
    ∀ node : Node, (node.renumber g).renumber f = node.renumber fun k => f (g k)
  | .constant v => by simp only [renumber]
  | .global name => by simp only [renumber]
  | .member object key => by simp only [renumber, renumber_renumber f g]
  | .deleteProperty object key site => by simp only [renumber, renumber_renumber f g]
  | .deleteBinding name => by simp only [renumber]
  | .deleteValue operand => by simp only [renumber, renumber_renumber f g]
  | .sequence items => by simp only [renumber, renumberAll_renumberAll f g]

theorem renumberAll_renumberAll (f g : UInt32 → UInt32) :
    ∀ nodes : List Node, renumberAll f (renumberAll g nodes) = renumberAll (fun k => f (g k)) nodes
  | [] => by simp only [renumberAll]
  | node :: rest => by
    simp only [renumberAll, renumber_renumber f g, renumberAll_renumberAll f g]

end

end Node

namespace Expression

variable {o : Options} {strict : Bool} {a b : DeleteArena}

/-- A new site has the first free number. -/
theorem allocateSite_number {k : UInt32} (h : (allocateSite o strict).run.run a = (.ok k, b)) :
    k = .ofNat a.size := by
  cases h
  rfl

namespace Numbered

variable {s : List UInt32} {n : Nat}

theorem size_eq (h : Numbered o strict a b s n) : b.size = a.size + n := by
  rw [h.arena, Arena.size_allocateMany]

/-- What is numbered from the end of a part on is numbered from its beginning, with the sites of
the part added. -/
theorem renumber (h : Numbered o strict a b s n) (tree : Node) :
    tree.renumber (.ofNat b.size + ·) =
      (tree.renumber (.ofNat n + ·)).renumber (.ofNat a.size + ·) := by
  simp only [Node.renumber_renumber, h.size_eq, UInt32.ofNat_add, UInt32.add_assoc]

theorem renumberAll (h : Numbered o strict a b s n) (trees : List Node) :
    Node.renumberAll (.ofNat b.size + ·) trees =
      Node.renumberAll (.ofNat a.size + ·) (Node.renumberAll (.ofNat n + ·) trees) := by
  simp only [Node.renumberAll_renumberAll, h.size_eq, UInt32.ofNat_add, UInt32.add_assoc]

end Numbered

/-- Whether a tree is what an expression compiles to, whatever the interpreter and the strictness:
the sites of the compiled expression are those of the tree, counted from the first free number. -/
def Relocates (e : Expression) (tree : Node) : Prop :=
  ∀ {o : Options} {strict : Bool} {a b : DeleteArena} {node : Node},
    (compile o strict e).run.run a = (.ok node, b) → node = tree.renumber (.ofNat a.size + ·)

/-- Whether trees are what some expressions compile to. -/
def RelocatesAll (es : List Expression) (trees : List Node) : Prop :=
  ∀ {o : Options} {strict : Bool} {a b : DeleteArena} {nodes : List Node},
    (compileAll o strict es).run.run a = (.ok nodes, b) →
      nodes = Node.renumberAll (.ofNat a.size + ·) trees

namespace Relocates

variable {object key operand : Expression} {t u : Node}

theorem literal {l : Literal} {v : Value} (hv : l.value = .ok v) :
    (Expression.literal l).Relocates (.constant v) := by
  intro o strict a b node h
  simp only [compile, hv] at h
  cases h
  rfl

theorem identifier (i : Identifier) : (Expression.identifier i).Relocates (.global i.name) := by
  intro o strict a b node h
  simp only [compile] at h
  cases h
  rfl

theorem dot (ht : object.Relocates t) (name : Identifier) :
    (object.dot name).Relocates (.member t (.constant (Value.ofString name.name))) := by
  intro o strict a b node h
  simp only [compile] at h
  obtain ⟨n, c, hobject, hnode⟩ := run_bind_ok h
  cases hnode
  simp only [ht hobject, Node.renumber]

/-- The sites of the key come after those of the base. -/
theorem index (ht : object.Relocates t) (hu : key.Relocates u) :
    (object.index key).Relocates (.member t (u.renumber (.ofNat object.memberDeletes + ·))) := by
  intro o strict a b node h
  simp only [compile] at h
  obtain ⟨n, c, hobject, h⟩ := run_bind_ok h
  obtain ⟨k, d, hkey, hnode⟩ := run_bind_ok h
  cases hnode
  have hbase := compile_numbered.1 object hobject
  simp only [Node.renumber, ht hobject, hu hkey, hbase.renumber]

theorem deleteDot (ht : object.Relocates t) (name : Identifier) :
    (object.dot name).delete.Relocates
      (.deleteProperty t (.constant (Value.ofString name.name))
        (.ofNat object.memberDeletes)) := by
  intro o strict a b node h
  simp only [compile] at h
  obtain ⟨n, c, hobject, h⟩ := run_bind_ok h
  obtain ⟨site, d, hsite, hnode⟩ := run_bind_ok h
  cases hnode
  have hbase := compile_numbered.1 object hobject
  simp only [Node.renumber, ht hobject, allocateSite_number hsite, hbase.size_eq,
    UInt32.ofNat_add]

theorem deleteIndex (ht : object.Relocates t) (hu : key.Relocates u) :
    (object.index key).delete.Relocates
      (.deleteProperty t (u.renumber (.ofNat object.memberDeletes + ·))
        (.ofNat (object.memberDeletes + key.memberDeletes))) := by
  intro o strict a b node h
  simp only [compile] at h
  obtain ⟨n, c, hobject, h⟩ := run_bind_ok h
  obtain ⟨k, d, hkey, h⟩ := run_bind_ok h
  obtain ⟨site, f, hsite, hnode⟩ := run_bind_ok h
  cases hnode
  have hbase := compile_numbered.1 object hobject
  have hoperands := hbase.append (compile_numbered.1 key hkey)
  simp only [Node.renumber, ht hobject, hu hkey, hbase.renumber, allocateSite_number hsite,
    hoperands.size_eq, UInt32.ofNat_add]

theorem deleteIdentifier (i : Identifier) :
    (Expression.identifier i).delete.Relocates (.deleteBinding i.name) := by
  intro o strict a b node h
  simp only [compile] at h
  cases strict with
  | true => cases h
  | false =>
    cases h
    rfl

theorem deleteValue (hreference : operand.isReference = false) (ht : operand.Relocates t) :
    operand.delete.Relocates (.deleteValue t) := by
  intro o strict a b node h
  rw [compile_delete_value _ _ hreference] at h
  obtain ⟨n, c, hoperand, hnode⟩ := run_bind_ok h
  cases hnode
  simp only [ht hoperand, Node.renumber]

theorem sequence {items : List Expression} {trees : List Node} (ht : RelocatesAll items trees) :
    (Expression.sequence items).Relocates (.sequence trees) := by
  intro o strict a b node h
  simp only [compile] at h
  obtain ⟨nodes, c, hitems, hnode⟩ := run_bind_ok h
  cases hnode
  simp only [ht hitems, Node.renumber]

end Relocates

namespace RelocatesAll

theorem nil : RelocatesAll [] [] := by
  intro o strict a b nodes h
  simp only [compileAll] at h
  cases h
  rfl

theorem cons {e : Expression} {rest : List Expression} {tree : Node} {trees : List Node}
    (ht : e.Relocates tree) (hts : RelocatesAll rest trees) :
    RelocatesAll (e :: rest) (tree :: Node.renumberAll (.ofNat e.memberDeletes + ·) trees) := by
  intro o strict a b nodes h
  simp only [compileAll] at h
  obtain ⟨n, c, hnode, h⟩ := run_bind_ok h
  obtain ⟨ns, d, hnodes, hall⟩ := run_bind_ok h
  cases hall
  have hfirst := compile_numbered.1 e hnode
  simp only [Node.renumberAll, ht hnode, hts hnodes, hfirst.renumberAll]

end RelocatesAll

/-- Any tree will do for what never compiles. -/
theorem Rejected.exists_tree {e : Expression} (h : e.Rejected) : ∃ tree, e.Relocates tree :=
  ⟨.constant .undefined, fun hnode => absurd hnode h⟩

/-- There is one tree that an expression compiles to whenever it compiles. -/
theorem compile_relocates :
    (∀ e : Expression, ∃ tree, e.Relocates tree) ∧
      ∀ es : List Expression, ∃ trees, RelocatesAll es trees := by
  refine induct_references ?literal ?identifier ?dot ?index ?privateMember ?deleteDot ?deleteIndex
    ?deleteIdentifier ?deleteValue ?sequence ?nil ?cons
  case literal =>
    intro l
    cases hv : l.value with
    | ok v => exact ⟨_, Relocates.literal hv⟩
    | error err => exact Rejected.exists_tree (Rejected.literal hv)
  case identifier => exact fun i => ⟨_, Relocates.identifier i⟩
  case dot => exact fun object name ⟨_, ht⟩ => ⟨_, Relocates.dot ht name⟩
  case index => exact fun object key ⟨_, ht⟩ ⟨_, hu⟩ => ⟨_, Relocates.index ht hu⟩
  case privateMember =>
    exact fun object name _ => Rejected.exists_tree (Rejected.privateMember object name)
  case deleteDot => exact fun object name ⟨_, ht⟩ => ⟨_, Relocates.deleteDot ht name⟩
  case deleteIndex => exact fun object key ⟨_, ht⟩ ⟨_, hu⟩ => ⟨_, Relocates.deleteIndex ht hu⟩
  case deleteIdentifier => exact fun i => ⟨_, Relocates.deleteIdentifier i⟩
  case deleteValue =>
    exact fun operand hreference ⟨_, ht⟩ => ⟨_, Relocates.deleteValue hreference ht⟩
  case sequence => exact fun items ⟨_, ht⟩ => ⟨_, Relocates.sequence ht⟩
  case nil => exact ⟨_, RelocatesAll.nil⟩
  case cons => exact fun e rest ⟨_, ht⟩ ⟨_, hts⟩ => ⟨_, RelocatesAll.cons ht hts⟩

/-- Whether one arena comes from another one by the allocation of sites for a program. -/
def Allocated (o : Options) (strict : Bool) (a b : DeleteArena) : Prop :=
  ∃ n, b = a.allocateMany (o.sitePolicy strict) o.limit n

instance : IsPreorder DeleteArena (Allocated o strict) where
  refl _ := ⟨0, by simp⟩
  trans := by
    rintro a b c ⟨m, rfl⟩ ⟨n, rfl⟩
    exact ⟨m + n, by simp⟩

/-- Whether it succeeds or not, compilation allocates sites for the program and does nothing
else. -/
theorem compile_allocates (o : Options) (strict : Bool) (e : Expression) (a : DeleteArena) :
    Allocated o strict a ((compile o strict e).run.run a).2 :=
  (compile_within (R := Allocated o strict) (fun _ => ⟨1, rfl⟩)).1 e a

end Expression
end PropertyDelete
