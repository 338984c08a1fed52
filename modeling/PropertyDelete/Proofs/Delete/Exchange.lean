import PropertyDelete.Delete.Outcome

/-!
Acts that can be exchanged. Two acts on a state are exchangeable if neither changes the answer of
the other and both orders lead to the same state (`Exchangeable`). An act that is refused or else
clears something is exchangeable with another one of that kind if clearing can be exchanged and
changes nothing about what is refused (`exchangeable_guarded`). Where all acts are exchangeable,
each has the answer that it has alone, and the state after all of them does not depend on their
order (`inTurn_answers`, `inTurn_perm`).
-/
namespace PropertyDelete

/-- Whether two acts on a state can be done in any order: each has the answer that it has alone,
and the state afterwards is the same. -/
structure Exchangeable {σ α : Type} (act act' : σ → α × σ) (s : σ) : Prop where
  first : (act (act' s).2).1 = (act s).1
  second : (act' (act s).2).1 = (act' s).1
  state : (act' (act s).2).2 = (act (act' s).2).2

/-- Acts may be replaced by others that are the same where it matters. -/
theorem Exchangeable.congr {σ α : Type} {act act' other other' : σ → α × σ} {s : σ}
    (h : Exchangeable act act' s) (hs : other s = act s) (hs' : other' s = act' s)
    (hlater : other (act' s).2 = act (act' s).2) (hlater' : other' (act s).2 = act' (act s).2) :
    Exchangeable other other' s := by
  constructor
  · rw [hs', hlater, hs]
    exact h.first
  · rw [hs, hlater', hs']
    exact h.second
  · rw [hs, hs', hlater, hlater']
    exact h.state

/-- Acts on a part of a state can be exchanged as acts on the whole of it. -/
theorem Exchangeable.lift {σ τ α : Type} {act act' : σ → α × σ} {s : σ}
    (h : Exchangeable act act' s) (whole : σ → τ) {wide wide' : τ → α × τ}
    (hwide : ∀ s, wide (whole s) = ((act s).1, whole (act s).2))
    (hwide' : ∀ s, wide' (whole s) = ((act' s).1, whole (act' s).2)) :
    Exchangeable wide wide' (whole s) := by
  constructor
  · rw [hwide', hwide, hwide]
    exact h.first
  · rw [hwide, hwide', hwide']
    exact h.second
  · rw [hwide, hwide', hwide', hwide]
    exact congrArg whole h.state

/-- An act that does nothing, and answers so in every state, can be exchanged with any other. -/
theorem exchangeable_idle {σ α : Type} {act : σ → α × σ} {answer : α}
    (hact : ∀ s, act s = (answer, s)) (act' : σ → α × σ) (s : σ) :
    Exchangeable act act' s := by
  constructor <;> simp only [hact]

theorem Exchangeable.symm {σ α : Type} {act act' : σ → α × σ} {s : σ}
    (h : Exchangeable act act' s) : Exchangeable act' act s :=
  ⟨h.second, h.first, h.state.symm⟩

/-! ## Acts that may be refused -/

/-- The act that is refused, or else answers true and clears something. -/
def guarded {σ : Type} (refusal? : σ → Option Outcome) (clear : σ → σ) (s : σ) : Outcome × σ :=
  match refusal? s with
  | some answer => (answer, s)
  | none => (.ok true, clear s)

section Guarded

variable {σ : Type} {refusal? refusal?' : σ → Option Outcome} {clear clear' : σ → σ} {s : σ}

theorem guarded_of_some (clear : σ → σ) {answer : Outcome} (h : refusal? s = some answer) :
    guarded refusal? clear s = (answer, s) := by
  rw [guarded, h]

theorem guarded_of_none (clear : σ → σ) (h : refusal? s = none) :
    guarded refusal? clear s = (.ok true, clear s) := by
  rw [guarded, h]

/-- Two acts are exchangeable if to clear what is not refused changes nothing for the other. -/
theorem exchangeable_guarded (h : refusal? s = none → refusal?' (clear s) = refusal?' s)
    (h' : refusal?' s = none → refusal? (clear' s) = refusal? s)
    (hclear : clear' (clear s) = clear (clear' s)) :
    Exchangeable (guarded refusal? clear) (guarded refusal?' clear') s := by
  cases hr : refusal? s with
  | some answer =>
    have hact := guarded_of_some clear hr
    cases hr' : refusal?' s with
    | some answer' =>
      have hact' := guarded_of_some clear' hr'
      constructor <;> simp only [hact, hact']
    | none =>
      have hact' := guarded_of_none clear' hr'
      have hlater := guarded_of_some clear ((h' hr').trans hr)
      constructor <;> simp only [hact, hact', hlater]
  | none =>
    have hact := guarded_of_none clear hr
    cases hr' : refusal?' s with
    | some answer' =>
      have hact' := guarded_of_some clear' hr'
      have hlater' := guarded_of_some clear' ((h hr).trans hr')
      constructor <;> simp only [hact, hact', hlater']
    | none =>
      have hact' := guarded_of_none clear' hr'
      have hlater := guarded_of_none clear ((h' hr').trans hr)
      have hlater' := guarded_of_none clear' ((h hr).trans hr')
      constructor <;> simp only [hact, hact', hlater, hlater', hclear]

/-- Whether refused or not, an act keeps what clearing keeps. -/
theorem guarded_keeps {P : σ → Prop} (h : P s) (hclear : P (clear s)) :
    P (guarded refusal? clear s).2 := by
  cases hr : refusal? s with
  | some answer =>
    rw [guarded_of_some clear hr]
    exact h
  | none =>
    rw [guarded_of_none clear hr]
    exact hclear

end Guarded

/-! ## Many acts -/

/-- Some acts, one after the other: their answers, and the state after them. -/
def inTurn {ι σ α : Type} (act : ι → σ → α × σ) : List ι → σ → List α × σ
  | [], s => ([], s)
  | i :: rest, s =>
    let first := act i s
    let others := inTurn act rest first.2
    (first.1 :: others.1, others.2)

section InTurn

-- acts of a certain kind, all of them exchangeable wherever something holds that they keep
variable {ι σ α : Type} {act : ι → σ → α × σ} {A : ι → Prop} {I : σ → Prop}
variable (hkeep : ∀ i, A i → ∀ s, I s → I (act i s).2)
variable (hexchange : ∀ i j, A i → A j → ∀ s, I s → Exchangeable (act i) (act j) s)
include hkeep hexchange

/-- Each of the acts has the answer that it has alone. -/
theorem inTurn_answers {is : List ι} (hall : ∀ i ∈ is, A i) {s : σ} (hs : I s) :
    (inTurn act is s).1 = is.map fun i => (act i s).1 := by
  induction is generalizing s with
  | nil => rfl
  | cons i rest ih =>
    obtain ⟨hi, hothers⟩ := List.forall_mem_cons.mp hall
    rw [inTurn, List.map_cons]
    refine congrArg ((act i s).1 :: ·) ((ih hothers (hkeep i hi s hs)).trans ?_)
    exact List.map_congr_left fun j hj => (hexchange i j hi (hothers j hj) s hs).second

/-- The state after all of the acts does not depend on their order. -/
theorem inTurn_perm {is js : List ι} (hperm : is.Perm js) (hall : ∀ i ∈ is, A i) {s : σ}
    (hs : I s) : (inTurn act is s).2 = (inTurn act js s).2 := by
  induction hperm generalizing s with
  | nil => rfl
  | cons i _ ih =>
    obtain ⟨hi, hothers⟩ := List.forall_mem_cons.mp hall
    exact ih hothers (hkeep i hi s hs)
  | swap i j rest =>
    have hstate := (hexchange i j (hall i (by simp)) (hall j (by simp)) s hs).state
    show (inTurn act rest (act i (act j s).2).2).2 = (inTurn act rest (act j (act i s).2).2).2
    rw [hstate]
  | trans hfirst _ ih ih' =>
    rw [ih hall hs]
    exact ih' (fun i hi => hall i (hfirst.mem_iff.mpr hi)) hs

end InTurn

end PropertyDelete
