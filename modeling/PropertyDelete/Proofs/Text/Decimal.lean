import PropertyDelete.Text.Decimal
import Mathlib.Algebra.Group.Nat.Defs

/-!
Reading decimal numbers back. The reader goes through a text digit by digit
(`extend?_append`), and reads from the text of a number that number (`extend?_digits`); zeros
written after it multiply it by a power of ten (`extend?_zeros`). A text with any other
character in it reads as nothing (`extend?_of_mem`). The text of a number starts with a zero
only if it is that of zero. The integers that can be read are those of a grammar
(`readInteger?_isSome`).
-/
namespace PropertyDelete.Decimal

theorem digit?_digitChar {d : Nat} (h : d < 10) : digit? d.digitChar = some d := by
  have hall : ∀ e : Fin 10, digit? e.val.digitChar = some e.val := by decide
  exact hall ⟨d, h⟩

/-- A digit is a character from U+0030 to U+0039. -/
theorem digit?_eq_some {c : Char} {d : Nat} (h : digit? c = some d) :
    48 ≤ c.toNat ∧ c.toNat ≤ 57 ∧ d = c.toNat - 48 := by
  unfold digit? at h
  split at h
  · rename_i hc
    have hlow : 48 ≤ c.toNat := hc.1
    have hhigh : c.toNat ≤ 57 := hc.2
    have hd : c.toNat - 48 = d := Option.some.inj h
    omega
  · cases h

theorem digit?_isSome_of_mem_digits {n : Nat} {c : Char} (h : c ∈ digits n) :
    (digit? c).isSome := by
  have hc : c.isDigit = true := Nat.isDigit_of_mem_toDigits (by decide) (by decide) h
  rw [Char.isDigit, Bool.and_eq_true, decide_eq_true_eq, decide_eq_true_eq] at hc
  have hle : '0' ≤ c ∧ c ≤ '9' := hc
  rw [digit?, if_pos hle]
  rfl

/-! ## Reading -/

theorem extend?_append (xs ys : List Char) (acc : Nat) :
    extend? (xs ++ ys) acc = (extend? xs acc).bind (extend? ys) := by
  induction xs generalizing acc with
  | nil => rfl
  | cons c rest ih =>
    simp only [List.cons_append, extend?]
    cases digit? c with
    | none => rfl
    | some d => exact ih _

/-- Zeros after a number multiply it by a power of ten. -/
theorem extend?_zeros (k acc : Nat) :
    extend? (List.replicate k '0') acc = some (acc * 10 ^ k) := by
  induction k generalizing acc with
  | zero => simp [extend?]
  | succ k ih =>
    have hzero : digit? '0' = some 0 := by decide
    rw [List.replicate_succ, extend?, hzero]
    show extend? (List.replicate k '0') (acc * 10 + 0) = _
    rw [ih, Nat.add_zero, Nat.pow_succ, Nat.mul_assoc, Nat.mul_comm 10]

theorem extend?_digits (n : Nat) : extend? (digits n) 0 = some n := by
  induction n using Nat.base_induction 10 (by decide) with
  | single d hd =>
    rw [digits, Nat.toDigits_of_lt_base hd, extend?, digit?_digitChar hd]
    simp [extend?]
  | digit m d hd hm ih =>
    rw [digits, ← Nat.toDigits_append_toDigits (by decide) hm hd, extend?_append]
    rw [digits] at ih
    rw [ih, Nat.toDigits_of_lt_base hd, Option.bind_some, extend?, digit?_digitChar hd]
    simp [extend?, Nat.mul_comm]

/-- A text with a character that is no digit is not a number. -/
theorem extend?_of_mem {c : Char} (hc : digit? c = none) {cs : List Char} (h : c ∈ cs)
    (acc : Nat) : extend? cs acc = none := by
  obtain ⟨before, rest, rfl⟩ := List.append_of_mem h
  rw [extend?_append]
  cases extend? before acc with
  | none => rfl
  | some n =>
    show extend? (c :: rest) n = none
    rw [extend?, hc]
    rfl

/-! ## The text of a number -/

theorem digits_ne_nil (n : Nat) : digits n ≠ [] := Nat.toDigits_ne_nil

theorem length_digits_le {n k : Nat} (hk : 0 < k) (h : n < 10 ^ k) : (digits n).length ≤ k :=
  (Nat.length_toDigits_le_iff (by decide) hk).mpr h

/-- Only the text of zero starts with a zero. -/
theorem head?_digits_ne {n : Nat} (h : 0 < n) : (digits n).head? ≠ some '0' := by
  induction n using Nat.base_induction 10 (by decide) with
  | single d hd =>
    have hall : ∀ e : Fin 10, 0 < e.val → (Nat.toDigits 10 e.val).head? ≠ some '0' := by decide
    exact hall ⟨d, hd⟩ h
  | digit m d hd hm ih =>
    rw [digits, ← Nat.toDigits_append_toDigits (by decide) hm hd,
      List.head?_append]
    cases hd' : Nat.toDigits 10 m with
    | nil => exact absurd hd' Nat.toDigits_ne_nil
    | cons c rest =>
      rw [digits, hd'] at ih
      exact ih hm

theorem not_mem_digits {c : Char} (hc : digit? c = none) (n : Nat) : c ∉ digits n := by
  intro hm
  have hdigit := digit?_isSome_of_mem_digits hm
  simp [hc] at hdigit

/-- Only digits occur in the text of a number. -/
theorem not_mem_text {c : Char} (hc : digit? c = none) (n : Nat) : c ∉ (text n).toList := by
  rw [text, String.toList_ofList]
  exact not_mem_digits hc n

theorem text_injective {m n : Nat} (h : text m = text n) : m = n := by
  have hl : digits m = digits n := by
    have e := congrArg String.toList h
    rwa [text, text, String.toList_ofList, String.toList_ofList] at e
  have hm := extend?_digits m
  rw [hl, extend?_digits] at hm
  exact (Option.some.inj hm).symm

theorem readUnsigned?_digits {n bound : Nat} (h : n < bound) :
    readUnsigned? bound (digits n) = some n := by
  -- no digit is a plus sign, so nothing is taken off the front
  have hplus : ∀ rest, digits n ≠ '+' :: rest := by
    intro rest e
    exact not_mem_digits (show digit? '+' = none by decide) n (by simp [e])
  have hvalue : value? (digits n) = some n := by
    cases hd : digits n with
    | nil => exact absurd hd (digits_ne_nil n)
    | cons c rest =>
      rw [value?, ← hd]
      exact extend?_digits n
  unfold readUnsigned?
  split
  · rename_i rest hr
    exact absurd hr (hplus rest)
  · show (value? (digits n)).filter _ = _
    rw [hvalue]
    simp [h]

/-! ## The grammar of integers -/

theorem digit?_isSome (c : Char) : (digit? c).isSome = c.isDigit := by
  have hdigit : c.isDigit = decide ('0' ≤ c ∧ c ≤ '9') := (Bool.decide_and ..).symm
  rw [hdigit, digit?]
  by_cases h : '0' ≤ c ∧ c ≤ '9'
  · rw [if_pos h, decide_eq_true h]
    rfl
  · rw [if_neg h, decide_eq_false h]
    rfl

theorem digit?_of_isDigit {c : Char} (h : c.isDigit = true) :
    digit? c = some (c.toNat - '0'.toNat) := by
  obtain ⟨d, hd⟩ := Option.isSome_iff_exists.mp ((digit?_isSome c).trans h)
  rw [hd, (digit?_eq_some hd).2.2]
  rfl

theorem digit?_of_isDigit_eq_false {c : Char} (h : c.isDigit = false) : digit? c = none := by
  rw [← Option.not_isSome_iff_eq_none, digit?_isSome, h]
  exact Bool.false_ne_true

theorem extend?_eq_some {cs : List Char} {acc n : Nat} :
    extend? cs acc = some n ↔ (∀ c ∈ cs, c.isDigit) ∧ Nat.ofDigitChars 10 cs acc = n := by
  induction cs generalizing acc with
  | nil => simp [extend?]
  | cons c rest ih =>
    rw [extend?, List.forall_mem_cons, Nat.ofDigitChars_cons]
    cases hc : c.isDigit with
    | true =>
      rw [digit?_of_isDigit hc, Option.bind_some, ih, Nat.mul_comm acc]
      simp
    | false =>
      rw [digit?_of_isDigit_eq_false hc]
      simp

/-- Texts of a digit and then digits and underscores. -/
inductive Grouped : List Char → Prop
  | intro {c : Char} {rest : List Char} (first : c.isDigit)
    (later : ∀ d ∈ rest, d.isDigit ∨ d = '_') : Grouped (c :: rest)

/-- Texts of an integer: one sign at most in front of digits and underscores. -/
inductive Numeral : List Char → Prop
  | unsigned {cs : List Char} (h : Grouped cs) : Numeral cs
  | plus {cs : List Char} (h : Grouped cs) : Numeral ('+' :: cs)
  | minus {cs : List Char} (h : Grouped cs) : Numeral ('-' :: cs)

/-- The integer of a numeral: its digits make a number, which a minus sign in front negates. The
underscores count for nothing. -/
def numeralValue (cs : List Char) : Int :=
  let n := Nat.ofDigitChars 10 (cs.filter Char.isDigit) 0
  if cs.head? = some '-' then -n else n

theorem grouped_cons {c : Char} {rest : List Char} :
    Grouped (c :: rest) ↔ c.isDigit ∧ ∀ d ∈ rest, d.isDigit ∨ d = '_' :=
  ⟨fun | .intro first later => ⟨first, later⟩, fun h => .intro h.1 h.2⟩

theorem readGrouped?_eq_some {cs : List Char} {n : Nat} :
    readGrouped? cs = some n ↔
      Grouped cs ∧ Nat.ofDigitChars 10 (cs.filter Char.isDigit) 0 = n := by
  cases cs with
  | nil => exact iff_of_false (by simp [readGrouped?]) (fun h => nomatch h.1)
  | cons c rest =>
    rw [grouped_cons, readGrouped?]
    cases hc : c.isDigit with
    | true =>
      have hlater : (∀ d ∈ rest.filter (· ≠ '_'), d.isDigit) ↔
          ∀ d ∈ rest, d.isDigit ∨ d = '_' := by
        simp only [List.mem_filter, decide_eq_true_eq]
        refine forall_congr' fun d => ?_
        by_cases hd : d = '_' <;> simp [hd]
      rw [digit?_of_isDigit hc, Option.bind_some, extend?_eq_some, hlater,
        List.filter_cons_of_pos hc, Nat.ofDigitChars_cons, Nat.mul_zero, Nat.zero_add]
      simp only [true_and, and_congr_right_iff]
      intro hrest
      -- of digits and underscores, those that are no underscores are the digits
      have hfilter : rest.filter (· ≠ '_') = rest.filter Char.isDigit := by
        refine List.filter_congr fun d hd => ?_
        rcases hrest d hd with hdigit | rfl
        · have hne : d ≠ '_' := by
            rintro rfl
            exact absurd hdigit (by decide)
          rw [hdigit, decide_eq_true hne]
        · decide
      rw [hfilter]
    | false =>
      rw [digit?_of_isDigit_eq_false hc]
      simp

/-- No sign is a digit, so a text with a sign in front is a numeral only without it. -/
theorem numeral_cons {c : Char} {rest : List Char} :
    Numeral (c :: rest) ↔ if c = '-' ∨ c = '+' then Grouped rest else Grouped (c :: rest) := by
  constructor
  · rintro (h | h | h)
    · rw [if_neg]
      · exact h
      · rintro (rfl | rfl) <;> exact absurd (grouped_cons.mp h).1 (by decide)
    · rwa [if_pos (Or.inr rfl)]
    · rwa [if_pos (Or.inl rfl)]
  · split
    · next h =>
      rcases h with rfl | rfl
      · exact .minus
      · exact .plus
    · exact .unsigned

/-- A text is read as an integer if it is one of the grammar, and then as its value. -/
theorem readInteger?_eq_some {cs : List Char} {z : Int} :
    readInteger? cs = some z ↔ Numeral cs ∧ numeralValue cs = z := by
  -- with either sign in front, and without one, the digits are those of the group
  have hgroup : ∀ (f : Nat → Int) (cs : List Char), (readGrouped? cs).map f = some z ↔
      Grouped cs ∧ f (Nat.ofDigitChars 10 (cs.filter Char.isDigit) 0) = z := by
    intro f cs
    simp only [Option.map_eq_some_iff, readGrouped?_eq_some]
    grind
  cases cs with
  | nil => exact iff_of_false (by simp [readInteger?, readGrouped?]) (fun h => nomatch h.1)
  | cons c rest =>
    rw [numeral_cons, numeralValue, List.head?_cons]
    by_cases hminus : c = '-'
    · subst hminus
      exact hgroup (fun n => -(n : Int)) rest
    by_cases hplus : c = '+'
    · subst hplus
      exact hgroup Int.ofNat rest
    · have hread : readInteger? (c :: rest) = (readGrouped? (c :: rest)).map Int.ofNat := by
        unfold readInteger?
        split
        · next h => exact absurd (List.cons.inj h).1 hminus
        · next h => exact absurd (List.cons.inj h).1 hplus
        · rfl
      have hsome : some c ≠ some '-' := fun h => hminus (Option.some.inj h)
      rw [hread, hgroup, if_neg (not_or.mpr ⟨hminus, hplus⟩), if_neg hsome]
      rfl

end PropertyDelete.Decimal
