import PropertyDelete.Proofs.Number.Reading

/-!
The text of a number tells the number. It is read as a word or as a decimal (`Reading.read?`), and
a reading stands for no more than one number, up to the sign of zero and the patterns that are not a
number (`Reading.Denotes.unique`): a decimal stands for the number that it is read as, which is the
one whose text it is from (`exists_reading`). Numbers of one value are one number, or both are zeros
(`numericallyEqual_iff`).
-/
namespace PropertyDelete.Number

/-- Whether two numbers are numerically equal: they have the same value, as both zeros have, or
they are the same infinity. -/
def NumericallyEqual (a b : Number) : Prop :=
  (∃ v, a.value? = some v ∧ b.value? = some v) ∨
    a.isInfinite = true ∧ b.isInfinite = true ∧ a.isNegative = b.isNegative

/-- What the text of a number can say. -/
inductive Reading where
  | nan
  | infinite (negative : Bool)
  | decimal (x : ℚ)

namespace Reading

/-- What a text says: it is one of the words, or a decimal, with a minus sign or without one. -/
def read? (cs : List Char) : Option Reading :=
  if cs = "NaN".toList then some nan
  else if cs = "Infinity".toList then some (infinite false)
  else if cs = "-Infinity".toList then some (infinite true)
  else
    match cs with
    | '-' :: rest => (Decimal.read? rest).map fun x => decimal (-x)
    | _ => (Decimal.read? cs).map decimal

/-- Whether a reading stands for a number. A decimal other than zero stands for the number of its
sign that it is read as. -/
def Denotes : Reading → Number → Prop
  | nan, n => n.isNaN = true
  | infinite negative, n => n.isInfinite = true ∧ n.isNegative = negative
  | decimal x, n =>
    n.isFinite = true ∧
      if x = 0 then n.isZero = true
      else n.isNegative = decide (x < 0) ∧ n.toBinary.Reads |x|

variable {cs : List Char} {x : ℚ}

/-- What is read as a decimal is none of the words, and has no sign. -/
theorem read?_decimal (h : Decimal.read? cs = some x) : read? cs = some (decimal x) := by
  have hhead : ∀ c rest, Decimal.digit? c = none → c ≠ '.' → c ≠ 'e' → cs ≠ c :: rest := by
    rintro c rest hc hpoint he rfl
    rw [Decimal.read?_of_head hc hpoint he] at h
    cases h
  have hnan : cs ≠ "NaN".toList := hhead 'N' "aN".toList (by decide) (by decide) (by decide)
  have hinfinity : cs ≠ "Infinity".toList :=
    hhead 'I' "nfinity".toList (by decide) (by decide) (by decide)
  have hminus : cs ≠ "-Infinity".toList :=
    hhead '-' "Infinity".toList (by decide) (by decide) (by decide)
  unfold read?
  rw [if_neg hnan, if_neg hinfinity, if_neg hminus]
  split
  · next rest => exact absurd rfl (hhead '-' rest (by decide) (by decide) (by decide))
  · rw [h]
    rfl

theorem read?_negative (h : Decimal.read? cs = some x) :
    read? ('-' :: cs) = some (decimal (-x)) := by
  have hword : cs ≠ 'I' :: "nfinity".toList := by
    rintro rfl
    rw [Decimal.read?_of_head (by decide) (by decide) (by decide)] at h
    cases h
  have hnan : '-' :: cs ≠ "NaN".toList := fun he => absurd (List.cons.inj he).1 (by decide)
  have hinfinity : '-' :: cs ≠ "Infinity".toList :=
    fun he => absurd (List.cons.inj he).1 (by decide)
  have hminus : '-' :: cs ≠ "-Infinity".toList := fun he => hword (List.cons.inj he).2
  unfold read?
  rw [if_neg hnan, if_neg hinfinity, if_neg hminus]
  show (Decimal.read? cs).map (fun y => decimal (-y)) = _
  rw [h]
  rfl

/-- What is read as digits is read as the number that they make. -/
theorem read?_digits {m : Nat} (hne : cs ≠ []) (h : Decimal.extend? cs 0 = some m) :
    read? cs = some (decimal m) := by
  have habsent : ∀ c : Char, Decimal.digit? c = none → c ∉ cs := by
    intro c hc hmem
    rw [Decimal.extend?_of_mem hc hmem] at h
    cases h
  have hvalue : Decimal.value? cs = some m := by
    rw [Decimal.value?_of_ne_nil hne, h]
  apply read?_decimal
  rw [Decimal.read?_of_not_mem (habsent 'e' (by decide)),
    Decimal.readFixed?_digits (habsent '.' (by decide)) hvalue]

theorem read?_zero : read? ['0'] = some (decimal 0) := by
  rw [read?_digits (List.cons_ne_nil _ _) (show _ = some 0 by decide), Nat.cast_zero]

end Reading

variable {n : Number}

theorem significand_pos (hf : n.isFinite = true) (hz : n.isZero = false) :
    0 < n.toBinary.significand := by
  rw [isZero, hf, Bool.true_and, beq_eq_false_iff_ne] at hz
  exact Nat.pos_of_ne_zero hz

/-- The value of a finite number is that of its pattern, with its sign. -/
theorem value?_of_isFinite (hf : n.isFinite = true) :
    n.value? = some ((if n.isNegative then -1 else 1) * n.toBinary.value) := by
  rw [value?, if_pos hf]
  rfl

theorem isFinite_of_value? {x : ℚ} (h : n.value? = some x) : n.isFinite = true := by
  cases hf : n.isFinite with
  | true => rfl
  | false =>
    rw [value?, hf, if_neg Bool.false_ne_true] at h
    cases h

theorem chars_of_isFinite (hf : n.isFinite = true) :
    n.chars = if n.isZero then ['0']
      else if n.isNegative then '-' :: n.toBinary.shortest.chars
      else n.toBinary.shortest.chars := by
  rw [chars, isNaN_of_isFinite hf, isInfinite_of_isFinite hf]
  rfl

theorem chars_of_isNaN (h : n.isNaN = true) : n.chars = "NaN".toList := by
  rw [chars, if_pos h]

theorem chars_of_isZero (h : n.isZero = true) : n.chars = ['0'] := by
  have hf : n.isFinite = true := (Bool.and_eq_true_iff.mp h).1
  rw [chars_of_isFinite hf, if_pos h]

theorem isNaN_of_isInfinite (h : n.isInfinite = true) : n.isNaN = false := by
  rw [isInfinite, Bool.and_eq_true, beq_iff_eq, beq_iff_eq] at h
  simp [isNaN, h.2]

theorem chars_of_isInfinite (h : n.isInfinite = true) :
    n.chars = (if n.isNegative then "-Infinity" else "Infinity").toList := by
  have hzero : n.isZero = false := by
    cases hz : n.isZero with
    | false => rfl
    | true =>
      have hf := isInfinite_of_isFinite (Bool.and_eq_true_iff.mp hz).1
      rw [h] at hf
      cases hf
  rw [chars, isNaN_of_isInfinite h, hzero, h]
  rfl

/-- A number other than zero is written as its shortest decimal, with its sign. -/
theorem read?_chars_of_isFinite (hf : n.isFinite = true) (hz : n.isZero = false) :
    Reading.read? n.chars =
      some (.decimal ((if n.isNegative then -1 else 1) * n.toBinary.shortest.value)) := by
  have hpos := significand_pos hf hz
  have hx := (Binary.reads_shortest hpos).pos hpos
  have hcoefficient : 0 < n.toBinary.shortest.coefficient := by
    refine Nat.pos_of_ne_zero fun hzero => ?_
    rw [Scientific.value, hzero, Nat.cast_zero, zero_mul] at hx
    exact absurd hx (lt_irrefl 0)
  have hread := Scientific.read?_chars hcoefficient
  rw [chars_of_isFinite hf, hz, if_neg Bool.false_ne_true]
  cases n.isNegative with
  | false =>
    rw [if_neg Bool.false_ne_true, if_neg Bool.false_ne_true, one_mul]
    exact Reading.read?_decimal hread
  | true =>
    rw [if_pos rfl, if_pos rfl, neg_one_mul]
    exact Reading.read?_negative hread

/-- What a number is read from stands for it, with its sign. -/
theorem denotes_of_reads {x : ℚ} (hf : n.isFinite = true) (hz : n.isZero = false)
    (h : n.toBinary.Reads x) :
    (Reading.decimal ((if n.isNegative then -1 else 1) * x)).Denotes n := by
  have hx := h.pos (significand_pos hf hz)
  refine ⟨hf, ?_⟩
  cases hsign : n.isNegative with
  | false =>
    rw [if_neg Bool.false_ne_true, one_mul, if_neg hx.ne', abs_of_pos hx]
    exact ⟨(decide_eq_false hx.not_gt).symm, h⟩
  | true =>
    have hnegative := neg_lt_zero.mpr hx
    rw [if_pos rfl, neg_one_mul, if_neg hnegative.ne, abs_neg, abs_of_pos hx]
    exact ⟨(decide_eq_true hnegative).symm, h⟩

theorem denotes_zero (hz : n.isZero = true) : (Reading.decimal 0).Denotes n := by
  refine ⟨(Bool.and_eq_true_iff.mp hz).1, ?_⟩
  rwa [if_pos rfl]

/-- The text of a number is read as something that stands for the number. -/
theorem exists_reading (n : Number) : ∃ r, Reading.read? n.chars = some r ∧ r.Denotes n := by
  by_cases hnan : n.isNaN = true
  · exact ⟨.nan, by rw [chars_of_isNaN hnan]; rfl, hnan⟩
  by_cases hinfinite : n.isInfinite = true
  · refine ⟨.infinite n.isNegative, ?_, hinfinite, rfl⟩
    rw [chars_of_isInfinite hinfinite]
    cases n.isNegative <;> rfl
  have hf := isFinite_of_not hnan hinfinite
  cases hz : n.isZero with
  | true =>
    refine ⟨.decimal 0, ?_, denotes_zero hz⟩
    rw [chars_of_isZero hz, Reading.read?_zero]
  | false =>
    have hreads := Binary.reads_shortest (significand_pos hf hz)
    exact ⟨_, read?_chars_of_isFinite hf hz, denotes_of_reads hf hz hreads⟩

/-- The value of a number stands for it. -/
theorem denotes_of_value? {x : ℚ} (h : n.value? = some x) : (Reading.decimal x).Denotes n := by
  cases hz : n.isZero with
  | true =>
    rw [value?_of_isZero hz, Option.some.injEq] at h
    subst h
    exact denotes_zero hz
  | false =>
    have hf := isFinite_of_value? h
    rw [value?_of_isFinite hf, Option.some.injEq] at h
    subst h
    exact denotes_of_reads hf hz (Binary.reads_value (significand_pos hf hz))

/-- Numbers of the same sign that a rational is read as have the same value. -/
theorem value?_of_reads {a b : Number} {x : ℚ} (ha : a.isFinite = true) (hb : b.isFinite = true)
    (hsign : a.isNegative = b.isNegative) (hax : a.toBinary.Reads x) (hbx : b.toBinary.Reads x) :
    a.value? = b.value? := by
  rw [toBinary_eq] at hax hbx
  have hpattern := Binary.reads_unique hax hbx
  rw [value?_of_isFinite ha, value?_of_isFinite hb, hsign, toBinary_eq, toBinary_eq, hpattern]

/-- Numbers that a decimal stands for have the same value. -/
theorem Reading.Denotes.value?_eq {x : ℚ} {a b : Number} (ha : (decimal x).Denotes a)
    (hb : (decimal x).Denotes b) : a.value? = b.value? := by
  obtain ⟨hfa, ha⟩ := ha
  obtain ⟨hfb, hb⟩ := hb
  by_cases hx : x = 0
  · rw [if_pos hx] at ha hb
    rw [value?_of_isZero ha, value?_of_isZero hb]
  · rw [if_neg hx] at ha hb
    exact value?_of_reads hfa hfb (ha.1.trans hb.1.symm) ha.2 hb.2

/-- What a reading stands for is settled, up to the sign of zero and what is not a number. -/
theorem Reading.Denotes.unique {r : Reading} {a b : Number} (ha : r.Denotes a)
    (hb : r.Denotes b) : a.NumericallyEqual b ∨ a.isNaN = true ∧ b.isNaN = true := by
  cases r with
  | nan => exact Or.inr ⟨ha, hb⟩
  | infinite negative => exact Or.inl (Or.inr ⟨ha.1, hb.1, ha.2.trans hb.2.symm⟩)
  | decimal x =>
    have hvalue := value?_of_isFinite ha.1
    exact Or.inl (Or.inl ⟨_, hvalue, (ha.value?_eq hb).symm.trans hvalue⟩)

/-- What the value of a number says of its pattern and of its sign; of the sign of a zero it says
nothing. -/
theorem of_value? {v : ℚ} (h : n.value? = some v) :
    n.isFinite = true ∧ n.toBinary.value = |v| ∧ (n.isZero = true ↔ v = 0) ∧
      (v ≠ 0 → (n.isNegative = true ↔ v < 0)) := by
  have hf := isFinite_of_value? h
  rw [value?_of_isFinite hf, Option.some.injEq] at h
  have hnonneg : 0 ≤ n.toBinary.value := by
    unfold Binary.value
    positivity
  have hzero : n.isZero = true ↔ n.toBinary.value = 0 := by
    have hscale : (2 : ℚ) ^ n.toBinary.exponent ≠ 0 := by positivity
    rw [isZero, hf, Bool.true_and, beq_iff_eq, Binary.value, mul_eq_zero_iff_right hscale,
      Nat.cast_eq_zero]
    rfl
  cases hsign : n.isNegative with
  | false =>
    rw [hsign, if_neg Bool.false_ne_true, one_mul] at h
    rw [← h]
    refine ⟨hf, (abs_of_nonneg hnonneg).symm, hzero, fun _ => ?_⟩
    exact iff_of_false Bool.false_ne_true hnonneg.not_gt
  | true =>
    rw [hsign, if_pos rfl, neg_one_mul] at h
    rw [← h]
    refine ⟨hf, by rw [abs_neg, abs_of_nonneg hnonneg], by rw [hzero, neg_eq_zero], fun hne => ?_⟩
    have hpos := lt_of_le_of_ne hnonneg (neg_ne_zero.mp hne).symm
    exact iff_of_true rfl (neg_lt_zero.mpr hpos)

theorem eq_of_pattern {a b : Number} (hpattern : a.pattern = b.pattern)
    (hsign : a.isNegative = b.isNegative) : a = b := by
  have ha := a.bits.toNat_lt
  have hb := b.bits.toNat_lt
  have hpow : Nat.pow 2 63 = 2 ^ 63 := rfl
  have hiff := Bool.eq_iff_iff.mp hsign
  rw [isNegative, isNegative, beq_iff_eq, beq_iff_eq, hpow] at hiff
  unfold pattern at hpattern
  have hbits : a.bits.toNat = b.bits.toNat := by omega
  cases a
  cases b
  exact congrArg Number.mk (UInt64.toNat_inj.mp hbits)

/-- Numbers of the same value are both zeros, or they are one number: the value tells the pattern
and the sign. -/
theorem eq_of_value? {a b : Number} {v : ℚ} (ha : a.value? = some v) (hb : b.value? = some v) :
    a = b ∨ a.isZero = true ∧ b.isZero = true := by
  obtain ⟨-, hva, hza, hsa⟩ := of_value? ha
  obtain ⟨-, hvb, hzb, hsb⟩ := of_value? hb
  by_cases hv : v = 0
  · exact Or.inr ⟨hza.mpr hv, hzb.mpr hv⟩
  · refine Or.inl (eq_of_pattern (pattern_eq_of_value (hva.trans hvb.symm)) ?_)
    exact Bool.eq_iff_iff.mpr ((hsa hv).trans (hsb hv).symm)

theorem eq_of_isInfinite {a b : Number} (ha : a.isInfinite = true) (hb : b.isInfinite = true)
    (hsign : a.isNegative = b.isNegative) : a = b := by
  have hpattern : ∀ n : Number, n.isInfinite = true → n.pattern = 2047 * 2 ^ 52 := by
    intro n h
    rw [isInfinite, Bool.and_eq_true, beq_iff_eq, beq_iff_eq] at h
    have hbiased : n.bits.toNat / 2 ^ 52 % 2 ^ 11 = 2047 := h.1
    have hfraction : n.bits.toNat % 2 ^ 52 = 0 := h.2
    unfold pattern
    omega
  exact eq_of_pattern ((hpattern a ha).trans (hpattern b hb).symm) hsign

/-- Numbers are numerically equal if they are one number, but not one that is none, or two zeros. -/
theorem numericallyEqual_iff {a b : Number} :
    a.NumericallyEqual b ↔ a = b ∧ a.isNaN = false ∨ a.isZero = true ∧ b.isZero = true := by
  constructor
  · rintro (⟨v, ha, hb⟩ | ⟨ha, hb, hsign⟩)
    · rcases eq_of_value? ha hb with hab | hzero
      · exact Or.inl ⟨hab, isNaN_of_isFinite (of_value? ha).1⟩
      · exact Or.inr hzero
    · exact Or.inl ⟨eq_of_isInfinite ha hb hsign, isNaN_of_isInfinite ha⟩
  · rintro (⟨rfl, hnan⟩ | ⟨ha, hb⟩)
    · cases hinfinite : a.isInfinite with
      | true => exact Or.inr ⟨hinfinite, hinfinite, rfl⟩
      | false =>
        have hf := isFinite_of_not (Bool.eq_false_iff.mp hnan) (Bool.eq_false_iff.mp hinfinite)
        exact Or.inl ⟨_, value?_of_isFinite hf, value?_of_isFinite hf⟩
    · exact Or.inl ⟨0, value?_of_isZero ha, value?_of_isZero hb⟩

end PropertyDelete.Number
