import PropertyDelete.Proofs.Number.Neighbours
import PropertyDelete.Proofs.Text.Decimal
import Mathlib.Data.List.TakeWhile

/-!
Reading the text of a decimal. `Decimal.read?` reads digits with at most one point among them, and
an exponent of ten after the letter `e`. However a decimal is laid out, in plain notation with
zeros after its digits, with a point among them or zeros before them, or with an exponent, its
characters are read as its value (`Scientific.read?_chars`). So decimals of different values are
written differently.
-/
namespace PropertyDelete

namespace Decimal

/-- What stands before the first separator. -/
def before (sep : Char) (cs : List Char) : List Char := cs.takeWhile (· ≠ sep)

/-- What stands after the first separator; nothing if there is none. -/
def after (sep : Char) (cs : List Char) : List Char := (cs.dropWhile (· ≠ sep)).tail

/-- The value of digits with at most one point among them. -/
def readFixed? (cs : List Char) : Option ℚ :=
  (value? (before '.' cs ++ after '.' cs)).map fun m => m * 10 ^ (-(after '.' cs).length : Int)

/-- The value of a decimal text, with an exponent or without one. -/
def read? (cs : List Char) : Option ℚ :=
  (readFixed? (before 'e' cs)).bind fun x =>
    (if 'e' ∈ cs then readInteger? (after 'e' cs) else some 0).map fun e => x * 10 ^ e

section Separators

variable {sep : Char} {cs : List Char} (h : sep ∉ cs)
include h

theorem ne_of_not_mem : ∀ c ∈ cs, decide (c ≠ sep) = true := by
  intro c hc
  rw [decide_eq_true_eq]
  rintro rfl
  exact h hc

theorem before_of_not_mem : before sep cs = cs :=
  List.takeWhile_eq_self_iff.mpr (ne_of_not_mem h)

theorem after_of_not_mem : after sep cs = [] := by
  rw [after, List.dropWhile_eq_nil_iff.mpr (ne_of_not_mem h), List.tail_nil]

theorem before_append (rest : List Char) : before sep (cs ++ sep :: rest) = cs := by
  rw [before, List.takeWhile_append_of_pos (ne_of_not_mem h), List.takeWhile_cons_of_neg (by simp),
    List.append_nil]

theorem after_append (rest : List Char) : after sep (cs ++ sep :: rest) = rest := by
  rw [after, List.dropWhile_append_of_pos (ne_of_not_mem h), List.dropWhile_cons_of_neg (by simp),
    List.tail_cons]

end Separators

/-! ## One lemma for each notation -/

variable {cs xs ys : List Char} {m : Nat}

theorem value?_of_ne_nil (h : cs ≠ []) : value? cs = extend? cs 0 := by
  cases cs with
  | nil => exact absurd rfl h
  | cons c rest => rfl

theorem readFixed?_digits (hpoint : '.' ∉ cs) (hm : value? cs = some m) :
    readFixed? cs = some (m : ℚ) := by
  rw [readFixed?, before_of_not_mem hpoint, after_of_not_mem hpoint, List.append_nil, hm]
  simp

theorem readFixed?_point (hpoint : '.' ∉ xs) (hm : value? (xs ++ ys) = some m) :
    readFixed? (xs ++ '.' :: ys) = some ((m : ℚ) * 10 ^ (-ys.length : Int)) := by
  rw [readFixed?, before_append hpoint, after_append hpoint, hm]
  rfl

theorem read?_of_not_mem (he : 'e' ∉ cs) : read? cs = readFixed? cs := by
  rw [read?, before_of_not_mem he, if_neg he]
  cases readFixed? cs with
  | none => rfl
  | some x => simp

theorem readGrouped?_digits (n : Nat) : readGrouped? (digits n) = some n := by
  have hplain : (digits n).filter (· ≠ '_') = digits n :=
    List.filter_eq_self.mpr (ne_of_not_mem (not_mem_digits (by decide) n))
  have hread := extend?_digits n
  cases hd : digits n with
  | nil => exact absurd hd (digits_ne_nil n)
  | cons c rest =>
    rw [hd] at hplain hread
    have hc : c ≠ '_' := by
      rintro rfl
      exact not_mem_digits (c := '_') (by decide) n (by simp [hd])
    rw [List.filter_cons_of_pos (by simpa using hc), List.cons.injEq] at hplain
    rw [readGrouped?, hplain.2, ← hread, extend?]
    simp

/-- An exponent is written with its sign and read with it. -/
theorem readInteger?_exponent (e : Int) :
    readInteger? ((if e < 0 then '-' else '+') :: digits e.natAbs) = some e := by
  by_cases h : e < 0
  · rw [if_pos h, readInteger?, readGrouped?_digits]
    show some (-(e.natAbs : Int)) = some e
    rw [Option.some.injEq]
    omega
  · rw [if_neg h, readInteger?, readGrouped?_digits]
    show some (e.natAbs : Int) = some e
    rw [Option.some.injEq]
    omega

theorem read?_exponent (he : 'e' ∉ cs) (e : Int) :
    read? (cs ++ Scientific.exponentChars e) = (readFixed? cs).map (· * 10 ^ e) := by
  have hsplit : cs ++ Scientific.exponentChars e =
      cs ++ 'e' :: (if e < 0 then '-' else '+') :: digits e.natAbs := rfl
  rw [read?, hsplit, before_append he, after_append he, readInteger?_exponent,
    if_pos (by simp)]
  cases readFixed? cs <;> rfl

/-- Nothing is read from a text that begins with another character than a digit, a point or the
letter of the exponent. -/
theorem read?_of_head {c : Char} (hc : digit? c = none) (hpoint : c ≠ '.') (he : c ≠ 'e') :
    read? (c :: cs) = none := by
  have hbody : before 'e' (c :: cs) = c :: before 'e' cs := by
    rw [before, List.takeWhile_cons_of_pos (by simpa using he)]
    rfl
  have hwhole : before '.' (c :: before 'e' cs) = c :: before '.' (before 'e' cs) := by
    rw [before, List.takeWhile_cons_of_pos (by simpa using hpoint)]
    rfl
  rw [read?, hbody, readFixed?, hwhole, List.cons_append, value?, extend?, hc]
  rfl

end Decimal

namespace Scientific

variable {s : Scientific}

/-- Only zeros are left out of the digits of a decimal. -/
theorem digits_eq_append (s : Scientific) :
    ∃ t, Decimal.digits s.coefficient = s.significantDigits ++ List.replicate t '0' := by
  unfold significantDigits
  generalize Decimal.digits s.coefficient = ds
  have hzeros : ∀ c ∈ ds.reverse.takeWhile (· = '0'), c = '0' := fun c hc =>
    of_decide_eq_true (List.all_eq_true.mp List.all_takeWhile c hc)
  refine ⟨(ds.reverse.takeWhile (· = '0')).length, ?_⟩
  calc ds
      = (ds.reverse.takeWhile (· = '0') ++ ds.reverse.dropWhile (· = '0')).reverse := by
        rw [List.takeWhile_append_dropWhile, List.reverse_reverse]
    _ = (ds.reverse.dropWhile (· = '0')).reverse ++ List.replicate _ '0' := by
        rw [List.reverse_append, List.eq_replicate_of_mem hzeros, List.reverse_replicate,
          List.length_replicate]

theorem not_mem_significantDigits (s : Scientific) {c : Char} (hc : Decimal.digit? c = none) :
    c ∉ s.significantDigits := by
  obtain ⟨t, ht⟩ := s.digits_eq_append
  intro hm
  apply Decimal.not_mem_digits hc s.coefficient
  rw [ht]
  exact List.mem_append_left _ hm

/-- The digits without the zeros at their end have the value of the decimal, once the point is put
in its place. -/
theorem value_of_significantDigits (s : Scientific) :
    ∃ m, Decimal.extend? s.significantDigits 0 = some m ∧
      s.value = m * 10 ^ (s.pointPosition - s.significantDigits.length) := by
  obtain ⟨t, ht⟩ := s.digits_eq_append
  have hread := Decimal.extend?_digits s.coefficient
  have hplaces : s.pointPosition - s.significantDigits.length = t + s.exponent := by
    rw [pointPosition, ht, List.length_append, List.length_replicate]
    omega
  rw [ht, Decimal.extend?_append] at hread
  cases hm : Decimal.extend? s.significantDigits 0 with
  | none =>
    rw [hm] at hread
    cases hread
  | some m =>
    rw [hm, Option.bind_some, Decimal.extend?_zeros, Option.some.injEq] at hread
    refine ⟨m, rfl, ?_⟩
    rw [value, ← hread, hplaces, zpow_add₀ (by norm_num), zpow_natCast]
    push_cast
    ring

theorem significantDigits_ne_nil (hpos : 0 < s.coefficient) : s.significantDigits ≠ [] := by
  intro hnil
  obtain ⟨t, ht⟩ := s.digits_eq_append
  have hread := Decimal.extend?_digits s.coefficient
  rw [ht, hnil, List.nil_append, Decimal.extend?_zeros, Option.some.injEq] at hread
  omega

/-! ## The four layouts -/

section Layouts

variable {ds : List Char} {m : Nat} {point : Int}
variable (hm : Decimal.extend? ds 0 = some m) (hpoint : '.' ∉ ds) (he : 'e' ∉ ds)
include hm hpoint he

/-- Zeros after the digits. -/
theorem read?_whole (hne : ds ≠ []) (hlength : ds.length ≤ point.toNat) (hpos : 0 < point) :
    Decimal.read? (ds ++ List.replicate (point.toNat - ds.length) '0') =
      some ((m : ℚ) * 10 ^ (point - ds.length)) := by
  have hdigits : Decimal.value? (ds ++ List.replicate (point.toNat - ds.length) '0') =
      some (m * 10 ^ (point.toNat - ds.length)) := by
    rw [Decimal.value?_of_ne_nil (by simp [hne]), Decimal.extend?_append, hm, Option.bind_some,
      Decimal.extend?_zeros]
  have hplaces : point - ds.length = ((point.toNat - ds.length : Nat) : Int) := by omega
  rw [Decimal.read?_of_not_mem (by simp [he]), Decimal.readFixed?_digits (by simp [hpoint]) hdigits,
    hplaces, zpow_natCast]
  push_cast
  rfl

/-- A point among the digits. -/
theorem read?_among (hlength : ¬ ds.length ≤ point.toNat) (hpos : 0 < point) :
    Decimal.read? (ds.take point.toNat ++ '.' :: ds.drop point.toNat) =
      some ((m : ℚ) * 10 ^ (point - ds.length)) := by
  have hne : ds ≠ [] := by
    rintro rfl
    exact hlength (Nat.zero_le _)
  have htake : '.' ∉ ds.take point.toNat := fun h => hpoint (List.mem_of_mem_take h)
  have hdigits : Decimal.value? (ds.take point.toNat ++ ds.drop point.toNat) = some m := by
    rw [List.take_append_drop, Decimal.value?_of_ne_nil hne, hm]
  have hnoe : 'e' ∉ ds.take point.toNat ++ '.' :: ds.drop point.toNat := by
    rw [List.mem_append, List.mem_cons]
    rintro (h | h | h)
    · exact he (List.mem_of_mem_take h)
    · cases h
    · exact he (List.mem_of_mem_drop h)
  have hplaces : (-(ds.length - point.toNat : Nat) : Int) = point - ds.length := by omega
  rw [Decimal.read?_of_not_mem hnoe, Decimal.readFixed?_point htake hdigits, List.length_drop,
    hplaces]

omit hpoint in
/-- A point and zeros before the digits. -/
theorem read?_below (hsmall : point ≤ 0) :
    Decimal.read? ('0' :: '.' :: List.replicate (-point).toNat '0' ++ ds) =
      some ((m : ℚ) * 10 ^ (point - ds.length)) := by
  have hdigits : Decimal.value? (['0'] ++ (List.replicate (-point).toNat '0' ++ ds)) = some m := by
    rw [Decimal.value?_of_ne_nil (by simp), ← List.append_assoc, List.singleton_append,
      ← List.replicate_succ, Decimal.extend?_append, Decimal.extend?_zeros, Option.bind_some,
      Nat.zero_mul, hm]
  have hnoe : 'e' ∉ ['0'] ++ '.' :: (List.replicate (-point).toNat '0' ++ ds) := by simp [he]
  have hplaces : (-((-point).toNat + ds.length : Nat) : Int) = point - ds.length := by omega
  show Decimal.read? (['0'] ++ '.' :: (List.replicate (-point).toNat '0' ++ ds)) = _
  rw [Decimal.read?_of_not_mem hnoe, Decimal.readFixed?_point (by simp) hdigits,
    List.length_append, List.length_replicate, hplaces]

variable (point) in
omit hpoint he in
/-- A point after the first digit, if there are others, and an exponent. -/
theorem read?_scaled {d : Char} {more : List Char} (hds : ds = d :: more) (hpoint : '.' ∉ d :: more)
    (he : 'e' ∉ d :: more) :
    Decimal.read? ((if more = [] then [d] else [d] ++ '.' :: more) ++ exponentChars (point - 1)) =
      some ((m : ℚ) * 10 ^ (point - ds.length)) := by
  subst hds
  have hdigits : Decimal.value? ([d] ++ more) = some m := hm
  rw [List.length_cons]
  by_cases hmore : more = []
  · subst hmore
    rw [if_pos rfl, Decimal.read?_exponent he, Decimal.readFixed?_digits hpoint hdigits]
    rfl
  · have hd : '.' ∉ [d] := fun h => hpoint (List.mem_append_left more h)
    have hnoe : 'e' ∉ [d] ++ '.' :: more := by simpa using he
    have hplaces : (-more.length : Int) + (point - 1) = point - (more.length + 1 : Nat) := by omega
    rw [if_neg hmore, Decimal.read?_exponent hnoe, Decimal.readFixed?_point hd hdigits,
      Option.map_some, mul_assoc, ← zpow_add₀ (by norm_num), hplaces]

end Layouts

/-- The characters of a positive decimal are read as its value. -/
theorem read?_chars (hpos : 0 < s.coefficient) : Decimal.read? s.chars = some s.value := by
  obtain ⟨m, hm, hvalue⟩ := s.value_of_significantDigits
  have hne := significantDigits_ne_nil hpos
  have hpoint := s.not_mem_significantDigits (c := '.') (by decide)
  have he := s.not_mem_significantDigits (c := 'e') (by decide)
  rw [hvalue]
  unfold chars
  dsimp only
  split
  · next hplain =>
    split
    · next hlength => exact read?_whole hm hpoint he hne hlength hplain.1
    · next hlength => exact read?_among hm hpoint he hlength hplain.1
  · split
    · next hsmall => exact read?_below hm he hsmall.2
    · cases hds : s.significantDigits with
      | nil => exact absurd hds hne
      | cons d more =>
        rw [hds] at hm hpoint he
        have hread := read?_scaled s.pointPosition hm rfl hpoint he
        cases more with
        | nil => exact hread
        | cons d' more => exact hread

end Scientific
end PropertyDelete
