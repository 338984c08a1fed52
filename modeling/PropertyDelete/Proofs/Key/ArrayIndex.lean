import PropertyDelete.Key.ArrayIndex
import PropertyDelete.Proofs.Text.Decimal
import PropertyDelete.Proofs.Text.Utf16

/-!
Array indices as texts. Digits are read alike as characters and as code units
(`extend?_flatMap`). The recogniser of keys reads every array index from its decimal text
(`ofText?_text`), and the recogniser of slots every number of 32 bits, and only from that text
(`slot?_eq_some_iff`).
-/
namespace PropertyDelete.ArrayIndex

/-- A code unit is the digit that its character is. -/
theorem unitDigit?_unit {c : Char} (h : c.toNat < 0x10000) :
    unitDigit? (UInt16.ofNat c.toNat) = Decimal.digit? c := by
  have hiff : (0x30 ≤ UInt16.ofNat c.toNat ∧ UInt16.ofNat c.toNat ≤ 0x39) ↔
      ('0' ≤ c ∧ c ≤ '9') := by
    rw [UInt16.le_iff_toNat_le, UInt16.le_iff_toNat_le, Utf16.toNat_unit h]
    exact Iff.rfl
  unfold unitDigit? Decimal.digit?
  by_cases hc : '0' ≤ c ∧ c ≤ '9'
  · rw [if_pos (hiff.mpr hc), if_pos hc, Utf16.toNat_unit h]
    rfl
  · rw [if_neg (mt hiff.mp hc), if_neg hc]

theorem unitDigit?_leading {u : UInt16} (h : Utf16.isLeading u = true) : unitDigit? u = none := by
  rw [Utf16.isLeading_iff] at h
  unfold unitDigit?
  rw [if_neg]
  rw [UInt16.le_iff_toNat_le, UInt16.le_iff_toNat_le]
  have hnine : (0x39 : UInt16).toNat = 57 := rfl
  omega

theorem extend?_cons_encodeChar (c : Char) (rest : List UInt16) (acc : Nat) :
    extend? (Utf16.encodeChar c ++ rest) acc =
      (Decimal.digit? c).bind fun d => extend? rest (acc * 10 + d) := by
  by_cases h : c.toNat < 0x10000
  · rw [Utf16.encodeChar_of_lt h, List.singleton_append, extend?, unitDigit?_unit h]
  · -- the first half of a pair is no digit, nor is the character
    obtain ⟨u, v, he, hu, -, -⟩ := Utf16.encodeChar_of_ge (Nat.le_of_not_lt h)
    have hd : Decimal.digit? c = none := by
      cases hd : Decimal.digit? c with
      | none => rfl
      | some d =>
        have hle := (Decimal.digit?_eq_some hd).2.1
        omega
    rw [he, hd, List.cons_append, extend?, unitDigit?_leading hu]
    rfl

/-- Reading the units of characters is reading the characters. -/
theorem extend?_flatMap (cs : List Char) (acc : Nat) :
    extend? (cs.flatMap Utf16.encodeChar) acc = Decimal.extend? cs acc := by
  induction cs generalizing acc with
  | nil => rfl
  | cons c rest ih =>
    rw [List.flatMap_cons, extend?_cons_encodeChar, Decimal.extend?]
    cases Decimal.digit? c with
    | none => rfl
    | some d => exact ih _

/-! ## Keys -/

/-- What is read as an array index is not empty, and all of it is digits. -/
theorem of_ofText? {t : Utf16} {i : Nat} (h : ofText? t = some i) :
    t.isEmpty = false ∧ extend? t.units 0 = some i ∧ i ≤ maximum := by
  unfold ofText? at h
  split at h
  · cases h
  · rename_i hempty
    rw [Bool.or_eq_true, not_or, Bool.not_eq_true] at hempty
    split at h
    · cases h
    · rw [Option.filter_eq_some_iff, decide_eq_true_eq] at h
      exact ⟨hempty.1, h⟩

theorem of_ofText?_ofString {s : String} {i : Nat}
    (h : ofText? (Utf16.ofString s) = some i) :
    s.toList ≠ [] ∧ Decimal.extend? s.toList 0 = some i ∧ i ≤ maximum := by
  obtain ⟨hempty, hread, hi⟩ := of_ofText? h
  rw [Utf16.ofString, extend?_flatMap] at hread
  refine ⟨?_, hread, hi⟩
  intro hnil
  rw [Utf16.ofString, hnil] at hempty
  cases hempty

theorem lt_of_mem_digits {n : Nat} {c : Char} (h : c ∈ Decimal.digits n) : c.toNat < 0x10000 := by
  obtain ⟨d, hd⟩ := Option.isSome_iff_exists.mp (Decimal.digit?_isSome_of_mem_digits h)
  have hle := (Decimal.digit?_eq_some hd).2.1
  omega

theorem units_text (n : Nat) :
    (Utf16.ofString (Decimal.text n)).units =
      (Decimal.digits n).map fun c => UInt16.ofNat c.toNat := by
  rw [Utf16.ofString, Decimal.text, String.toList_ofList]
  exact Utf16.flatMap_encodeChar_of_lt fun c hc => lt_of_mem_digits hc

/-- The text of a number has more than one unit only if the first one is not a zero. -/
theorem head?_units_text {n : Nat} (h : 1 < (Utf16.ofString (Decimal.text n)).length) :
    (Utf16.ofString (Decimal.text n)).units.head? ≠ some 0x30 := by
  rw [Utf16.length, units_text, List.length_map] at h
  have hpos : 0 < n := by
    rcases Nat.eq_zero_or_pos n with rfl | hn
    · exact absurd h (by decide)
    · exact hn
  have hne := Decimal.head?_digits_ne hpos
  rw [units_text, List.head?_map]
  cases hd : Decimal.digits n with
  | nil => exact absurd hd (Decimal.digits_ne_nil n)
  | cons c rest =>
    intro e
    have hu : UInt16.ofNat c.toNat = 0x30 := Option.some.inj e
    have hc : c.toNat = 48 := by
      rw [← Utf16.toNat_unit (lt_of_mem_digits (by rw [hd]; exact List.mem_cons_self)), hu]
      rfl
    rw [hd] at hne
    exact hne (congrArg some (Char.toNat_inj.mp hc))

/-- Every array index is read from its decimal text. -/
theorem ofText?_text {i : Nat} (h : i ≤ maximum) :
    ofText? (Utf16.ofString (Decimal.text i)) = some i := by
  have hlength : (Utf16.ofString (Decimal.text i)).length ≤ 10 := by
    rw [Utf16.length, units_text, List.length_map]
    exact Decimal.length_digits_le (by decide) (Nat.lt_of_le_of_lt h (by decide))
  have hempty : (Utf16.ofString (Decimal.text i)).isEmpty = false := by
    rw [Utf16.isEmpty, units_text, List.isEmpty_map]
    exact List.isEmpty_eq_false_iff.mpr (Decimal.digits_ne_nil i)
  have hread : extend? (Utf16.ofString (Decimal.text i)).units 0 = some i := by
    rw [Utf16.ofString, extend?_flatMap, Decimal.text, String.toList_ofList,
      Decimal.extend?_digits]
  unfold ofText?
  rw [hempty, Bool.false_or, if_neg (by simpa using hlength), if_neg, hread]
  · simp [h]
  · intro hzero
    rw [Bool.and_eq_true, decide_eq_true_eq, beq_iff_eq] at hzero
    exact head?_units_text hzero.1 hzero.2

/-! ## Slots -/

/-- A slot is named by the decimal text of its number, and by no other text. -/
theorem slot?_eq_some_iff {q : String} {i : Nat} :
    slot? q = some i ↔ q = Decimal.text i ∧ i < 2 ^ 32 := by
  unfold slot?
  rw [Option.filter_eq_some_iff, beq_iff_eq]
  constructor
  · rintro ⟨hread, htext⟩
    unfold Decimal.readUnsigned? at hread
    exact ⟨htext.symm, of_decide_eq_true (Option.filter_eq_some_iff.mp hread).2⟩
  · rintro ⟨rfl, hi⟩
    refine ⟨?_, rfl⟩
    rw [Decimal.text, String.toList_ofList]
    exact Decimal.readUnsigned?_digits hi

end PropertyDelete.ArrayIndex
