import PropertyDelete.Proofs.Key.Canonical

/-!
The two recognisers of array indices. The one of keys accepts exactly the decimal texts of the
indices (`ofText?_eq_some_iff`). It reads no more than ten units, so its accumulator fits a word of
64 bits: the same reader in such words, which fails where a result does not fit, gives the same
answers and never fails (`ofTextInWord_eq`). The one of slots accepts the same texts and one more,
the text of 2^32 - 1 (`slot?_iff_ofText?`). The text under which a key is stored is recognised
exactly if the key is an index (`ofText?_storageText`).
-/
namespace PropertyDelete

namespace ArrayIndex

/-- A text is read as an array index exactly if it is the decimal text of that index. -/
theorem ofText?_eq_some_iff {t : Utf16} {i : Nat} :
    ofText? t = some i ↔ t = Utf16.ofString (Decimal.text i) ∧ i ≤ maximum := by
  constructor
  · intro h
    exact ⟨eq_text_of_ofText? h, (of_ofText? h).2.2⟩
  · intro h
    rw [h.1]
    exact ofText?_text h.2

/-! ## The accumulator in a word of 64 bits -/

/-- The failure of a result that does not fit a word of 64 bits. -/
inductive Overflow where
  | overflow
  deriving DecidableEq, Repr

/-- A number in a word of 64 bits. -/
def word (n : Nat) : Except Overflow UInt64 :=
  if h : n < 2 ^ 64 then .ok (UInt64.ofNatLT n h) else .error .overflow

/-- `extend?` with the accumulator in a word of 64 bits. -/
def extendInWord : List UInt16 → UInt64 → Except Overflow (Option UInt64)
  | [], acc => .ok (some acc)
  | u :: rest, acc =>
    match unitDigit? u with
    | none => .ok none
    | some d => do
      let tenfold ← word (acc.toNat * 10)
      let next ← word (tenfold.toNat + d)
      extendInWord rest next

/-- `ofText?` with the accumulator in a word of 64 bits. -/
def ofTextInWord (t : Utf16) : Except Overflow (Option Nat) :=
  if t.isEmpty || 10 < t.length then .ok none
  else if 1 < t.length && t.units.head? == some 0x30 then .ok none
  else (extendInWord t.units 0).map fun n => (n.map UInt64.toNat).filter (· ≤ maximum)

theorem word_of_lt {n : Nat} (h : n < 2 ^ 64) : ∃ w, word n = .ok w ∧ w.toNat = n :=
  ⟨_, dif_pos h, UInt64.toNat_ofNatLT⟩

/-- Reading in a word is reading, as long as there is room for as many digits as are left. -/
theorem extendInWord_eq {us : List UInt16} {acc : UInt64}
    (h : (acc.toNat + 1) * 10 ^ us.length ≤ 2 ^ 64) :
    ∃ r, extendInWord us acc = .ok r ∧ r.map UInt64.toNat = extend? us acc.toNat := by
  induction us generalizing acc with
  | nil => exact ⟨some acc, rfl, rfl⟩
  | cons u rest ih =>
    rw [extendInWord, extend?]
    cases hd : unitDigit? u with
    | none => exact ⟨none, rfl, rfl⟩
    | some d =>
      have hlt : d < 10 := (unitDigit?_eq_some hd).1
      -- one digit more and one place less to fill: the bound is what is kept from digit to digit
      have hroom : (acc.toNat * 10 + d + 1) * 10 ^ rest.length ≤ 2 ^ 64 :=
        calc (acc.toNat * 10 + d + 1) * 10 ^ rest.length
            ≤ (acc.toNat + 1) * 10 * 10 ^ rest.length := Nat.mul_le_mul_right _ (by omega)
          _ = (acc.toNat + 1) * 10 ^ (rest.length + 1) := by rw [Nat.mul_assoc, Nat.pow_succ']
          _ ≤ 2 ^ 64 := h
      have hfits : acc.toNat * 10 + d + 1 ≤ 2 ^ 64 :=
        Nat.le_trans (Nat.le_mul_of_pos_right _ (Nat.pow_pos (by decide))) hroom
      obtain ⟨tenfold, htenfold, hten⟩ := word_of_lt (n := acc.toNat * 10) (by omega)
      obtain ⟨next, hnext, hvalue⟩ := word_of_lt (n := tenfold.toNat + d) (by omega)
      rw [hten] at hvalue
      rw [← hvalue] at hroom
      obtain ⟨r, hr, hread⟩ := ih hroom
      refine ⟨r, ?_, ?_⟩
      · rw [htenfold]
        show (word (tenfold.toNat + d) >>= extendInWord rest) = .ok r
        rw [hnext]
        exact hr
      · rw [hread, hvalue]
        rfl

/-- The accumulator never overflows: no more than ten units are read. -/
theorem ofTextInWord_eq (t : Utf16) : ofTextInWord t = .ok (ofText? t) := by
  unfold ofTextInWord ofText?
  split
  · rfl
  · rename_i hshort
    rw [Bool.or_eq_true, not_or, decide_eq_true_eq, Nat.not_lt] at hshort
    split
    · rfl
    · have hroom : ((0 : UInt64).toNat + 1) * 10 ^ t.units.length ≤ 2 ^ 64 :=
        calc ((0 : UInt64).toNat + 1) * 10 ^ t.units.length
            = 10 ^ t.units.length := Nat.one_mul _
          _ ≤ 10 ^ 10 := Nat.pow_le_pow_right (by decide) hshort.2
          _ ≤ 2 ^ 64 := by decide
      obtain ⟨r, hr, hread⟩ := extendInWord_eq hroom
      rw [hr]
      exact congrArg (fun n => Except.ok (n.filter (· ≤ maximum))) hread

/-- Without a bound on the number of digits it would. -/
example : extendInWord (List.replicate 20 0x39) 0 = .error .overflow := rfl

/-! ## Slots -/

theorem slot?_iff_ofText? {q : String} {i : Nat} :
    slot? q = some i ↔
      ofText? (Utf16.ofString q) = some i ∨ q = "4294967295" ∧ i = 4294967295 := by
  have htext : Decimal.text 4294967295 = "4294967295" := by decide
  have hmaximum : maximum = 4294967294 := rfl
  rw [slot?_eq_some_iff, ofText?_eq_some_iff, Utf16.ofString_inj]
  constructor
  · intro h
    by_cases hi : i ≤ maximum
    · exact Or.inl ⟨h.1, hi⟩
    · -- the one number of 32 bits above the largest index
      have hlast : i = 4294967295 := by omega
      rw [h.1, hlast]
      exact Or.inr ⟨htext, rfl⟩
  · intro h
    rcases h with ⟨hq, hi⟩ | ⟨hq, hi⟩
    · exact ⟨hq, by omega⟩
    · rw [hq, hi]
      exact ⟨htext.symm, by decide⟩

end ArrayIndex

/-- The text under which a normal key is stored reads as an index only if the key is one. -/
theorem Key.ofText?_storageText {k : Key} (hk : k.Normal) :
    ArrayIndex.ofText? (Utf16.ofString k.storageText) = k.index? := by
  cases h : ArrayIndex.ofText? (Utf16.ofString k.storageText) with
  | some i =>
    obtain ⟨htext, hi⟩ := ArrayIndex.ofText?_eq_some_iff.mp h
    rw [(storageText_eq_text hk hi).mp (Utf16.ofString_inj.mp htext)]
    rfl
  | none =>
    cases k with
    | text t => rfl
    | symbol s => rfl
    | index i =>
      rw [show (Key.index i).storageText = Decimal.text i from rfl, ArrayIndex.ofText?_text hk] at h
      cases h

end PropertyDelete
