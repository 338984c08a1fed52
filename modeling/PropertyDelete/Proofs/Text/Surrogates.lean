import PropertyDelete.Key.Basic
import PropertyDelete.Proofs.Text.Utf16
import Mathlib.Tactic.TFAE

/-!
Where reading a text loses something. A surrogate is unpaired at a position of a text if the unit
beside it is not its other half, which is told from the two neighbours alone (`isUnpaired`). Written
again, the characters of a text give its units back with U+FFFD at just those positions
(`flatMap_decodeUnits_eq`), so a text comes back if and only if it has no unpaired surrogate, and that
is what well-formed means (`wellFormed_iff`). A name is compared with a text unit by unit, and
with the storage text of a key character by character; the two agree on all texts unless U+FFFD is
in the name (`equalsString_agrees_iff`).
-/
namespace PropertyDelete

namespace Utf16

/-- Whether the unit at a position is a surrogate without its other half: a first half that no
second half follows, or a second half that no first half precedes. -/
def isUnpaired (us : List UInt16) (i : Nat) : Bool :=
  us[i]?.any fun u =>
    isLeading u && !us[i + 1]?.any isTrailing ||
      isTrailing u && !(decide (0 < i) && us[i - 1]?.any isLeading)

/-- The units with U+FFFD in the place of each unpaired surrogate. -/
def replaceUnpaired (us : List UInt16) : List UInt16 :=
  us.mapIdx fun i u => if isUnpaired us i then 0xFFFD else u

variable {u v : UInt16} {us rest : List UInt16}

theorem isTrailing_of_isLeading (h : isLeading u = true) : isTrailing u = false := by
  rw [Bool.eq_false_iff, Ne, isTrailing_iff]
  rw [isLeading_iff] at h
  omega

theorem isLeading_of_isTrailing (h : isTrailing u = true) : isLeading u = false := by
  cases hl : isLeading u with
  | false => rfl
  | true =>
    rw [isTrailing_of_isLeading hl] at h
    cases h

theorem isSurrogate_of_isUnpaired {i : Nat} (hu : us[i]? = some u) (h : isUnpaired us i = true) :
    isSurrogate u = true := by
  rw [isUnpaired, hu, Option.any_some, Bool.or_eq_true, Bool.and_eq_true, Bool.and_eq_true] at h
  rw [isSurrogate, Bool.or_eq_true]
  exact h.imp And.left And.left

/-! ## Units in front -/

theorem isUnpaired_zero (u : UInt16) (us : List UInt16) :
    isUnpaired (u :: us) 0 = (isLeading u && !us[0]?.any isTrailing || isTrailing u) := by
  simp [isUnpaired]

/-- A unit in front is no neighbour of the second unit after it. -/
theorem isUnpaired_succ_succ (u : UInt16) (us : List UInt16) (i : Nat) :
    isUnpaired (u :: us) (i + 2) = isUnpaired us (i + 1) := by
  simp [isUnpaired]

/-- A unit in front that makes no pair with the next one changes nothing. -/
theorem isUnpaired_succ (h : isLeading u = true → us[0]?.any isTrailing = false) (i : Nat) :
    isUnpaired (u :: us) (i + 1) = isUnpaired us i := by
  cases i with
  | succ i => exact isUnpaired_succ_succ u us i
  | zero =>
    cases us with
    | nil => rfl
    | cons v rest =>
      cases hu : isLeading u with
      | false => simp [isUnpaired, hu]
      | true =>
        have hv : isTrailing v = false := h hu
        simp [isUnpaired, hv]

/-- A surrogate pair in front changes nothing. -/
theorem isUnpaired_pair (hv : isTrailing v = true) (i : Nat) :
    isUnpaired (u :: v :: rest) (i + 2) = isUnpaired rest i := by
  have hl := isLeading_of_isTrailing hv
  rw [isUnpaired_succ_succ, isUnpaired_succ (by simp [hl])]

theorem replaceUnpaired_single (h : isLeading u = true → us[0]?.any isTrailing = false) :
    replaceUnpaired (u :: us) = (if isSurrogate u then 0xFFFD else u) :: replaceUnpaired us := by
  have hzero : isUnpaired (u :: us) 0 = isSurrogate u := by
    rw [isUnpaired_zero, isSurrogate]
    cases hu : isLeading u with
    | false => rfl
    | true => rw [h hu]; rfl
  simp only [replaceUnpaired, List.mapIdx_cons, hzero, isUnpaired_succ h]

theorem replaceUnpaired_pair (hu : isLeading u = true) (hv : isTrailing v = true) :
    replaceUnpaired (u :: v :: rest) = u :: v :: replaceUnpaired rest := by
  have hzero : isUnpaired (u :: v :: rest) 0 = false := by
    simp [isUnpaired, hv, isTrailing_of_isLeading hu]
  have hone : isUnpaired (u :: v :: rest) 1 = false := by
    simp [isUnpaired, hu, isLeading_of_isTrailing hv]
  simp only [replaceUnpaired, List.mapIdx_cons, Nat.zero_add, Nat.add_assoc, Nat.reduceAdd, hzero, hone,
    isUnpaired_pair hv, Bool.false_eq_true, if_false]

/-! ## Reading and writing again -/

theorem encodeChar_decodeUnit_eq (u : UInt16) :
    encodeChar (decodeUnit u) = [if isSurrogate u then 0xFFFD else u] := by
  cases h : isSurrogate u with
  | false => exact encodeChar_decodeUnit h
  | true =>
    rw [decodeUnit, if_pos h]
    rfl

/-- The characters of a text, written again, are its units with the unpaired surrogates replaced. -/
theorem flatMap_decodeUnits_eq (us : List UInt16) :
    (decodeUnits us).flatMap encodeChar = replaceUnpaired us := by
  fun_induction decodeUnits us with
  | case1 => rfl
  | case2 u =>
    rw [List.flatMap_singleton, encodeChar_decodeUnit_eq, replaceUnpaired_single fun _ => rfl]
    rfl
  | case3 u v rest hp ih =>
    rw [Bool.and_eq_true] at hp
    rw [List.flatMap_cons, encodeChar_decodePair hp.1 hp.2, ih, replaceUnpaired_pair hp.1 hp.2]
    rfl
  | case4 u v rest hp ih =>
    -- no pair is cut between the first unit and the others
    have hsingle : isLeading u = true → (v :: rest)[0]?.any isTrailing = false := by
      intro hu
      simpa [hu] using hp
    rw [List.flatMap_cons, encodeChar_decodeUnit_eq, ih, replaceUnpaired_single hsingle]
    rfl

/-- A reversed pair, a pair and a first half at the end. -/
example : (decodeUnits [0xDE00, 0xD83D, 0xD83D, 0xDE00, 0xD83D]).flatMap encodeChar =
    [0xFFFD, 0xFFFD, 0xD83D, 0xDE00, 0xFFFD] := by decide

theorem units_ofString_toString (t : Utf16) :
    (ofString t.toString).units = replaceUnpaired t.units := by
  rw [ofString, toString, String.toList_ofList, flatMap_decodeUnits_eq]

theorem length_replaceUnpaired (us : List UInt16) : (replaceUnpaired us).length = us.length := by
  rw [replaceUnpaired, List.length_mapIdx]

theorem getElem?_replaceUnpaired (us : List UInt16) (i : Nat) :
    (replaceUnpaired us)[i]? = us[i]?.map fun u => if isUnpaired us i then 0xFFFD else u := by
  rw [replaceUnpaired, List.getElem?_mapIdx]

/-- No surrogate is the replacement character, so units are as before only if none is replaced. -/
theorem replaceUnpaired_eq_self_iff (us : List UInt16) :
    replaceUnpaired us = us ↔ ∀ i, isUnpaired us i = false := by
  constructor
  · intro h i
    rw [Bool.eq_false_iff]
    intro hi
    cases hu : us[i]? with
    | none => simp [isUnpaired, hu] at hi
    | some u =>
      have hread : (replaceUnpaired us)[i]? = some 0xFFFD := by
        rw [getElem?_replaceUnpaired, hu, Option.map_some, if_pos hi]
      rw [h, hu, Option.some_inj] at hread
      have hs := isSurrogate_of_isUnpaired hu hi
      rw [hread] at hs
      exact absurd hs (by decide)
  · intro h
    refine List.ext_getElem? fun i => ?_
    simp [getElem?_replaceUnpaired, h]

/-! ## Well-formed texts -/

theorem wellFormedUnits_encodeChar (c : Char) (rest : List UInt16) :
    wellFormedUnits (encodeChar c ++ rest) = wellFormedUnits rest := by
  by_cases h : c.toNat < 0x10000
  · have hs := isSurrogate_unit h
    have hl := isLeading_of_not_isSurrogate hs
    rw [encodeChar_of_lt h, List.singleton_append]
    cases rest with
    | nil => exact congrArg not hs
    | cons v rest =>
      rw [wellFormedUnits, hl, hs]
      rfl
  · obtain ⟨u, v, he, hu, hv, -⟩ := encodeChar_of_ge (Nat.le_of_not_lt h)
    rw [he, List.cons_append, List.singleton_append, wellFormedUnits, hu, hv]
    rfl

/-- A character string is written without unpaired surrogates. -/
theorem wellFormed_ofString (s : String) : (ofString s).wellFormed = true := by
  show wellFormedUnits (s.toList.flatMap encodeChar) = true
  induction s.toList with
  | nil => rfl
  | cons c rest ih => rw [List.flatMap_cons, wellFormedUnits_encodeChar, ih]

theorem ofString_toString_iff {t : Utf16} : ofString t.toString = t ↔ t.wellFormed = true :=
  ⟨fun h => h ▸ wellFormed_ofString _, ofString_toString⟩

theorem wellFormed_iff {t : Utf16} : t.wellFormed = true ↔ ∀ i, isUnpaired t.units i = false := by
  rw [← ofString_toString_iff, ← replaceUnpaired_eq_self_iff, ← units_ofString_toString]
  exact ⟨congrArg units, congrArg mk⟩

theorem equalsString_iff {t : Utf16} {s : String} : t.equalsString s = true ↔ t = ofString s := by
  rw [equalsString, beq_iff_eq]

theorem eq_ofString_iff {t : Utf16} {s : String} :
    t = ofString s ↔ t.wellFormed = true ∧ t.toString = s := by
  constructor
  · intro h
    rw [h]
    exact ⟨wellFormed_ofString s, toString_ofString s⟩
  · intro h
    rw [← h.2]
    exact (ofString_toString h.1).symm

/-! ## Names with the replacement character -/

theorem decodeUnits_of_trailing (h : isTrailing u = true) (rest : List UInt16) :
    decodeUnits (u :: rest) = '\uFFFD' :: decodeUnits rest := by
  have hs : isSurrogate u = true := by rw [isSurrogate, h, Bool.or_true]
  rw [decodeUnits_of_not_isLeading (isLeading_of_isTrailing h), decodeUnit, if_pos hs]

/-- A name with the replacement character in it is also the reading of a text with a surrogate in
the place of that character. -/
theorem exists_toString_eq {s : String} (h : '\uFFFD' ∈ s.toList) :
    ∃ t : Utf16, t.toString = s ∧ t ≠ ofString s := by
  obtain ⟨before, after, hs⟩ := List.append_of_mem h
  -- what is before ends with no first half, so the second half that is put there is unpaired
  refine ⟨⟨before.flatMap encodeChar ++ 0xDC00 :: after.flatMap encodeChar⟩, ?_, ?_⟩
  · rw [toString, decodeUnits_flatMap_append, decodeUnits_of_trailing (by decide),
      decodeUnits_flatMap, ← hs, String.ofList_toList]
  · intro e
    have hunits := congrArg units e
    rw [ofString, hs, List.flatMap_append, List.append_cancel_left_eq, List.flatMap_cons,
      show encodeChar '\uFFFD' = [0xFFFD] by decide, List.singleton_append, List.cons.injEq] at hunits
    exact absurd hunits.1 (by decide)

/-- Comparing units with a name and comparing characters with it agree on every text exactly if the
name has no replacement character. -/
theorem equalsString_agrees_iff {s : String} :
    (∀ t : Utf16, t.equalsString s = true ↔ t.toString = s) ↔ '\uFFFD' ∉ s.toList := by
  constructor
  · intro hagree hmem
    obtain ⟨t, hread, hne⟩ := exists_toString_eq hmem
    exact hne (equalsString_iff.mp ((hagree t).mpr hread))
  · intro hmem t
    rw [equalsString_iff, toString_eq_iff hmem]

/-- Writing loses nothing. Reading loses the unpaired surrogates and nothing else: written again,
they are U+FFFD and all other units are as before. So a text comes back exactly if it is well formed,
and what has been read once is read the same again. A text equals a name unit by unit exactly if it
is what the name is written as, and that is if it is well formed and read as the name. Whether a text
key has a name and whether it is stored under the name is the same question for all text keys,
exactly for the names without U+FFFD. -/
theorem conversion_replaces_unpaired :
    (∀ s : String, (ofString s).toString = s) ∧
    (∀ t : Utf16,
      (ofString t.toString).units =
        t.units.mapIdx (fun i u => if isUnpaired t.units i then 0xFFFD else u) ∧
      (ofString t.toString).length = t.length ∧
      (ofString t.toString = t ↔ t.wellFormed = true) ∧
      (t.wellFormed = true ↔ ∀ i, isUnpaired t.units i = false) ∧
      (ofString t.toString).toString = t.toString) ∧
    (∀ (t : Utf16) (s : String), List.TFAE [
      t.equalsString s = true,
      t = ofString s,
      t.wellFormed = true ∧ t.toString = s]) ∧
    (∀ name : String,
      (∀ t : Utf16, (Key.text t).isNamed name = true ↔ (Key.text t).storageText = name) ↔
        '\uFFFD' ∉ name.toList) := by
  refine ⟨toString_ofString, fun t => ⟨units_ofString_toString t, ?_, ofString_toString_iff,
    wellFormed_iff, toString_ofString _⟩, fun t s => ?_, fun name => equalsString_agrees_iff⟩
  · rw [length, units_ofString_toString, length_replaceUnpaired]
    rfl
  · tfae_have 1 ↔ 2 := equalsString_iff
    tfae_have 2 ↔ 3 := eq_ofString_iff
    tfae_finish

end Utf16
end PropertyDelete
