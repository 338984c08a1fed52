import PropertyDelete.Text.Utf16

/-!
Between characters and code units. Reading the units of a character string gives the string
back (`toString_ofString`), so writing never loses anything. The other way round a text comes
back from its characters if it is well formed (`ofString_toString`), and it is well formed if
no replacement character is among them (`wellFormed_of_not_mem`). So a name without that
character is the text of one list of units only (`toString_eq_iff`).
-/
namespace PropertyDelete.Utf16

theorem isLeading_iff {u : UInt16} : isLeading u = true ↔ 0xD800 ≤ u.toNat ∧ u.toNat < 0xDC00 := by
  rw [isLeading, Bool.and_eq_true, decide_eq_true_eq, decide_eq_true_eq, UInt16.le_iff_toNat_le,
    UInt16.lt_iff_toNat_lt]
  exact Iff.rfl

theorem isTrailing_iff {u : UInt16} :
    isTrailing u = true ↔ 0xDC00 ≤ u.toNat ∧ u.toNat < 0xE000 := by
  rw [isTrailing, Bool.and_eq_true, decide_eq_true_eq, decide_eq_true_eq, UInt16.le_iff_toNat_le,
    UInt16.lt_iff_toNat_lt]
  exact Iff.rfl

theorem isSurrogate_iff {u : UInt16} :
    isSurrogate u = true ↔ 0xD800 ≤ u.toNat ∧ u.toNat < 0xE000 := by
  rw [isSurrogate, Bool.or_eq_true, isLeading_iff, isTrailing_iff]
  omega

theorem isLeading_of_not_isSurrogate {u : UInt16} (h : isSurrogate u = false) :
    isLeading u = false := by
  rw [isSurrogate, Bool.or_eq_false_iff] at h
  exact h.1

/-! ## One character -/

theorem encodeChar_of_lt {c : Char} (h : c.toNat < 0x10000) :
    encodeChar c = [UInt16.ofNat c.toNat] := by
  rw [encodeChar, if_pos h]

/-- The unit of a character below U+10000 is its number. -/
theorem toNat_unit {c : Char} (h : c.toNat < 0x10000) : (UInt16.ofNat c.toNat).toNat = c.toNat :=
  UInt16.toNat_ofNat_of_lt' h

/-- A character is not half of a surrogate pair. -/
theorem isSurrogate_unit {c : Char} (h : c.toNat < 0x10000) :
    isSurrogate (UInt16.ofNat c.toNat) = false := by
  rw [Bool.eq_false_iff, Ne, isSurrogate_iff, toNat_unit h]
  have hvalid : c.toNat < 0xD800 ∨ 0xDFFF < c.toNat ∧ c.toNat < 0x110000 := c.valid
  omega

/-- A character from U+10000 on is written as a surrogate pair. -/
theorem encodeChar_of_ge {c : Char} (h : 0x10000 ≤ c.toNat) :
    ∃ u v, encodeChar c = [u, v] ∧ isLeading u = true ∧ isTrailing v = true ∧
      0x10000 + (u.toNat - 0xD800) * 0x400 + (v.toNat - 0xDC00) = c.toNat := by
  have hvalid : c.toNat < 0xD800 ∨ 0xDFFF < c.toNat ∧ c.toNat < 0x110000 := c.valid
  have hu : (UInt16.ofNat (0xD800 + (c.toNat - 0x10000) / 0x400)).toNat =
      0xD800 + (c.toNat - 0x10000) / 0x400 := UInt16.toNat_ofNat_of_lt' (by show _ < 65536; omega)
  have hv : (UInt16.ofNat (0xDC00 + (c.toNat - 0x10000) % 0x400)).toNat =
      0xDC00 + (c.toNat - 0x10000) % 0x400 := UInt16.toNat_ofNat_of_lt' (by show _ < 65536; omega)
  refine ⟨_, _, by rw [encodeChar, if_neg (by omega)], ?_, ?_, ?_⟩
  · rw [isLeading_iff, hu]
    omega
  · rw [isTrailing_iff, hv]
    omega
  · rw [hu, hv]
    omega

/-- A number that is valid for a character is the number of its character. -/
theorem toNat_charOfNat {n : Nat} (h : n.isValidChar) : (Char.ofNat n).toNat = n := by
  rw [Char.ofNat, dif_pos h]
  rfl

/-- The character of a surrogate pair has the number that the pair stands for. -/
theorem toNat_decodePair {u v : UInt16} (hu : isLeading u = true) (hv : isTrailing v = true) :
    (decodePair u v).toNat = 0x10000 + (u.toNat - 0xD800) * 0x400 + (v.toNat - 0xDC00) := by
  rw [isLeading_iff] at hu
  rw [isTrailing_iff] at hv
  apply toNat_charOfNat
  right
  omega

theorem toNat_decodeUnit {u : UInt16} (h : isSurrogate u = false) :
    (decodeUnit u).toNat = u.toNat := by
  have hlt : u.toNat < 65536 := u.toNat_lt
  rw [decodeUnit, if_neg (by simp [h])]
  rw [Bool.eq_false_iff, Ne, isSurrogate_iff] at h
  apply toNat_charOfNat
  show u.toNat < 0xD800 ∨ 0xDFFF < u.toNat ∧ u.toNat < 0x110000
  omega

theorem encodeChar_decodeUnit {u : UInt16} (h : isSurrogate u = false) :
    encodeChar (decodeUnit u) = [u] := by
  have hn := toNat_decodeUnit h
  have hlt : u.toNat < 65536 := u.toNat_lt
  rw [encodeChar_of_lt (by omega), hn, UInt16.ofNat_toNat]

theorem encodeChar_decodePair {u v : UInt16} (hu : isLeading u = true) (hv : isTrailing v = true) :
    encodeChar (decodePair u v) = [u, v] := by
  have hn := toNat_decodePair hu hv
  obtain ⟨u', v', he, hu', hv', hn'⟩ := encodeChar_of_ge (c := decodePair u v) (by omega)
  rw [isLeading_iff] at hu hu'
  rw [isTrailing_iff] at hv hv'
  have eu : u' = u := UInt16.toNat_inj.mp (by omega)
  have ev : v' = v := UInt16.toNat_inj.mp (by omega)
  rw [he, eu, ev]

/-! ## Many characters -/

/-- Characters below U+10000 take one unit each. -/
theorem flatMap_encodeChar_of_lt {cs : List Char} (h : ∀ c ∈ cs, c.toNat < 0x10000) :
    cs.flatMap encodeChar = cs.map fun c => UInt16.ofNat c.toNat := by
  induction cs with
  | nil => rfl
  | cons c rest ih =>
    rw [List.flatMap_cons, encodeChar_of_lt (h c List.mem_cons_self),
      ih fun x hx => h x (List.mem_cons_of_mem c hx)]
    rfl

/-- A unit that starts no pair is read by itself. -/
theorem decodeUnits_of_not_isLeading {u : UInt16} (h : isLeading u = false) (rest : List UInt16) :
    decodeUnits (u :: rest) = decodeUnit u :: decodeUnits rest := by
  cases rest with
  | nil => rfl
  | cons v rest => rw [decodeUnits, h, Bool.false_and, if_neg (by decide)]

theorem decodeUnits_of_single {u : UInt16} (h : isSurrogate u = false) (rest : List UInt16) :
    decodeUnits (u :: rest) = decodeUnit u :: decodeUnits rest :=
  decodeUnits_of_not_isLeading (isLeading_of_not_isSurrogate h) rest

theorem decodeUnits_of_pair {u v : UInt16} (hu : isLeading u = true) (hv : isTrailing v = true)
    (rest : List UInt16) : decodeUnits (u :: v :: rest) = decodePair u v :: decodeUnits rest := by
  rw [decodeUnits, hu, hv, Bool.true_and, if_pos rfl]

theorem decodeUnits_encodeChar (c : Char) (rest : List UInt16) :
    decodeUnits (encodeChar c ++ rest) = c :: decodeUnits rest := by
  by_cases h : c.toNat < 0x10000
  · -- the unit is no surrogate, so it is not read together with the next one
    have hs := isSurrogate_unit h
    have hc : decodeUnit (UInt16.ofNat c.toNat) = c := by
      rw [← Char.toNat_inj, toNat_decodeUnit hs, toNat_unit h]
    rw [encodeChar_of_lt h, List.singleton_append, decodeUnits_of_single hs, hc]
  · obtain ⟨u, v, he, hu, hv, hn⟩ := encodeChar_of_ge (Nat.le_of_not_lt h)
    have hc : decodePair u v = c := by
      rw [← Char.toNat_inj, toNat_decodePair hu hv, hn]
    rw [he, List.cons_append, List.singleton_append, decodeUnits_of_pair hu hv, hc]

/-- Reading what was written gives it back, before whatever follows. -/
theorem decodeUnits_flatMap_append (cs : List Char) (rest : List UInt16) :
    decodeUnits (cs.flatMap encodeChar ++ rest) = cs ++ decodeUnits rest := by
  induction cs with
  | nil => rfl
  | cons c cs ih =>
    rw [List.flatMap_cons, List.append_assoc, decodeUnits_encodeChar, ih]
    rfl

theorem decodeUnits_flatMap (cs : List Char) : decodeUnits (cs.flatMap encodeChar) = cs := by
  have h := decodeUnits_flatMap_append cs []
  rwa [List.append_nil, decodeUnits, List.append_nil] at h

theorem toString_ofString (s : String) : (ofString s).toString = s := by
  rw [ofString, toString, decodeUnits_flatMap, String.ofList_toList]

theorem ofString_inj {s s' : String} : ofString s = ofString s' ↔ s = s' := by
  constructor
  · intro h
    rw [← toString_ofString s, h, toString_ofString]
  · exact congrArg ofString

/-- Well-formed units come back from their characters. -/
theorem flatMap_decodeUnits {us : List UInt16} (h : wellFormedUnits us = true) :
    (decodeUnits us).flatMap encodeChar = us := by
  fun_induction wellFormedUnits us with
  | case1 => rfl
  | case2 u =>
    rw [Bool.not_eq_true'] at h
    rw [decodeUnits, List.flatMap_singleton, encodeChar_decodeUnit h]
  | case3 u v rest hp ih =>
    rw [Bool.and_eq_true] at hp
    rw [decodeUnits_of_pair hp.1 hp.2, List.flatMap_cons, encodeChar_decodePair hp.1 hp.2, ih h]
    rfl
  | case4 u v rest hp ih =>
    rw [Bool.and_eq_true, Bool.not_eq_true'] at h
    rw [decodeUnits_of_single h.1, List.flatMap_cons, encodeChar_decodeUnit h.1, ih h.2]
    rfl

theorem ofString_toString {t : Utf16} (h : t.wellFormed = true) : ofString t.toString = t := by
  rw [ofString, toString, String.toList_ofList, flatMap_decodeUnits h]

/-- A surrogate that stands alone leaves a replacement character. -/
theorem wellFormedUnits_of_not_mem {us : List UInt16} (h : '\uFFFD' ∉ decodeUnits us) :
    wellFormedUnits us = true := by
  have hunit : ∀ u, decodeUnit u ≠ '\uFFFD' → isSurrogate u = false := by
    intro u hu
    cases hs : isSurrogate u with
    | false => rfl
    | true => exact absurd (by rw [decodeUnit, if_pos hs]) hu
  fun_induction decodeUnits us with
  | case1 => rfl
  | case2 u =>
    rw [List.mem_singleton] at h
    rw [wellFormedUnits, hunit u (Ne.symm h)]
    rfl
  | case3 u v rest hp ih =>
    rw [List.mem_cons, not_or] at h
    rw [wellFormedUnits, if_pos hp]
    exact ih h.2
  | case4 u v rest hp ih =>
    rw [List.mem_cons, not_or] at h
    rw [wellFormedUnits, if_neg hp, hunit u (Ne.symm h.1), ih h.2]
    rfl

theorem wellFormed_of_not_mem {t : Utf16} (h : '\uFFFD' ∉ t.toString.toList) :
    t.wellFormed = true := by
  rw [toString, String.toList_ofList] at h
  exact wellFormedUnits_of_not_mem h

/-- A name without a replacement character is the text of its own units only. -/
theorem toString_eq_iff {t : Utf16} {s : String} (h : '\uFFFD' ∉ s.toList) :
    t.toString = s ↔ t = ofString s := by
  constructor
  · intro e
    rw [← e] at h ⊢
    exact (ofString_toString (wellFormed_of_not_mem h)).symm
  · intro e
    rw [e, toString_ofString]

end PropertyDelete.Utf16
