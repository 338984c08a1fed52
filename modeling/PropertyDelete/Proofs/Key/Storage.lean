import PropertyDelete.Proofs.Key.Normal

/-!
Which keys are stored under one text. The keys of a native object are flattened into texts: an
index into its decimal text, a symbol into its description and number between fixed marks. The
marks may occur in a description, but the last `#` of the text of a symbol is always its own, so
the number after it and the description before it can be read back; and a symbol of the language
itself, which has no number, is told by the parenthesis at the end (`Symbol.storageText_inj`).
What is left are the cases in which texts do coincide, `Key.Shares`, and a key in normal form
shares its text with no other ones (`storageText_eq_iff`).
-/
namespace PropertyDelete

/-- A list is cut in one way at the last place where a separator stands. -/
theorem append_separator_inj {α : Type} {a : α} {x y z w : List α} (hz : a ∉ z) (hw : a ∉ w)
    (h : x ++ a :: z = y ++ a :: w) : x = y ∧ z = w := by
  rcases List.append_eq_append_iff.mp h with ⟨m, hy, hm⟩ | ⟨m, hx, hm⟩
  · cases m with
    | nil => simp_all
    | cons b m =>
      simp only [List.cons_append, List.cons.injEq] at hm
      exact absurd (by simp [hm.2]) hz
  · cases m with
    | nil => simp_all
    | cons b m =>
      simp only [List.cons_append, List.cons.injEq] at hm
      exact absurd (by simp [hm.2]) hw

namespace Symbol

variable {s t : Symbol}

theorem displayChars_inj :
    s.displayChars = t.displayChars ↔ s.descriptionChars = t.descriptionChars := by
  unfold displayChars
  rw [List.append_left_inj, List.append_right_inj]

theorem getLast?_displayChars (s : Symbol) : s.displayChars.getLast? = some ')' := by
  unfold displayChars
  rw [List.getLast?_concat]

theorem storageText_of_wellKnown (hs : s.isWellKnown = true) :
    s.storageText = String.ofList s.displayChars := by
  simp only [storageText, hs, if_true, display]

theorem storageText_of_not_wellKnown (hs : s.isWellKnown = false) :
    s.storageText = String.ofList (s.displayChars ++ '#' :: Decimal.digits s.id) := by
  simp only [storageText, hs, Bool.false_eq_true, if_false]

/-- A text with a number at its end is none that ends with the parenthesis. -/
theorem displayChars_ne_numbered (s t : Symbol) :
    s.displayChars ≠ t.displayChars ++ '#' :: Decimal.digits t.id := by
  intro e
  have hlast := s.getLast?_displayChars
  rw [e, List.getLast?_append, List.getLast?_cons, Option.some_or, Option.some_inj] at hlast
  cases hd : (Decimal.digits t.id).getLast? with
  | none =>
    rw [hd] at hlast
    exact absurd hlast (by decide)
  | some c =>
    rw [hd, Option.getD_some] at hlast
    subst hlast
    exact Decimal.not_mem_digits (by decide) _ (List.mem_of_getLast? hd)

theorem numbered_inj :
    s.displayChars ++ '#' :: Decimal.digits s.id = t.displayChars ++ '#' :: Decimal.digits t.id ↔
      s.descriptionChars = t.descriptionChars ∧ s.id = t.id := by
  constructor
  · intro e
    have hmark : Decimal.digit? '#' = none := by decide
    obtain ⟨hdisplay, hdigits⟩ := append_separator_inj (Decimal.not_mem_digits hmark _)
      (Decimal.not_mem_digits hmark _) e
    exact ⟨displayChars_inj.mp hdisplay, Decimal.text_injective (congrArg String.ofList hdigits)⟩
  · rintro ⟨hchars, hid⟩
    rw [displayChars_inj.mpr hchars, hid]

/-- Two symbols have one storage text if both are the language's own or neither is, their
descriptions read alike and, in the second case, they have one number. -/
theorem storageText_inj :
    s.storageText = t.storageText ↔
      s.isWellKnown = t.isWellKnown ∧ s.descriptionChars = t.descriptionChars ∧
        (s.isWellKnown = false → s.id = t.id) := by
  cases hs : s.isWellKnown with
  | false =>
    cases ht : t.isWellKnown with
    | false =>
      rw [storageText_of_not_wellKnown hs, storageText_of_not_wellKnown ht,
        String.ofList_inj, numbered_inj]
      simp
    | true =>
      rw [storageText_of_not_wellKnown hs, storageText_of_wellKnown ht,
        String.ofList_inj]
      simp [(displayChars_ne_numbered t s).symm]
  | true =>
    cases ht : t.isWellKnown with
    | false =>
      rw [storageText_of_wellKnown hs, storageText_of_not_wellKnown ht,
        String.ofList_inj]
      simp [displayChars_ne_numbered s t]
    | true =>
      rw [storageText_of_wellKnown hs, storageText_of_wellKnown ht,
        String.ofList_inj, displayChars_inj]
      simp

end Symbol

namespace Key

/-- When two keys share a storage text: if they are the same key; if they are texts that read
alike; if they are symbols of the language itself with descriptions that read alike; or if one is
a symbol and the other one the text under which it is stored. -/
inductive Shares : Key → Key → Prop where
  | same {k l : Key} (h : k.same l = true) : Shares k l
  | texts {a b : Utf16} (h : a.toString = b.toString) : Shares (.text a) (.text b)
  | wellKnown {s t : Symbol} (hs : s.isWellKnown = true) (ht : t.isWellKnown = true)
      (h : s.descriptionChars = t.descriptionChars) : Shares (.symbol s) (.symbol t)
  | symbolText {s : Symbol} {a : Utf16} (h : a.toString = s.storageText) :
      Shares (.symbol s) (.text a)
  | textSymbol {s : Symbol} {a : Utf16} (h : a.toString = s.storageText) :
      Shares (.text a) (.symbol s)

theorem same_refl (k : Key) : k.same k = true := by
  cases k <;> simp [same]

theorem shares_of_symbols {s t : Symbol} (h : s.storageText = t.storageText) :
    Shares (.symbol s) (.symbol t) := by
  obtain ⟨hknown, hchars, hid⟩ := Symbol.storageText_inj.mp h
  cases hs : s.isWellKnown with
  | true => exact .wellKnown hs (hknown ▸ hs) hchars
  | false => exact .same (by simpa [same] using hid hs)

/-- Keys that are the same are equal, if symbols with one number have one description: symbols are
compared by their numbers alone. -/
theorem eq_of_same {k l : Key}
    (hids : ∀ s t, k = .symbol s → l = .symbol t → s.id = t.id → s.description = t.description)
    (h : k.same l = true) : k = l := by
  cases k with
  | text a =>
    cases l with
    | text b => simpa [same] using h
    | _ => cases h
  | index i =>
    cases l with
    | index j => simpa [same] using h
    | _ => cases h
  | symbol s =>
    cases l with
    | symbol t =>
      have hid : s.id = t.id := by simpa [same] using h
      have hdescription := hids s t rfl rfl hid
      cases s
      cases t
      simp only at hid hdescription
      rw [hid, hdescription]
    | _ => cases h

/-- Keys in normal form are stored under one text exactly if they share it. -/
theorem storageText_eq_iff {k l : Key} (hk : k.Normal) (hl : l.Normal)
    (hids : ∀ s t, k = .symbol s → l = .symbol t → s.id = t.id → s.description = t.description) :
    k.storageText = l.storageText ↔ k.Shares l := by
  constructor
  · intro e
    cases k with
    | index i =>
      have hindex : l = .index i := (storageText_eq_text hl hk).mp e.symm
      subst hindex
      exact .same (same_refl _)
    | text a =>
      cases l with
      | index j =>
        have hindex : Key.text a = .index j := (storageText_eq_text hk hl).mp e
        cases hindex
      | text b => exact .texts e
      | symbol s => exact .textSymbol e
    | symbol s =>
      cases l with
      | index j =>
        have hindex : Key.symbol s = .index j := (storageText_eq_text hk hl).mp e
        cases hindex
      | text b => exact .symbolText e.symm
      | symbol t => exact shares_of_symbols e
  · intro hshares
    cases hshares with
    | same hsame => rw [eq_of_same hids hsame]
    | texts e => exact e
    | wellKnown hs ht hchars => exact Symbol.storageText_inj.mpr (by simp [hs, ht, hchars])
    | symbolText e => exact e.symm
    | textSymbol e => exact e

end Key

namespace Heap

/-- Whatever values two keys come from, the keys are stored under one text exactly if they share
it; symbols with one number are expected to have one description. An index shares its text with
no other key, and two symbols with different numbers share one only if both are the language's
own. -/
theorem storageText_toKey {h₁ h₂ : Heap} {v₁ v₂ : Value}
    (hids : ∀ s t, h₁.toKey v₁ = .symbol s → h₂.toKey v₂ = .symbol t → s.id = t.id →
      s.description = t.description) :
    ((h₁.toKey v₁).storageText = (h₂.toKey v₂).storageText ↔
      (h₁.toKey v₁).Shares (h₂.toKey v₂)) ∧
    (∀ i, h₁.toKey v₁ = .index i →
      ((h₁.toKey v₁).storageText = (h₂.toKey v₂).storageText ↔ h₂.toKey v₂ = .index i)) ∧
    (∀ s t, h₁.toKey v₁ = .symbol s → h₂.toKey v₂ = .symbol t → s.id ≠ t.id →
      ¬ (s.isWellKnown = true ∧ t.isWellKnown = true) →
        (h₁.toKey v₁).storageText ≠ (h₂.toKey v₂).storageText) := by
  have hnormal₁ := h₁.toKey_normal v₁
  have hnormal₂ := h₂.toKey_normal v₂
  refine ⟨Key.storageText_eq_iff hnormal₁ hnormal₂ hids, ?_, ?_⟩
  · intro i hi
    rw [hi] at hnormal₁ ⊢
    rw [eq_comm]
    exact Key.storageText_eq_text hnormal₂ hnormal₁
  · intro s t hs ht hid hknown e
    rw [hs, ht] at e
    cases Key.shares_of_symbols e with
    | same hsame => exact hid (by simpa [Key.same] using hsame)
    | wellKnown hsk htk => exact hknown ⟨hsk, htk⟩

/-- A description that ends like the text of another symbol gives no text of that symbol. -/
theorem storageText_toKey_nested :
    (({} : Heap).toKey (.symbol ⟨1, some (Utf16.ofString "a")⟩)).storageText = "Symbol(a)#1" ∧
    (({} : Heap).toKey (.symbol ⟨1, some (Utf16.ofString "a")⟩)).storageText ≠
      (({} : Heap).toKey (.symbol ⟨2, some (Utf16.ofString "a)#1")⟩)).storageText := by
  refine ⟨by decide, ?_⟩
  refine (storageText_toKey ?_).2.2 _ _ rfl rfl (by decide) (by decide)
  intro s t hs ht hid
  cases hs
  cases ht
  exact absurd hid (by decide)

end Heap
end PropertyDelete
