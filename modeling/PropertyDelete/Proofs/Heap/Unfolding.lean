import PropertyDelete.Proofs.Key.Conversion
import Mathlib.Logic.Relation

/-!
The text of a value, told without a stack and without a bound. `Unfolds` spells a value out along
the links between objects, down to the values that are no objects (`Value.spelling?`). Which objects
are left out as met already is a parameter: those on the path down from the root, or none at all,
and then an object on a cycle has no text.

The conversion comes to the first unfolding on every heap (`unfolds_convert`). Its objects in hand
are different ones, so the bound on its depth is never felt. The two unfoldings are the same where
no cycle can be reached, however often an object is shared (`Unfolds.of_acyclic`), and the second
one has an end nowhere else (`Unfolds.acyclic`).
-/
namespace PropertyDelete

/-- The text of a value that is not a native object. -/
def Value.spelling? : Value → Option String
  | .undefined => some "undefined"
  | .null => some "null"
  | .boolean true => some "true"
  | .boolean false => some "false"
  | .number n => some n.text
  | .string t => some t.toString
  | .symbol ⟨_, some description⟩ => some ("Symbol(" ++ description.toString ++ ")")
  | .symbol ⟨_, none⟩ => some "Symbol()"
  | .bigint z => some ((if z < 0 then "-" else "") ++ Decimal.text z.natAbs)
  | .foreign _ => some "[foreign object]"
  | .object _ => none

/-- A value that is not a native object is converted to its text. -/
theorem Value.spelling?_eq {v : Value} (hv : ∀ o, v ≠ .object o) :
    v.spelling? = some v.textPrimitive := by
  cases v with
  | object o => exact absurd rfl (hv o)
  | boolean b => cases b <;> rfl
  | symbol s =>
    obtain ⟨id, description⟩ := s
    cases description with
    | none => rfl
    | some d =>
      apply congrArg some
      show "Symbol(" ++ String.ofList (Utf16.decodeUnits d.units) ++ ")" =
        String.ofList ("Symbol(".toList ++ Utf16.decodeUnits d.units ++ [')'])
      rw [String.ofList_append, String.ofList_append, String.ofList_toList]
  | bigint z =>
    apply congrArg some
    cases z with
    | ofNat n => exact String.empty_append
    | negSucc n =>
      rw [if_pos (Int.negSucc_lt_zero n)]
      have hsplit : '-' :: Decimal.digits (n + 1) = ['-'] ++ Decimal.digits (n + 1) := rfl
      show "-" ++ Decimal.text (n + 1) = String.ofList ('-' :: Decimal.digits (n + 1))
      rw [hsplit, String.ofList_append]
      rfl
  | _ => rfl

namespace Heap

variable {h : Heap} {Met Met' : List ObjectRef → ObjectRef → Prop} {path : List ObjectRef}
  {o p q : ObjectRef} {v : Value} {t u : String}

/-- The text of an element slot, where `spell` gives the texts of values. Holes, undefined and
null have an empty text. -/
def spellSlot (spell : Value → String) : Option Value → String
  | none => ""
  | some v => if v.isNullish then "" else spell v

/-- Whether a text is that of a value at the end of a path of objects. An object that is met again
there is left out. Any other is spelled as the primitive value that it wraps, if it wraps one, else
as its elements, and without elements by its class. -/
inductive Unfolds (h : Heap) (Met : List ObjectRef → ObjectRef → Prop) :
    List ObjectRef → Value → String → Prop where
  | met {path : List ObjectRef} {o : ObjectRef} :
    Met path o → Unfolds h Met path (.object o) ""
  | wrapper {path : List ObjectRef} {o : ObjectRef} {v : Value} {t : String} :
    ¬ Met path o → (h.native o).primitive = some v →
      Unfolds h Met (o :: path) v t → Unfolds h Met path (.object o) t
  | row {path : List ObjectRef} {o : ObjectRef} {slots : List (Option Value)}
    (spell : Value → String) :
    ¬ Met path o → (h.native o).primitive = none → (h.native o).elements = some slots →
      (∀ v, some v ∈ slots → v.isNullish = false → Unfolds h Met (o :: path) v (spell v)) →
      Unfolds h Met path (.object o) (String.intercalate "," (slots.map (spellSlot spell)))
  | named {path : List ObjectRef} {o : ObjectRef} :
    ¬ Met path o → (h.native o).primitive = none → (h.native o).elements = none →
      Unfolds h Met path (.object o) ("[object " ++ (h.native o).className ++ "]")
  | leaf {path : List ObjectRef} {v : Value} {t : String} :
    v.spelling? = some t → Unfolds h Met path v t

/-- An object is met again if it is on the path. -/
def OnPath (path : List ObjectRef) (o : ObjectRef) : Prop := o ∈ path

/-- No object counts as met again. -/
def Nowhere (_ : List ObjectRef) (_ : ObjectRef) : Prop := False

theorem spellSlot_congr {spell spell' : Value → String} {slot : Option Value}
    (hsame : ∀ v, slot = some v → v.isNullish = false → spell v = spell' v) :
    spellSlot spell slot = spellSlot spell' slot := by
  cases slot with
  | none => rfl
  | some v =>
    cases hv : v.isNullish with
    | true => simp [spellSlot, hv]
    | false => simp [spellSlot, hv, hsame v rfl hv]

/-- A value has one text at most. -/
theorem Unfolds.functional (ht : h.Unfolds Met path v t) (hu : h.Unfolds Met path v u) :
    t = u := by
  induction ht generalizing u with
  | met hmet =>
    cases hu with
    | met => rfl
    | wrapper hnew => exact absurd hmet hnew
    | row spell hnew => exact absurd hmet hnew
    | named hnew => exact absurd hmet hnew
    | leaf hv => cases hv
  | wrapper hnew hp _ ih =>
    cases hu with
    | met hmet => exact absurd hmet hnew
    | wrapper _ hp' hvalue =>
      rw [hp, Option.some.injEq] at hp'
      subst hp'
      exact ih hvalue
    | row spell _ hp' => simp [hp] at hp'
    | named _ hp' => simp [hp] at hp'
    | leaf hv => cases hv
  | row spell hnew hp he _ ih =>
    cases hu with
    | met hmet => exact absurd hmet hnew
    | wrapper _ hp' => simp [hp] at hp'
    | row spell' _ _ he' hvalues =>
      rw [he, Option.some.injEq] at he'
      subst he'
      congr 1
      apply List.map_congr_left
      intro slot hslot
      apply spellSlot_congr
      rintro v rfl hv
      exact ih v hslot hv (hvalues v hslot hv)
    | named _ _ he' => simp [he] at he'
    | leaf hv => cases hv
  | named hnew hp he =>
    cases hu with
    | met hmet => exact absurd hmet hnew
    | wrapper _ hp' => simp [hp] at hp'
    | row spell _ _ he' => simp [he] at he'
    | named => rfl
    | leaf hv => cases hv
  | leaf hv =>
    cases hu with
    | leaf hv' => exact Option.some.inj (hv.symm.trans hv')
    | met => cases hv
    | wrapper => cases hv
    | row => cases hv
    | named => cases hv

/-! ## The conversion -/

theorem slotTexts_eq {one : Value → List ObjectRef → String × List ObjectRef}
    (hone : ∀ v active, (one v active).2 = active) (slots : List (Option Value))
    (active : List ObjectRef) :
    (slotTexts one slots active).1 = slots.map (spellSlot fun v => (one v active).1) := by
  have hslot : ∀ slot, slotText one slot active =
      (spellSlot (fun v => (one v active).1) slot, active) := by
    intro slot
    cases slot with
    | none => rfl
    | some v =>
      cases v with
      | undefined => rfl
      | null => rfl
      | _ => exact Prod.ext rfl (hone _ active)
  induction slots with
  | nil => rfl
  | cons slot rest ih => simp [slotTexts, hslot, ih]

section Convert

variable {depth : Nat} {active : List ObjectRef}

theorem convert_active (hactive : o ∈ active) : (h.convert depth (.object o) active).1 = "" := by
  cases depth with
  | zero => rfl
  | succ depth => simp [convert, hactive]

theorem convert_wrapper (hnew : o ∉ active) (hp : (h.native o).primitive = some v) :
    (h.convert (depth + 1) (.object o) active).1 = (h.convert depth v (o :: active)).1 := by
  simp [convert, hnew, hp]

theorem convert_row {slots : List (Option Value)} (hnew : o ∉ active)
    (hp : (h.native o).primitive = none) (he : (h.native o).elements = some slots) :
    (h.convert (depth + 1) (.object o) active).1 =
      String.intercalate ","
        (slots.map (spellSlot fun v => (h.convert depth v (o :: active)).1)) := by
  simp [convert, hnew, hp, he, slotTexts_eq (h.convert_stack depth)]

theorem convert_named (hnew : o ∉ active) (hp : (h.native o).primitive = none)
    (he : (h.native o).elements = none) :
    (h.convert (depth + 1) (.object o) active).1 =
      "[object " ++ (h.native o).className ++ "]" := by
  simp [convert, hnew, hp, he, NativeObject.classText]

/-- Where the bound leaves room for all objects that are not in hand, the conversion unfolds the
value. -/
theorem unfolds_convert (hn : h.Nesting active)
    (hdepth : h.natives.length < depth + active.length) (v : Value) :
    h.Unfolds OnPath active v (h.convert depth v active).1 := by
  induction depth generalizing active v with
  | zero =>
    have hle := hn.length_le
    omega
  | succ depth ih =>
    cases v with
    | object o =>
      by_cases hactive : o ∈ active
      · rw [convert_active hactive]
        exact .met hactive
      · by_cases ho : o.index < h.natives.length
        · have hbelow : ∀ v, h.Unfolds OnPath (o :: active) v
              (h.convert depth v (o :: active)).1 := by
            apply ih (hn.cons ho hactive)
            simp
            omega
          cases hp : (h.native o).primitive with
          | some v =>
            rw [convert_wrapper hactive hp]
            exact .wrapper hactive hp (hbelow v)
          | none =>
            cases he : (h.native o).elements with
            | some slots =>
              rw [convert_row hactive hp he]
              exact .row _ hactive hp he fun v _ _ => hbelow v
            | none =>
              rw [convert_named hactive hp he]
              exact .named hactive hp he
        · -- nothing is below a reference to nothing
          have hobj : h.native o = {} := native_of_le (Nat.le_of_not_lt ho)
          have hp : (h.native o).primitive = none := by rw [hobj]
          have he : (h.native o).elements = none := by rw [hobj]
          rw [convert_named hactive hp he]
          exact .named hactive hp he
    | _ => exact .leaf (Value.spelling?_eq nofun)

end Convert

theorem unfolds_text (h : Heap) (v : Value) : h.Unfolds OnPath [] v (h.text v) := by
  apply unfolds_convert (Nesting.nil h)
  simp

/-! ## Cycles -/

/-- Whether the text of an object is made of that of a value: of the one that it wraps, or else of
its elements. -/
def Contains (h : Heap) (o : ObjectRef) (v : Value) : Prop :=
  (h.native o).primitive = some v ∨
    (h.native o).primitive = none ∧ ∃ slots, (h.native o).elements = some slots ∧ some v ∈ slots

def Link (h : Heap) (o p : ObjectRef) : Prop := h.Contains o (.object p)

/-- Whether an object is a value or can be reached from it. -/
def Reaches (h : Heap) (v : Value) (o : ObjectRef) : Prop :=
  ∃ p, v = .object p ∧ Relation.ReflTransGen h.Link p o

/-- Whether no cycle can be reached from a value. -/
def Acyclic (h : Heap) (v : Value) : Prop :=
  ∀ o, h.Reaches v o → ¬ Relation.TransGen h.Link o o

theorem Reaches.self (h : Heap) (o : ObjectRef) : h.Reaches (.object o) o := ⟨o, rfl, .refl⟩

theorem Reaches.below (hv : h.Contains o v) (hr : h.Reaches v q) : h.Reaches (.object o) q := by
  obtain ⟨p, rfl, hp⟩ := hr
  exact ⟨o, rfl, .head hv hp⟩

theorem Acyclic.below (hac : h.Acyclic (.object o)) (hv : h.Contains o v) : h.Acyclic v :=
  fun q hr => hac q (hr.below hv)

/-- What is below an object off every cycle is neither that object nor on the way to it. -/
theorem Acyclic.clear_below (hac : h.Acyclic (.object o)) (hv : h.Contains o v)
    (hclear : ∀ q, h.Reaches (.object o) q → q ∉ path) : ∀ q, h.Reaches v q → q ∉ o :: path := by
  intro q hr hq
  rcases List.mem_cons.mp hq with rfl | hq
  · obtain ⟨p, rfl, hp⟩ := hr
    exact hac q (.self h q) (.head' hv hp)
  · exact hclear q (hr.below hv) hq

theorem acyclic_of_below (hbelow : ∀ p, h.Link o p → h.Acyclic (.object p)) :
    h.Acyclic (.object o) := by
  rintro q ⟨p, hp, hr⟩ hcycle
  cases hp
  rcases hr.cases_head with rfl | ⟨p, hlink, hr⟩
  · obtain ⟨p, hlink, hr⟩ := Relation.TransGen.head'_iff.mp hcycle
    exact hbelow p hlink o ⟨p, rfl, hr⟩ hcycle
  · exact hbelow p hlink q ⟨p, rfl, hr⟩ hcycle

/-- What can be unfolded with no object left out is on no cycle and reaches none. -/
theorem Unfolds.acyclic (ht : h.Unfolds Nowhere path v t) : h.Acyclic v := by
  induction ht with
  | met hmet => exact hmet.elim
  | wrapper _ hp _ ih =>
    apply acyclic_of_below
    rintro p (hlink | ⟨hnone, -⟩)
    · rw [hp, Option.some.injEq] at hlink
      exact hlink ▸ ih
    · simp [hp] at hnone
  | row spell _ hp he _ ih =>
    apply acyclic_of_below
    rintro p (hsome | ⟨-, slots, hslots, hmem⟩)
    · simp [hp] at hsome
    · rw [he, Option.some.injEq] at hslots
      subst hslots
      exact ih (.object p) hmem rfl
  | named _ hp he =>
    apply acyclic_of_below
    rintro p (hsome | ⟨-, slots, hslots, -⟩)
    · simp [hp] at hsome
    · simp [he] at hslots
  | leaf hv =>
    rintro q ⟨p, rfl, -⟩
    cases hv

/-- Where no cycle can be reached it does not matter whether objects on the path are left out,
since none is met there. -/
theorem Unfolds.of_acyclic (ht : h.Unfolds Met path v t)
    (hmet : ∀ path o, Met path o → o ∈ path) (hmet' : ∀ path o, Met' path o → o ∈ path)
    (hac : h.Acyclic v) (hclear : ∀ q, h.Reaches v q → q ∉ path) : h.Unfolds Met' path v t := by
  induction ht with
  | met hm => exact absurd (hmet _ _ hm) (hclear _ (.self h _))
  | wrapper _ hp _ ih =>
    have hnew := mt (hmet' _ _) (hclear _ (.self h _))
    have hv : h.Contains _ _ := Or.inl hp
    exact .wrapper hnew hp (ih (hac.below hv) (hac.clear_below hv hclear))
  | row spell _ hp he _ ih =>
    have hnew := mt (hmet' _ _) (hclear _ (.self h _))
    refine .row spell hnew hp he fun v hmem hnullish => ?_
    have hv : h.Contains _ v := Or.inr ⟨hp, _, he, hmem⟩
    exact ih v hmem hnullish (hac.below hv) (hac.clear_below hv hclear)
  | named _ hp he => exact .named (mt (hmet' _ _) (hclear _ (.self h _))) hp he
  | leaf hv => exact .leaf hv

/-- On every heap, whatever the links between its objects, the text of a value is the one that
unfolds it with the objects on the path left out, and no bound above the number of objects makes a
difference to it. Each conversion that is nested in another one leaves the stack as it was. With no
object left out a value unfolds exactly where no cycle can be reached, and then to the same text. -/
theorem text_unfolds (h : Heap) (v : Value) :
    (∀ extra, h.convert (h.natives.length + 1 + extra) v [] = (h.text v, [])) ∧
    (∀ t, h.Unfolds OnPath [] v t ↔ t = h.text v) ∧
    (∀ depth w active, (h.convert depth w active).2 = active) ∧
    (∀ t, h.Unfolds Nowhere [] v t ↔ h.Acyclic v ∧ t = h.text v) := by
  have hclear : ∀ q, h.Reaches v q → q ∉ ([] : List ObjectRef) := fun q _ => List.not_mem_nil
  have honpath : ∀ path o, OnPath path o → o ∈ path := fun _ _ => id
  have hnowhere : ∀ path o, Nowhere path o → o ∈ path := fun _ _ => False.elim
  refine ⟨?_, ?_, h.convert_stack, ?_⟩
  · intro extra
    have hbound : h.natives.length < h.natives.length + 1 + extra := by omega
    exact Prod.ext (text_eq_convert hbound v).symm (h.convert_stack _ v [])
  · intro t
    constructor
    · exact fun ht => ht.functional (h.unfolds_text v)
    · rintro rfl
      exact h.unfolds_text v
  · intro t
    constructor
    · intro ht
      have hac := ht.acyclic
      have htext := ht.of_acyclic hnowhere honpath hac hclear
      exact ⟨hac, htext.functional (h.unfolds_text v)⟩
    · rintro ⟨hac, rfl⟩
      exact (h.unfolds_text v).of_acyclic honpath hnowhere hac hclear

/-- A row that holds an object twice, once by way of the object that wraps it, and itself. -/
example :
    let natives : List NativeObject :=
      [.array [.object ⟨1⟩, .object ⟨2⟩, .object ⟨0⟩], .array [.boolean true, .null],
        { primitive := some (.object ⟨1⟩) }]
    ({ natives } : Heap).text (.object ⟨0⟩) = "true,,true,," := by
  decide

end Heap
end PropertyDelete
