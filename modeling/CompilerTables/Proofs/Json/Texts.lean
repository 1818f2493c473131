import CompilerTables.Proofs.Json.Spelling
import CompilerTables.Proofs.Json.Writing

/-!
# Data that have texts

Not every value has a text: a string may hold a number that is no code point, and the literal of a
number may be anything.  The values that texts, numbers, lists and records are written as do have
texts, so nothing that is said of all the texts of a datum is said of none.

Any text will do, and the ones built here are plain: no blanks, no pair split, and an escape only
where a character needs one.
-/

namespace CompilerTables
namespace Json

variable {α : Type}

/-- Some text spells the value. -/
def Value.HasText (value : Value) : Prop := ∃ text, Spells value text

/-- The datum is written as some value that has a text. -/
def Writable (writtenAs : α → Value → Prop) (x : α) : Prop :=
  ∃ value, writtenAs x value ∧ value.HasText

theorem blanks_nil : Blanks [] := nofun

/-! ## Strings -/

theorem exists_isHexDigit {digit : Nat} (h : digit < 16) : ∃ c, IsHexDigit c digit :=
  ⟨smallHexDigits[digit], .inl (List.getElem?_eq_getElem h)⟩

/-- Every character can stand in a string, if need be by its number. -/
theorem exists_spellsPoint (c : Char) : ∃ text, SpellsPoint c.toNat text := by
  by_cases hplain : IsPlain c
  · exact ⟨[c], .plain hplain.1 hplain.2.1 hplain.2.2⟩
  · have hsmall : c.toNat < 0x80 := by
      by_contra hlarge
      refine hplain ⟨?_, ?_, by omega⟩ <;> rintro rfl <;> exact hlarge (by decide)
    obtain ⟨c₃, h₃⟩ := exists_isHexDigit (show c.toNat / 16 < 16 by omega)
    obtain ⟨c₄, h₄⟩ := exists_isHexDigit (show c.toNat % 16 < 16 by omega)
    have hzero : IsHexDigit '0' 0 := .inl rfl
    have hpoint : 0x1000 * 0 + 0x100 * 0 + 0x10 * (c.toNat / 16) + c.toNat % 16 = c.toNat := by
      omega
    have hspells := SpellsPoint.digits hzero hzero h₃ h₄
    rw [hpoint] at hspells
    exact ⟨_, hspells⟩

theorem exists_spellsString (s : String) : ∃ text, SpellsString (codePoints s) text := by
  have hpoints : ∀ chars : List Char, ∃ text, SpellsPoints (chars.map Char.toNat) text := by
    intro chars
    induction chars with
    | nil => exact ⟨[], .nil⟩
    | cons c rest ih =>
      obtain ⟨text, htext⟩ := exists_spellsPoint c
      obtain ⟨more, hmore⟩ := ih
      exact ⟨text ++ more, .cons htext hmore⟩
  obtain ⟨text, htext⟩ := hpoints s.toList
  exact ⟨_, .quoted htext⟩

theorem writable_string (s : String) : Writable StringWrittenAs s := by
  obtain ⟨text, htext⟩ := exists_spellsString s
  exact ⟨_, .content (textWrittenAs_codePoints s), text, .string htext⟩

/-! ## Numbers -/

theorem exists_toDigits_eq_cons {n : Nat} (hn : 0 < n) :
    ∃ c rest, Nat.toDigits 10 n = c :: rest ∧ c ≠ '0' := by
  induction n using Nat.strongRecOn with
  | ind n ih =>
    rw [Nat.toDigits_eq_if (by decide)]
    split
    · exact ⟨n.digitChar, [], rfl, mt Nat.digitChar_eq_zero.mp (Nat.ne_of_gt hn)⟩
    · obtain ⟨c, rest, hdigits, hc⟩ := ih (n / 10) (by omega) (by omega)
      exact ⟨c, rest ++ [(n % 10).digitChar], by rw [hdigits, List.cons_append], hc⟩

theorem isWhole_toDigits (n : Nat) : IsWhole (Nat.toDigits 10 n) := by
  rcases Nat.eq_zero_or_pos n with rfl | hn
  · rw [Nat.toDigits_zero]
    exact .zero
  · have hall : ∀ c ∈ Nat.toDigits 10 n, c.isDigit = true := fun c hc =>
      Nat.isDigit_of_mem_toDigits (by decide) (by decide) hc
    obtain ⟨c, rest, hdigits, hc⟩ := exists_toDigits_eq_cons hn
    rw [hdigits] at hall ⊢
    exact .digits (hall c List.mem_cons_self) hc fun c hc => hall c (List.mem_cons_of_mem _ hc)

theorem hasText_number (n : Nat) : (Value.number (Nat.toDigits 10 n)).HasText := by
  have hnumber := IsNumber.parts List.mem_cons_self (isWhole_toDigits n) .none .none
  simp only [List.nil_append, List.append_nil] at hnumber
  exact ⟨_, .number hnumber⟩

theorem writable_natural {n : Nat} (hn : n < 2 ^ 64) : Writable NaturalWrittenAs n :=
  ⟨_, .digits hn, hasText_number n⟩

/-! ## Lists and records -/

theorem exists_spellsElements {first : Value} {rest : List Value}
    (h : ∀ value ∈ first :: rest, value.HasText) : ∃ text, SpellsElements (first :: rest) text := by
  induction rest generalizing first with
  | nil =>
    obtain ⟨text, htext⟩ := h first List.mem_cons_self
    exact ⟨_, .last (.blanks blanks_nil htext blanks_nil)⟩
  | cons second rest ih =>
    obtain ⟨text, htext⟩ := h first List.mem_cons_self
    obtain ⟨more, hmore⟩ := ih fun value hvalue => h value (List.mem_cons_of_mem _ hvalue)
    exact ⟨_, .cons (.blanks blanks_nil htext blanks_nil) hmore⟩

theorem hasText_array {elements : List Value} (h : ∀ value ∈ elements, value.HasText) :
    (Value.array elements).HasText := by
  cases elements with
  | nil => exact ⟨_, .emptyArray blanks_nil⟩
  | cons first rest =>
    obtain ⟨text, htext⟩ := exists_spellsElements h
    exact ⟨_, .array htext⟩

theorem Writable.list {writtenAs : α → Value → Prop} {xs : List α}
    (h : ∀ x ∈ xs, Writable writtenAs x) : Writable (ListWrittenAs writtenAs) xs := by
  have helements : ∃ elements, List.Forall₂ writtenAs xs elements ∧
      ∀ value ∈ elements, value.HasText := by
    induction xs with
    | nil => exact ⟨[], .nil, nofun⟩
    | cons x rest ih =>
      obtain ⟨value, hwritten, htext⟩ := h x List.mem_cons_self
      obtain ⟨values, hrest, htexts⟩ := ih fun x hx => h x (List.mem_cons_of_mem _ hx)
      exact ⟨value :: values, .cons hwritten hrest, List.forall_mem_cons.mpr ⟨htext, htexts⟩⟩
  obtain ⟨elements, hwritten, htexts⟩ := helements
  exact ⟨_, .elements hwritten, hasText_array htexts⟩

theorem exists_spellsMember {name : String} {value : Value} (h : value.HasText) :
    ∃ text, SpellsMember (codePoints name, value) text := by
  obtain ⟨quoted, hname⟩ := exists_spellsString name
  obtain ⟨text, htext⟩ := h
  exact ⟨_, .colon blanks_nil hname blanks_nil (.blanks blanks_nil htext blanks_nil)⟩

theorem exists_spellsMembers {first : String × Value} {rest : List (String × Value)}
    (h : ∀ member ∈ first :: rest, member.2.HasText) :
    ∃ text, SpellsMembers
      ((first :: rest).map fun member => (codePoints member.1, member.2)) text := by
  induction rest generalizing first with
  | nil =>
    obtain ⟨text, htext⟩ := exists_spellsMember (h first List.mem_cons_self)
    exact ⟨_, .last htext⟩
  | cons second rest ih =>
    obtain ⟨text, htext⟩ := exists_spellsMember (h first List.mem_cons_self)
    obtain ⟨more, hmore⟩ := ih fun member hmember => h member (List.mem_cons_of_mem _ hmember)
    exact ⟨_, .cons htext hmore⟩

theorem hasText_objectOf {named : List (String × Value)}
    (h : ∀ member ∈ named, member.2.HasText) : (objectOf named).HasText := by
  cases named with
  | nil => exact ⟨_, .emptyObject blanks_nil⟩
  | cons first rest =>
    obtain ⟨text, htext⟩ := exists_spellsMembers h
    exact ⟨_, .object htext⟩

/-- A record without other members has a text when its fields have. -/
theorem exists_recordWrittenAs {fields : List (String × Option Value)}
    (h : ∀ field ∈ fields, ∀ value, field.2 = some value → value.HasText) :
    ∃ value, RecordWrittenAs fields value ∧ value.HasText := by
  have hnamed : (givenMembers fields).Perm (givenMembers fields ++ []) := by
    rw [List.append_nil]
  refine ⟨_, recordWrittenAs_objectOf hnamed nofun, hasText_objectOf fun member hmember => ?_⟩
  obtain ⟨field, hfield, hgiven⟩ := List.mem_filterMap.mp hmember
  obtain ⟨value, hvalue, rfl⟩ := Option.map_eq_some_iff.mp hgiven
  exact h field hfield value hvalue

end Json
end CompilerTables
