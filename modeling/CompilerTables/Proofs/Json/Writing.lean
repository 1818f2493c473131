import Mathlib.Algebra.Group.Nat.Defs
import Mathlib.Data.List.Nodup
import CompilerTables.Json.Record
import CompilerTables.Proofs.Outcome

/-!
# How data are written as values, and read back

Texts, numbers, lists and records have several values each.  A character beyond the first 2 ^ 16 may
be two halves of a surrogate pair; the members of a record may stand in any order, amid others of
which the record knows nothing; a field may be left out when it has its default.  The relations of
this file say which values write a datum, and the lemmas after each say that the reader of that kind
gives the datum back.

`Undoes read writtenAs` is the form that all of them have.  For lists and for fields that may be
missing it passes from the reader of the part to the reader of the whole, so a record is read back
as soon as its fields are.
-/

namespace CompilerTables
namespace Json

variable {α : Type}

/-- Whatever value a datum is written as, reading it gives the datum. -/
def Undoes (read : Value → Option α) (writtenAs : α → Value → Prop) : Prop :=
  ∀ ⦃x : α⦄ ⦃value : Value⦄, writtenAs x value → read value = some x

/-! ## Texts -/

/-- The code points of a text.  Each character is its own code point, and one beyond the first
2 ^ 16 may instead be the two halves of a surrogate pair. -/
inductive TextWrittenAs : List Char → CodePoints → Prop
  | nil : TextWrittenAs [] []
  | point {c : Char} {chars : List Char} {content : CodePoints}
      (hrest : TextWrittenAs chars content) : TextWrittenAs (c :: chars) (c.toNat :: content)
  | pair {c : Char} {offset : Nat} {chars : List Char} {content : CodePoints}
      (hc : c.toNat = 0x10000 + offset) (hrest : TextWrittenAs chars content) :
      TextWrittenAs (c :: chars)
        ((0xd800 + offset / 0x400) :: (0xdc00 + offset % 0x400) :: content)

/-- The code points of a text, with no pair split. -/
def codePoints (s : String) : CodePoints := s.toList.map Char.toNat

theorem textWrittenAs_map_toNat (chars : List Char) :
    TextWrittenAs chars (chars.map Char.toNat) := by
  induction chars with
  | nil => exact .nil
  | cons c rest ih => exact .point ih

theorem textWrittenAs_codePoints (s : String) : TextWrittenAs s.toList (codePoints s) :=
  textWrittenAs_map_toNat s.toList

/-- A string value that writes a text. -/
inductive StringWrittenAs (s : String) : Value → Prop
  | content {content : CodePoints} (hcontent : TextWrittenAs s.toList content) :
      StringWrittenAs s (.string content)

namespace PairJoiner

variable {c : Char} {chars : List Char} {offset : Nat}

/-- No character is half of a surrogate pair. -/
theorem step_char : step ⟨none, chars⟩ c.toNat = some ⟨none, c :: chars⟩ := by
  have hvalid : c.toNat < 0xd800 ∨ 0xdfff < c.toNat ∧ c.toNat < 0x110000 := c.valid
  have hhigh : ¬ isHighSurrogate c.toNat = true := by
    simp only [isHighSurrogate, Bool.and_eq_true, decide_eq_true_eq]
    omega
  have hlow : ¬ isLowSurrogate c.toNat = true := by
    simp only [isLowSurrogate, Bool.and_eq_true, decide_eq_true_eq]
    omega
  simp only [step]
  rw [if_neg hhigh, if_neg hlow, Char.ofNat_toNat]

theorem step_high {high : Nat} (hhigh : isHighSurrogate high = true) :
    step ⟨none, chars⟩ high = some ⟨some high, chars⟩ := if_pos hhigh

/-- The halves of a surrogate pair make up their character. -/
theorem takes_pair (hc : c.toNat = 0x10000 + offset) :
    Takes step ⟨none, chars⟩ [0xd800 + offset / 0x400, 0xdc00 + offset % 0x400]
      ⟨none, c :: chars⟩ := by
  have hvalid : c.toNat < 0xd800 ∨ 0xdfff < c.toNat ∧ c.toNat < 0x110000 := c.valid
  have hhigh : isHighSurrogate (0xd800 + offset / 0x400) = true := by
    simp only [isHighSurrogate, Bool.and_eq_true, decide_eq_true_eq]
    omega
  have hlow : isLowSurrogate (0xdc00 + offset % 0x400) = true := by
    simp only [isLowSurrogate, Bool.and_eq_true, decide_eq_true_eq]
    omega
  have hjoin : joinSurrogates (0xd800 + offset / 0x400) (0xdc00 + offset % 0x400) = c.toNat := by
    unfold joinSurrogates
    omega
  have hsecond : step ⟨some (0xd800 + offset / 0x400), chars⟩ (0xdc00 + offset % 0x400) =
      some ⟨none, c :: chars⟩ := by
    simp only [step]
    rw [if_pos hlow, hjoin, Char.ofNat_toNat]
  exact .cons (step_high hhigh) (.single hsecond)

end PairJoiner

theorem takes_of_textWrittenAs {chars before : List Char} {content : CodePoints}
    (h : TextWrittenAs chars content) :
    Takes PairJoiner.step ⟨none, before⟩ content ⟨none, chars.reverse ++ before⟩ := by
  induction h generalizing before with
  | nil => exact .nil
  | point _ ih =>
    rw [List.reverse_cons, List.append_assoc, List.singleton_append]
    exact .cons PairJoiner.step_char ih
  | pair hc _ ih =>
    rw [List.reverse_cons, List.append_assoc, List.singleton_append]
    exact (PairJoiner.takes_pair hc).append ih

theorem textOf?_of_textWrittenAs {s : String} {content : CodePoints}
    (h : TextWrittenAs s.toList content) : textOf? content = some s := by
  have htaken : content.foldlM PairJoiner.step ⟨none, []⟩ = some ⟨none, s.toList.reverse ++ []⟩ :=
    takes_of_textWrittenAs h
  rw [textOf?, charsOf?, htaken]
  simp

theorem undoes_string? : Undoes string? StringWrittenAs := by
  rintro s _ ⟨hcontent⟩
  exact textOf?_of_textWrittenAs hcontent

/-! ## Numbers and lists -/

/-- A number that a word holds, written by its decimal digits. -/
inductive NaturalWrittenAs (n : Nat) : Value → Prop
  | digits (hn : n < 2 ^ 64) : NaturalWrittenAs n (.number (Nat.toDigits 10 n))

theorem naturalOf?_toDigits (n : Nat) : naturalOf? (Nat.toDigits 10 n) = some n := by
  have hdigits : (Nat.toDigits 10 n).all Char.isDigit = true :=
    List.all_eq_true.mpr fun _ hc => Nat.isDigit_of_mem_toDigits (by decide) (by decide) hc
  rw [naturalOf?, if_pos hdigits]
  exact congrArg some (Nat.ofDigitChars_toDigits (by decide) (by decide))

theorem undoes_natural? : Undoes natural? NaturalWrittenAs := by
  rintro n _ ⟨hn⟩
  rw [natural?, naturalOf?_toDigits, Option.filter_some]
  exact if_pos (decide_eq_true hn)

/-- An array that writes the elements of a list in their order. -/
inductive ListWrittenAs (writtenAs : α → Value → Prop) (xs : List α) : Value → Prop
  | elements {elements : List Value} (helements : List.Forall₂ writtenAs xs elements) :
      ListWrittenAs writtenAs xs (.array elements)

theorem Undoes.list? {read : Value → Option α} {writtenAs : α → Value → Prop}
    (h : Undoes read writtenAs) : Undoes (list? read) (ListWrittenAs writtenAs) := by
  rintro xs _ ⟨helements⟩
  exact mapM_eq_some_of_forall₂ (helements.imp fun _ _ hx => h hx).flip

/-! ## Records -/

/-- A member with its name as text. -/
def MemberWrittenAs (named : String × Value) (member : CodePoints × Value) : Prop :=
  TextWrittenAs named.1.toList member.1 ∧ named.2 = member.2

/-- The members for the fields of a record that are not left out. -/
def givenMembers (fields : List (String × Option Value)) : List (String × Value) :=
  fields.filterMap fun field => field.2.map fun value => (field.1, value)

/-- An object with one member for each given field, in any order, amid members that are named like
no field. -/
inductive RecordWrittenAs (fields : List (String × Option Value)) : Value → Prop
  | members {named unknown : List (String × Value)} {members : List (CodePoints × Value)}
      (hmembers : List.Forall₂ MemberWrittenAs named members)
      (hnamed : named.Perm (givenMembers fields ++ unknown))
      (hunknown : ∀ member ∈ unknown, member.1 ∉ fields.map Prod.fst) :
      RecordWrittenAs fields (.object members)

/-- An object with its names given as texts. -/
def objectOf (named : List (String × Value)) : Value :=
  .object (named.map fun member => (codePoints member.1, member.2))

theorem forall₂_memberWrittenAs (named : List (String × Value)) :
    List.Forall₂ MemberWrittenAs named
      (named.map fun member => (codePoints member.1, member.2)) := by
  rw [List.forall₂_map_right_iff, List.forall₂_same]
  exact fun member _ => ⟨textWrittenAs_codePoints member.1, rfl⟩

theorem recordWrittenAs_objectOf {fields : List (String × Option Value)}
    {named unknown : List (String × Value)} (hnamed : named.Perm (givenMembers fields ++ unknown))
    (hunknown : ∀ member ∈ unknown, member.1 ∉ fields.map Prod.fst) :
    RecordWrittenAs fields (objectOf named) :=
  .members (forall₂_memberWrittenAs named) hnamed hunknown

/-- A field that may be left out when it has its default. -/
inductive OptionalWrittenAs (writtenAs : α → Value → Prop) (default x : α) : Option Value → Prop
  | given {value : Value} (hvalue : writtenAs x value) :
      OptionalWrittenAs writtenAs default x (some value)
  | leftOut (hdefault : x = default) : OptionalWrittenAs writtenAs default x none

theorem Undoes.optional? {read : Value → Option α} {writtenAs : α → Value → Prop} {default x : α}
    {field : Option Value} (h : Undoes read writtenAs)
    (hfield : OptionalWrittenAs writtenAs default x field) :
    optional? read default field = some x := by
  cases hfield with
  | given hvalue => exact h hvalue
  | leftOut hdefault => exact congrArg some hdefault.symm

theorem namedMembers?_of_forall₂ {named : List (String × Value)}
    {members : List (CodePoints × Value)} (h : List.Forall₂ MemberWrittenAs named members) :
    namedMembers? members = some named := by
  refine mapM_eq_some_of_forall₂ (h.flip.imp ?_)
  rintro ⟨content, value⟩ ⟨name, _⟩ ⟨hname, rfl⟩
  simp only [textOf?_of_textWrittenAs hname, Option.map_some]

theorem filter_givenMembers (fields : List (String × Option Value)) (name : String) :
    (givenMembers fields).filter (fun member => member.1 = name) =
      givenMembers (fields.filter fun field => field.1 = name) := by
  rw [givenMembers, List.filter_filterMap, givenMembers, List.filterMap_filter]
  refine List.filterMap_congr fun field _ => ?_
  cases hfield : field.2 with
  | none => simp
  | some value => simp [Option.filter_some]

/-- With names that differ, the fields of one name are one field. -/
theorem filter_name_eq_singleton {fields : List (String × Option Value)} {name : String}
    {field : Option Value} (hnodup : (fields.map Prod.fst).Nodup)
    (hfield : (name, field) ∈ fields) :
    fields.filter (fun field => field.1 = name) = [(name, field)] := by
  have hfields : (fields.filter fun field => field.1 = name).Nodup := (hnodup.of_map _).filter _
  refine List.perm_singleton.mp ((List.perm_ext_iff_of_nodup hfields (List.nodup_singleton _)).mpr
    fun other => ?_)
  rw [List.mem_filter, List.mem_singleton, decide_eq_true_eq]
  constructor
  · rintro ⟨hother, hname⟩
    exact List.inj_on_of_nodup_map hnodup hother hfield hname
  · rintro rfl
    exact ⟨hfield, rfl⟩

theorem field?_eq_some {fields : List (String × Option Value)}
    {named unknown : List (String × Value)} {name : String} {field : Option Value}
    (hnodup : (fields.map Prod.fst).Nodup) (hnamed : named.Perm (givenMembers fields ++ unknown))
    (hunknown : ∀ member ∈ unknown, member.1 ∉ fields.map Prod.fst)
    (hfield : (name, field) ∈ fields) : field? named name = some field := by
  have hother : unknown.filter (fun member => member.1 = name) = [] := by
    refine List.filter_eq_nil_iff.mpr fun member hmember hname => hunknown member hmember ?_
    rw [of_decide_eq_true hname]
    exact List.mem_map_of_mem hfield
  have hperm := hnamed.filter fun member => member.1 = name
  rw [List.filter_append, filter_givenMembers, filter_name_eq_singleton hnodup hfield, hother,
    List.append_nil] at hperm
  rw [field?]
  cases field with
  | none => rw [List.perm_nil.mp hperm]
  | some value => rw [List.perm_singleton.mp hperm]

/-- The fields of a record are found, whatever stands around them. -/
theorem fields?_of_recordWrittenAs {fields : List (String × Option Value)} {value : Value}
    (hnodup : (fields.map Prod.fst).Nodup) (h : RecordWrittenAs fields value) :
    fields? (fields.map Prod.fst) value = some (fields.map Prod.snd) := by
  obtain @⟨named, unknown, members, hmembers, hnamed, hunknown⟩ := h
  have hfields : (fields.map Prod.fst).mapM (field? named) = some (fields.map Prod.snd) := by
    refine mapM_eq_some_of_forall₂ ?_
    rw [List.forall₂_map_left_iff, List.forall₂_map_right_iff, List.forall₂_same]
    exact fun field hfield => field?_eq_some hnodup hnamed hunknown hfield
  rw [fields?, namedMembers?_of_forall₂ hmembers]
  exact hfields

end Json
end CompilerTables
