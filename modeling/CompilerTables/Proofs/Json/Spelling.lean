import CompilerTables.Json.Value

/-!
# How JSON values are spelled

A value has many texts: blanks may stand around every token, a character of a string may be plain
or escaped, and an escape may have several forms.  This file says which texts spell a value, rule by
rule of the grammar (RFC 8259), and mentions no reader.

## What a text leaves open, and what it does not

A number is spelled by its literal and a string by its code points, so the relation never has to
say what a number or a string means.  Elements and members are spelled in their order, repetitions
included.  Within those limits a rule asks for nothing more than the grammar does: half of a
surrogate pair may be escaped on its own, and a name may occur twice in an object.
-/

namespace CompilerTables
namespace Json

/-- Characters that may stand between tokens. -/
def Blanks (text : List Char) : Prop := ∀ c ∈ text, c ∈ [' ', '\n', '\t', '\r']

instance (text : List Char) : Decidable (Blanks text) :=
  List.decidableBAll (fun c => c ∈ [' ', '\n', '\t', '\r']) text

/-! ## Strings -/

/-- The letters of the short escapes, each with the code point that it stands for. -/
def shortEscapes : List (Char × Nat) :=
  [('"', 0x22), ('\\', 0x5c), ('/', 0x2f), ('b', 0x08), ('f', 0x0c), ('n', 0x0a), ('r', 0x0d),
    ('t', 0x09)]

/-- The hexadecimal digits by their values, with small letters. -/
def smallHexDigits : List Char :=
  ['0', '1', '2', '3', '4', '5', '6', '7', '8', '9', 'a', 'b', 'c', 'd', 'e', 'f']

/-- The hexadecimal digits by their values, with capital letters. -/
def capitalHexDigits : List Char :=
  ['0', '1', '2', '3', '4', '5', '6', '7', '8', '9', 'A', 'B', 'C', 'D', 'E', 'F']

/-- A hexadecimal digit with its value, in either case. -/
def IsHexDigit (c : Char) (value : Nat) : Prop :=
  smallHexDigits[value]? = some c ∨ capitalHexDigits[value]? = some c

/-- One code point of a string: plain, or escaped by a letter or by four digits. -/
inductive SpellsPoint : Nat → List Char → Prop
  | plain {c : Char} (hquote : c ≠ '"') (hbackslash : c ≠ '\\') (hcontrol : 0x20 ≤ c.toNat) :
      SpellsPoint c.toNat [c]
  | letter {c : Char} {point : Nat} (hletter : (c, point) ∈ shortEscapes) :
      SpellsPoint point ['\\', c]
  | digits {c₁ c₂ c₃ c₄ : Char} {d₁ d₂ d₃ d₄ : Nat} (h₁ : IsHexDigit c₁ d₁)
      (h₂ : IsHexDigit c₂ d₂) (h₃ : IsHexDigit c₃ d₃) (h₄ : IsHexDigit c₄ d₄) :
      SpellsPoint (0x1000 * d₁ + 0x100 * d₂ + 0x10 * d₃ + d₄) ['\\', 'u', c₁, c₂, c₃, c₄]

/-- The code points of a string, one after the other. -/
inductive SpellsPoints : CodePoints → List Char → Prop
  | nil : SpellsPoints [] []
  | cons {point : Nat} {content : CodePoints} {text more : List Char}
      (hpoint : SpellsPoint point text) (hrest : SpellsPoints content more) :
      SpellsPoints (point :: content) (text ++ more)

/-- A string in its quotes. -/
inductive SpellsString : CodePoints → List Char → Prop
  | quoted {content : CodePoints} {text : List Char} (hcontent : SpellsPoints content text) :
      SpellsString content ('"' :: (text ++ ['"']))

/-- The character needs no escape. -/
def IsPlain (c : Char) : Prop := c ≠ '"' ∧ c ≠ '\\' ∧ 0x20 ≤ c.toNat
  deriving Decidable

/-- Characters that need no escape spell their own code points. -/
theorem spellsPoints_of_isPlain {chars : List Char} (hplain : ∀ c ∈ chars, IsPlain c) :
    SpellsPoints (chars.map Char.toNat) chars := by
  induction chars with
  | nil => exact .nil
  | cons c rest ih =>
    obtain ⟨hquote, hbackslash, hcontrol⟩ := hplain c List.mem_cons_self
    exact .cons (.plain hquote hbackslash hcontrol)
      (ih fun c hc => hplain c (List.mem_cons_of_mem _ hc))

/-! ## Numbers -/

/-- One digit or more. -/
def IsDigits (text : List Char) : Prop := text ≠ [] ∧ ∀ c ∈ text, c.isDigit

instance (text : List Char) : Decidable (IsDigits text) :=
  have := List.decidableBAll (fun c : Char => c.isDigit = true) text
  instDecidableAnd

/-- The digits before the point; only the number zero begins with a zero. -/
inductive IsWhole : List Char → Prop
  | zero : IsWhole ['0']
  | digits {c : Char} {rest : List Char} (hfirst : c.isDigit) (hzero : c ≠ '0')
      (hrest : ∀ c ∈ rest, c.isDigit) : IsWhole (c :: rest)

/-- The point with digits after it, or nothing. -/
inductive IsFraction : List Char → Prop
  | none : IsFraction []
  | point {digits : List Char} (hdigits : IsDigits digits) : IsFraction ('.' :: digits)

/-- An exponent, which may have a sign, or nothing. -/
inductive IsExponent : List Char → Prop
  | none : IsExponent []
  | mark {c : Char} {sign digits : List Char} (hmark : c ∈ ['e', 'E'])
      (hsign : sign ∈ [[], ['+'], ['-']]) (hdigits : IsDigits digits) :
      IsExponent (c :: (sign ++ digits))

/-- The literal of a number. -/
inductive IsNumber : List Char → Prop
  | parts {sign whole fraction exponent : List Char} (hsign : sign ∈ [[], ['-']])
      (hwhole : IsWhole whole) (hfraction : IsFraction fraction)
      (hexponent : IsExponent exponent) :
      IsNumber (sign ++ (whole ++ (fraction ++ exponent)))

/-! ## Values -/

mutual

/-- A value, from its first character to its last. -/
inductive Spells : Value → List Char → Prop
  | null : Spells .null ['n', 'u', 'l', 'l']
  | true : Spells (.bool true) ['t', 'r', 'u', 'e']
  | false : Spells (.bool false) ['f', 'a', 'l', 's', 'e']
  | number {literal : List Char} (hliteral : IsNumber literal) : Spells (.number literal) literal
  | string {content : CodePoints} {text : List Char} (hcontent : SpellsString content text) :
      Spells (.string content) text
  | emptyArray {blanks : List Char} (hblanks : Blanks blanks) :
      Spells (.array []) ('[' :: (blanks ++ [']']))
  | array {elements : List Value} {text : List Char} (helements : SpellsElements elements text) :
      Spells (.array elements) ('[' :: (text ++ [']']))
  | emptyObject {blanks : List Char} (hblanks : Blanks blanks) :
      Spells (.object []) ('{' :: (blanks ++ ['}']))
  | object {members : List (CodePoints × Value)} {text : List Char}
      (hmembers : SpellsMembers members text) :
      Spells (.object members) ('{' :: (text ++ ['}']))

/-- A value with blanks around it. -/
inductive SpellsAmid : Value → List Char → Prop
  | blanks {value : Value} {before text after : List Char} (hbefore : Blanks before)
      (hvalue : Spells value text) (hafter : Blanks after) :
      SpellsAmid value (before ++ (text ++ after))

/-- The elements of an array, one or more, with commas between them. -/
inductive SpellsElements : List Value → List Char → Prop
  | last {value : Value} {text : List Char} (hvalue : SpellsAmid value text) :
      SpellsElements [value] text
  | cons {value : Value} {values : List Value} {text more : List Char}
      (hvalue : SpellsAmid value text) (hrest : SpellsElements values more) :
      SpellsElements (value :: values) (text ++ ',' :: more)

/-- The name of a member and its value, with a colon between them. -/
inductive SpellsMember : CodePoints × Value → List Char → Prop
  | colon {name : CodePoints} {value : Value} {before quoted after text : List Char}
      (hbefore : Blanks before) (hname : SpellsString name quoted) (hafter : Blanks after)
      (hvalue : SpellsAmid value text) :
      SpellsMember (name, value) (before ++ (quoted ++ (after ++ ':' :: text)))

/-- The members of an object, one or more, with commas between them. -/
inductive SpellsMembers : List (CodePoints × Value) → List Char → Prop
  | last {member : CodePoints × Value} {text : List Char} (hmember : SpellsMember member text) :
      SpellsMembers [member] text
  | cons {member : CodePoints × Value} {members : List (CodePoints × Value)}
      {text more : List Char} (hmember : SpellsMember member text)
      (hrest : SpellsMembers members more) :
      SpellsMembers (member :: members) (text ++ ',' :: more)

end

end Json
end CompilerTables
