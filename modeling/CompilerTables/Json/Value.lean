/-!
# JSON values

A value as its text gives it, with nothing lost that a reader of records could want to know: numbers
keep their literals, objects keep the order and the repetitions of their members, and strings are
sequences of code points.

A string is not yet text.  An escape may name half of a surrogate pair, and two such escapes in a
row name one character.  `textOf?` joins the pairs, and finds no text in a string with half a pair
left.
-/

namespace CompilerTables
namespace Json

/-- The content of a string: each plain character and each escape gives one code point. -/
abbrev CodePoints := List Nat

/-- A JSON value. -/
inductive Value where
  | null
  | bool (value : Bool)
  | number (literal : List Char)
  | string (content : CodePoints)
  | array (elements : List Value)
  | object (members : List (CodePoints × Value))

/-- The first half of a surrogate pair. -/
def isHighSurrogate (point : Nat) : Bool := 0xd800 ≤ point && point < 0xdc00

/-- The second half of a surrogate pair. -/
def isLowSurrogate (point : Nat) : Bool := 0xdc00 ≤ point && point < 0xe000

/-- The code point that two halves stand for. -/
def joinSurrogates (high low : Nat) : Nat :=
  0x10000 + (high - 0xd800) * 0x400 + (low - 0xdc00)

/-- Characters read off a string, the latest first, and the first half of a surrogate pair if it
still waits for the second. -/
structure PairJoiner where
  waiting : Option Nat
  chars : List Char

/-- Takes the next code point of a string; half a pair that stands alone is refused. -/
def PairJoiner.step (j : PairJoiner) (point : Nat) : Option PairJoiner :=
  match j.waiting with
  | some high =>
      if isLowSurrogate point then some ⟨none, Char.ofNat (joinSurrogates high point) :: j.chars⟩
      else none
  | none =>
      if isHighSurrogate point then some ⟨some point, j.chars⟩
      else if isLowSurrogate point then none
      else some ⟨none, Char.ofNat point :: j.chars⟩

/-- The characters of a string, if no half of a surrogate pair stands alone. -/
def charsOf? (content : CodePoints) : Option (List Char) :=
  match content.foldlM PairJoiner.step ⟨none, []⟩ with
  | some ⟨none, chars⟩ => some chars.reverse
  | _ => none

/-- The text of a string, if it has one. -/
def textOf? (content : CodePoints) : Option String :=
  (charsOf? content).map String.ofList

/-- The number that a literal of plain digits stands for: no sign, fraction or exponent. -/
def naturalOf? (literal : List Char) : Option Nat :=
  if literal.all Char.isDigit then
    some (literal.foldl (fun n c => 10 * n + (c.toNat - '0'.toNat)) 0)
  else none

end Json
end CompilerTables
