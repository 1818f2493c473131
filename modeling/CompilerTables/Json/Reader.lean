import CompilerTables.Json.Value

/-!
# Reading JSON

The reader takes a text one character at a time.  Between two characters it is in a `Reader` state:
what it is in the middle of, and the containers that are still open around that, innermost first.
The open containers are a list and not calls that wait for an answer, so nothing limits how deeply
values may be nested.

`Reader.step` is the whole grammar (RFC 8259): a character either leads to the next state or makes
the text no JSON.  Reading a text is `List.foldlM Reader.step`, so reading two texts in a row is
reading the one and going on with the other.

## Where a number ends

Every other value ends with a character of its own, but a number ends at the first character that
cannot belong to it, or at the end of the text.  A state inside a number therefore knows whether the
literal so far is complete, and if so it takes a foreign character the way the state after the value
would.
-/

namespace CompilerTables
namespace Json

/-- The characters that may stand between tokens. -/
def isBlank (c : Char) : Bool :=
  c = ' ' || c = '\n' || c = '\t' || c = '\r'

/-! ## Strings -/

/-- Inside a string: between characters, after a backslash, or in the digits of a numbered
escape, with so many digits still to come and the value of those so far. -/
inductive StringPhase where
  | plain
  | escape
  | hex (missing : Nat) (value : Nat)
  deriving DecidableEq

/-- A string being read: the phase and the code points so far, the latest first. -/
structure StringReader where
  phase : StringPhase
  content : CodePoints
  deriving DecidableEq

/-- After a character of a string: the string goes on, or it is closed with this content. -/
inductive StringStep where
  | more (reader : StringReader)
  | closed (content : CodePoints)

/-- The code point of an escape with one letter. -/
def shortEscape? (c : Char) : Option Nat :=
  match c with
  | '"' => some 0x22
  | '\\' => some 0x5c
  | '/' => some 0x2f
  | 'b' => some 0x08
  | 'f' => some 0x0c
  | 'n' => some 0x0a
  | 'r' => some 0x0d
  | 't' => some 0x09
  | _ => none

/-- The value of a hexadecimal digit of either case. -/
def hexDigit? (c : Char) : Option Nat :=
  if '0' ≤ c ∧ c ≤ '9' then some (c.toNat - '0'.toNat)
  else if 'a' ≤ c ∧ c ≤ 'f' then some (c.toNat - 'a'.toNat + 10)
  else if 'A' ≤ c ∧ c ≤ 'F' then some (c.toNat - 'A'.toNat + 10)
  else none

namespace StringReader

/-- A string right after its opening quote. -/
def start : StringReader := ⟨.plain, []⟩

/-- Takes one character of a string. -/
def step (r : StringReader) (c : Char) : Option StringStep :=
  match r.phase with
  | .plain =>
      if c = '"' then some (.closed r.content.reverse)
      else if c = '\\' then some (.more ⟨.escape, r.content⟩)
      else if c.toNat < 0x20 then none
      else some (.more ⟨.plain, c.toNat :: r.content⟩)
  | .escape =>
      if c = 'u' then some (.more ⟨.hex 4 0, r.content⟩)
      else (shortEscape? c).map fun point => .more ⟨.plain, point :: r.content⟩
  | .hex missing value =>
      (hexDigit? c).map fun digit =>
        let value := 16 * value + digit
        if missing ≤ 1 then .more ⟨.plain, value :: r.content⟩
        else .more ⟨.hex (missing - 1) value, r.content⟩

end StringReader

/-! ## Numbers -/

/-- What of a number has been read: its sign, a leading zero, digits, the point, digits after the
point, the mark of the exponent, its sign, or its digits. -/
inductive NumberPhase where
  | minus
  | zero
  | digits
  | point
  | fraction
  | exponent
  | exponentSign
  | exponentDigits
  deriving DecidableEq

namespace NumberPhase

/-- The phase that a number begins with. -/
def start? (c : Char) : Option NumberPhase :=
  if c = '-' then some minus
  else if c = '0' then some zero
  else if c.isDigit then some digits
  else none

/-- The phase after the point or the exponent's mark, where a number may have either. -/
def pointOrExponent? (c : Char) : Option NumberPhase :=
  if c = '.' then some point
  else if c = 'e' || c = 'E' then some exponent
  else none

/-- The phase after one more character of the number. -/
def step : NumberPhase → Char → Option NumberPhase
  | minus, c => if c = '0' then some zero else if c.isDigit then some digits else none
  | zero, c => pointOrExponent? c
  | digits, c => if c.isDigit then some digits else pointOrExponent? c
  | point, c => if c.isDigit then some fraction else none
  | fraction, c =>
      if c.isDigit then some fraction
      else if c = 'e' || c = 'E' then some exponent
      else none
  | exponent, c =>
      if c = '+' || c = '-' then some exponentSign
      else if c.isDigit then some exponentDigits
      else none
  | exponentSign, c => if c.isDigit then some exponentDigits else none
  | exponentDigits, c => if c.isDigit then some exponentDigits else none

/-- A number may end here. -/
def isComplete : NumberPhase → Bool
  | zero | digits | fraction | exponentDigits => true
  | minus | point | exponent | exponentSign => false

end NumberPhase

/-! ## The states between characters -/

/-- An open container, with what it holds before the value being read, the latest first. -/
inductive Frame where
  | array (before : List Value)
  | object (before : List (CodePoints × Value)) (name : CodePoints)

/-- What a reader is in the middle of. -/
inductive Mode where
  /-- A value has to begin. -/
  | value
  /-- An array was opened: a value may begin or the array may end. -/
  | firstElement
  /-- An object was opened: a name may begin or the object may end. -/
  | firstName
  /-- A name has to begin, after these members of the object. -/
  | name (before : List (CodePoints × Value))
  /-- Inside a name, after these members of the object. -/
  | nameText (before : List (CodePoints × Value)) (reader : StringReader)
  /-- The colon after a name has to follow. -/
  | colon (before : List (CodePoints × Value)) (name : CodePoints)
  /-- Inside a word that stands for a value, with these letters still to come. -/
  | word (rest : List Char) (meaning : Value)
  /-- Inside a number, with the literal so far, the latest character first. -/
  | number (phase : NumberPhase) (literal : List Char)
  /-- Inside a string. -/
  | text (reader : StringReader)
  /-- A value has ended. -/
  | done (value : Value)

/-- A reader between two characters: what it is in the middle of, and the open containers. -/
structure Reader where
  mode : Mode
  frames : List Frame

namespace Reader

/-- Before the first character. -/
def start : Reader := ⟨.value, []⟩

/-- Takes the first character of a value. -/
def beginValue (frames : List Frame) (c : Char) : Option Reader :=
  match c with
  | '"' => some ⟨.text .start, frames⟩
  | '[' => some ⟨.firstElement, .array [] :: frames⟩
  | '{' => some ⟨.firstName, frames⟩
  | 't' => some ⟨.word ['r', 'u', 'e'] (.bool true), frames⟩
  | 'f' => some ⟨.word ['a', 'l', 's', 'e'] (.bool false), frames⟩
  | 'n' => some ⟨.word ['u', 'l', 'l'] .null, frames⟩
  | c => (NumberPhase.start? c).map fun phase => ⟨.number phase [c], frames⟩

/-- Takes a character after a value has ended, other than a blank. -/
def afterValue (value : Value) (frames : List Frame) (c : Char) : Option Reader :=
  match frames with
  | [] => none
  | .array before :: outer =>
      if c = ',' then some ⟨.value, .array (value :: before) :: outer⟩
      else if c = ']' then some ⟨.done (.array (value :: before).reverse), outer⟩
      else none
  | .object before name :: outer =>
      if c = ',' then some ⟨.name ((name, value) :: before), outer⟩
      else if c = '}' then some ⟨.done (.object ((name, value) :: before).reverse), outer⟩
      else none

/-- Takes any character after a value has ended. -/
def endValue (value : Value) (frames : List Frame) (c : Char) : Option Reader :=
  if isBlank c then some ⟨.done value, frames⟩ else afterValue value frames c

/-- Takes one character. -/
def step (r : Reader) (c : Char) : Option Reader :=
  match r.mode with
  | .value => if isBlank c then some r else beginValue r.frames c
  | .firstElement =>
      if isBlank c then some r
      else if c = ']' then some ⟨.done (.array []), r.frames.tail⟩
      else beginValue r.frames c
  | .firstName =>
      if isBlank c then some r
      else if c = '}' then some ⟨.done (.object []), r.frames⟩
      else if c = '"' then some ⟨.nameText [] .start, r.frames⟩
      else none
  | .name before =>
      if isBlank c then some r
      else if c = '"' then some ⟨.nameText before .start, r.frames⟩
      else none
  | .nameText before reader =>
      (reader.step c).map fun
        | .more reader => ⟨.nameText before reader, r.frames⟩
        | .closed name => ⟨.colon before name, r.frames⟩
  | .colon before name =>
      if isBlank c then some r
      else if c = ':' then some ⟨.value, .object before name :: r.frames⟩
      else none
  | .word rest meaning =>
      match rest with
      | [] => none
      | [letter] => if c = letter then some ⟨.done meaning, r.frames⟩ else none
      | letter :: rest => if c = letter then some ⟨.word rest meaning, r.frames⟩ else none
  | .number phase literal =>
      match phase.step c with
      | some phase => some ⟨.number phase (c :: literal), r.frames⟩
      | none =>
          if phase.isComplete then endValue (.number literal.reverse) r.frames c else none
  | .text reader =>
      (reader.step c).map fun
        | .more reader => ⟨.text reader, r.frames⟩
        | .closed content => ⟨.done (.string content), r.frames⟩
  | .done value => endValue value r.frames c

/-- The value that has been read when the text ends here, if it may. -/
def finish? (r : Reader) : Option Value :=
  match r.frames with
  | _ :: _ => none
  | [] => match r.mode with
    | .done value => some value
    | .number phase literal =>
        if phase.isComplete then some (.number literal.reverse) else none
    | _ => none

end Reader

/-- The value that a text stands for; a text that is not exactly one JSON value stands for none. -/
def read? (text : String) : Option Value :=
  (text.toList.foldlM Reader.step Reader.start).bind Reader.finish?

end Json
end CompilerTables
