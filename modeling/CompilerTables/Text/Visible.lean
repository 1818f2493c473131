/-!
# The visible part of a text

A text may hold controls that a terminal obeys and does not show: single control characters, and
sequences that an escape character begins.  What is left of the text without them is its visible
part.  This is what belongs in a message that goes to a file, and in one that quotes a text of
foreign origin.

There are four kinds of sequence.  An escape sequence ends with its first character that is no
intermediate.  A control sequence (`ESC [`) takes parameters and intermediates and ends with a final
character.  A control string (`ESC P`, after a header, and `ESC X`, `ESC ^`, `ESC _`) ends with the
byte `9C`, and an operating system command (`ESC ]`) with a bell.  Another escape character, a
cancel or a substitute breaks off whatever has begun.

Tabs and line breaks are controls that do show.  Within an escape sequence or a control sequence
they take effect at once and interrupt it: the text from there on shows up to the next character
that does not, and only then is the sequence taken up again.
-/

namespace CompilerTables
namespace Text

/-! ## Characters -/

/-- A tab, a line feed, a form feed or a carriage return. -/
def isBreak (c : Char) : Bool :=
  c = '\t' || c = '\n' || c = '\x0c' || c = '\r'

/-- Whether a character shows outside of all sequences. -/
def isVisible (c : Char) : Bool :=
  isBreak c || (' ' ≤ c && c ≠ '\x7f')

/-- A character that may stand before the end of a sequence and after its parameters. -/
def isIntermediate (c : Char) : Bool := ' ' ≤ c && c ≤ '/'

/-- A digit or mark of which the parameters of a sequence are made. -/
def isParameter (c : Char) : Bool := '0' ≤ c && c ≤ '?'

/-- A character that ends a control sequence. -/
def isFinal (c : Char) : Bool := '@' ≤ c && c ≤ '~'

/-- The byte that ends a control string stands in the encoding of this character. -/
def holdsTerminator (c : Char) : Bool := (String.utf8EncodeChar c).contains 0x9c

/-! ## Sequences -/

/-- A sequence of which a part has been read. -/
inductive ControlPart where
  /-- An escape character. -/
  | escape
  /-- An escape sequence up to an intermediate. -/
  | escapeIntermediate
  /-- A control sequence. -/
  | sequence
  /-- The start of a device control string. -/
  | deviceStart
  /-- The header of a device control string up to a parameter. -/
  | deviceParameter
  /-- The header of a device control string up to an intermediate. -/
  | deviceIntermediate
  /-- A control string. -/
  | string
  /-- An operating system command. -/
  | command
  deriving DecidableEq

namespace ControlPart

/-- The sequence with one more character, or none where the character ends it.  A character that
has no place in it changes nothing. -/
def next? : ControlPart → Char → Option ControlPart
  | escape, c => match c with
    | '[' => some sequence
    | ']' => some command
    | 'P' => some deviceStart
    | 'X' | '^' | '_' => some string
    | _ =>
        if isIntermediate c then some escapeIntermediate
        else if isParameter c || isFinal c then none
        else some escape
  | escapeIntermediate, c =>
      if isParameter c || isFinal c then none else some escapeIntermediate
  | sequence, c => if isFinal c then none else some sequence
  | deviceStart, c =>
      if isIntermediate c then some deviceIntermediate
      else if isParameter c then some deviceParameter
      else if isFinal c then some string
      else some deviceStart
  | deviceParameter, c =>
      if isIntermediate c then some deviceIntermediate
      else if '<' ≤ c && c ≤ '~' then some string
      else some deviceParameter
  | deviceIntermediate, c =>
      if isParameter c || isFinal c then some string else some deviceIntermediate
  | string, c => if holdsTerminator c then none else some string
  | command, c => if c = '\x07' then none else some command

/-- Whether a tab or a line break interrupts the sequence; a string takes it as a part. -/
def isInterruptible : ControlPart → Bool
  | escape | escapeIntermediate | sequence => true
  | deviceStart | deviceParameter | deviceIntermediate | string | command => false

end ControlPart

/-! ## Reading a text -/

/-- Where a reader of a text stands. -/
inductive TextPosition where
  /-- Outside of all sequences. -/
  | outside
  /-- Within a sequence. -/
  | within (part : ControlPart)
  /-- In the text that interrupts a sequence. -/
  | interrupting (part : ControlPart)
  deriving DecidableEq

namespace TextPosition

/-- Whether a character shows at a position. -/
def shows : TextPosition → Char → Bool
  | outside, c | interrupting _, c => isVisible c
  | within part, c => part.isInterruptible && isBreak c

/-- The position after a character.  In the text that interrupts a sequence a character beyond
ASCII ends the sequence for good. -/
def after (position : TextPosition) (c : Char) : TextPosition :=
  if c = '\x1b' then within .escape
  else if c = '\x18' || c = '\x1a' then outside
  else match position with
    | outside => outside
    | within part =>
        if position.shows c then interrupting part
        else match part.next? c with
          | some part => within part
          | none => outside
    | interrupting part =>
        if '\x7f' < c then outside
        else if isVisible c then interrupting part
        else within part

/-- The part of a text that shows, read from a position. -/
def visible : TextPosition → List Char → List Char
  | _, [] => []
  | position, c :: rest =>
      if position.shows c then c :: (position.after c).visible rest
      else (position.after c).visible rest

end TextPosition

/-- The visible part of a text. -/
def visible (s : List Char) : List Char := TextPosition.outside.visible s

/-! ## Lines -/

/-- The first line of a text, up to the first line feed.  A carriage return ends no line. -/
def firstLine (s : List Char) : List Char := s.takeWhile (· ≠ '\n')

end Text
end CompilerTables
