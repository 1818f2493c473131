import CompilerTables.Text.Glyph

/-!
# Quoted text

Text between quotes, made readable on one line.  A quote and a backslash get a backslash before
them, the usual controls have their short forms, a character without a glyph of its own is written
by its number, and every other character stands for itself.
-/

namespace CompilerTables
namespace Text

/-- The number of a character in lower-case hexadecimal, in braces. -/
def escapedNumber (c : Char) : List Char :=
  "\\u\x7b".toList ++ Nat.toDigits 16 c.toNat ++ ['\x7d']

/-- A character as it is written between quotes. -/
def quoteChar (c : Char) : List Char :=
  match c with
  | '\x00' => ['\\', '0']
  | '\t' => ['\\', 't']
  | '\r' => ['\\', 'r']
  | '\n' => ['\\', 'n']
  | '\\' => ['\\', '\\']
  | '"' => ['\\', '"']
  | c => if hasGlyph c then [c] else escapedNumber c

/-- A text between quotes. -/
def quote (s : String) : String :=
  String.ofList ('"' :: s.toList.flatMap quoteChar ++ ['"'])

end Text
end CompilerTables
