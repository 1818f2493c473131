import CompilerTables.Json.Value

/-!
# Records in JSON

A record with named fields is written as an object whose members are its fields, in any order.  A
member with another name is ignored, but a field may not be given twice, and every name has to be
text.  A record may also be written as an array of its fields in their fixed order, where fields at
the end may be missing.

`fields?` finds the value of each field, if it is given; what a missing field means is left to the
reader of the record.
-/

namespace CompilerTables
namespace Json

/-- The member names as text, if all of them are text. -/
def namedMembers? (members : List (CodePoints × Value)) : Option (List (String × Value)) :=
  members.mapM fun (name, value) => (textOf? name).map fun name => (name, value)

/-- The value of a field, which may be missing but not be given twice. -/
def field? (members : List (String × Value)) (name : String) : Option (Option Value) :=
  match members.filter fun member => member.1 = name with
  | [] => some none
  | [member] => some (some member.2)
  | _ => none

/-- The value of each named field of a record; a value of another shape is no such record. -/
def fields? (names : List String) : Value → Option (List (Option Value))
  | .object members => do
      let members ← namedMembers? members
      names.mapM (field? members)
  | .array elements =>
      if elements.length ≤ names.length then
        some ((List.range names.length).map fun k => elements[k]?)
      else none
  | _ => none

/-- The text of a string value. -/
def string? : Value → Option String
  | .string content => textOf? content
  | _ => none

/-- The number of a literal below `2 ^ 64`. -/
def natural? : Value → Option Nat
  | .number literal => (naturalOf? literal).filter (· < 0x10000000000000000)
  | _ => none

/-- The elements of an array, each read in the same way. -/
def list? {α : Type} (read : Value → Option α) : Value → Option (List α)
  | .array elements => elements.mapM read
  | _ => none

/-- A required field, read in some way. -/
def required? {α : Type} (read : Value → Option α) (field : Option Value) : Option α :=
  field.bind read

/-- A field that may be missing, in which case it has a default. -/
def optional? {α : Type} (read : Value → Option α) (default : α) : Option Value → Option α
  | some value => read value
  | none => some default

end Json
end CompilerTables
