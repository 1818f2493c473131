import CompilerTables.Scoping.Word

/-!
# Entries of the symbol table

An entry is a declared name with what a compiler knows about it.  Scalars and arrays take up data
space; constants and entries of unknown kind do not.
-/

namespace CompilerTables
namespace Scoping

/-- The kinds of declared names. -/
inductive EntryKind where
  | scalar
  | array
  | constant
  | unknown
  deriving DecidableEq

/-- The name of a kind; a scalar is called a variable. -/
def EntryKind.name : EntryKind → String
  | scalar => "Variable"
  | array => "Array"
  | constant => "Constant"
  | unknown => "Unknown"

/-- A declared name: its kind, address and type, the bytes of one element, the number of elements,
and where it was declared.  The address is filled in by the table. -/
structure Entry where
  name : String
  kind : EntryKind
  address : Option Address
  typeName : Option String
  size : UInt32
  length : UInt32
  line : UInt32
  column : UInt32
  deriving DecidableEq

namespace Entry

/-- A scalar of so many bytes. -/
def scalar (name : String) (size : UInt32) : Entry where
  name
  kind := .scalar
  address := none
  typeName := none
  size
  length := 1
  line := 0
  column := 0

/-- An array of so many elements of so many bytes each. -/
def array (name : String) (size length : UInt32) : Entry :=
  { scalar name size with kind := .array, length }

/-- A constant of so many bytes. -/
def constant (name : String) (size : UInt32) : Entry :=
  { scalar name size with kind := .constant }

/-- The bytes that an entry takes up in data space, if it lies there at all. -/
def footprint? (e : Entry) : Option UInt64 :=
  match e.kind with
  | .scalar => some e.size.toUInt64
  | .array => some (e.size.toUInt64 * e.length.toUInt64)
  | .constant => none
  | .unknown => none

/-- An entry must have a size, and an array must have elements. -/
def HasValidSize (e : Entry) : Prop :=
  e.size ≠ 0 ∧ (e.kind = .array → e.length ≠ 0)

instance (e : Entry) : Decidable e.HasValidSize :=
  inferInstanceAs (Decidable (_ ∧ _))

end Entry
end Scoping
end CompilerTables
