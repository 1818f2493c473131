import CompilerTables.Scoping.SymbolTable
import CompilerTables.Text.Quoted

/-!
# Dumping a symbol table

The whole state of a symbol table on one line, for the eyes of whoever maintains a compiler: every
record with its name and fields, and the hooks hinted at by two dots.
-/

namespace CompilerTables
namespace Scoping
namespace Dump

/-- A value that may be absent. -/
def option {α : Type} (text : α → String) : Option α → String
  | some x => s!"Some({text x})"
  | none => "None"

/-- Parts between a pair of brackets, separated by commas. -/
def bracketed (opening closing : String) (parts : List String) : String :=
  opening ++ ", ".intercalate parts ++ closing

/-- A record with its name and its fields. -/
def record (name : String) (fields : List (String × String)) : String :=
  bracketed (name ++ " \x7b ") " \x7d" (fields.map fun (field, value) => s!"{field}: {value}")

/-- The number of a scope. -/
def scopeNumber (id : Nat) : String := s!"ScopeId({id})"

/-- An entry with all its fields. -/
def entry (e : Entry) : String :=
  record "SymbolTableItem" [
    ("name", Text.quote e.name),
    ("kind", e.kind.name),
    ("address", option (fun address => toString address.toNat) e.address),
    ("underlying_type", option Text.quote e.typeName),
    ("size", toString e.size.toNat),
    ("array_len", toString e.length.toNat),
    ("line", toString e.line.toNat),
    ("column", toString e.column.toNat)]

/-- A scope with its entries in ascending order of their names. -/
def scope (s : Scope) : String :=
  let entries := s.entries.toList.map fun (name, e) => s!"{Text.quote name}: {entry e}"
  record "Scope" [
    ("id", scopeNumber s.id),
    ("level", toString s.level),
    ("parent", option scopeNumber s.parent),
    ("items", bracketed "\x7b" "\x7d" entries)]

end Dump

/-- The state of a symbol table on one line. -/
def SymbolTable.dump (t : SymbolTable) : String :=
  Dump.bracketed "SymbolTable \x7b " ", .. \x7d" [
    "scopes: " ++ Dump.bracketed "[" "]" (t.scopes.toList.map Dump.scope),
    "current: " ++ Dump.option Dump.scopeNumber t.current,
    s!"word_size: {t.wordSize.toNat}",
    s!"data_addr: {t.dataAddress.toNat}",
    s!"constant_addr: {t.constantAddress.toNat}"]

end Scoping
end CompilerTables
