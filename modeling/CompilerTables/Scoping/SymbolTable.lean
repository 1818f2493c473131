import Std.Data.ExtTreeMap
import CompilerTables.Scoping.Entry

/-!
# The scoped symbol table

Scopes are never discarded.  The table keeps every scope that was ever opened, in the order in which
they were opened, and a scope's number is its place in that history.  What is visible is decided by
the current scope alone: a name is searched for there, then in the scope's parent, and so on up to a
root.  A parent is opened before its children, so its number is smaller than theirs and the search
ends.

## Addresses

One counter hands out data space in whole words, to declared names and to temporaries alike, and
only ever grows, so no two of them overlap, even when one of them belongs to a closed scope.  A
request that does not fit below `2 ^ 32` is refused and changes nothing.
-/

namespace CompilerTables
namespace Scoping

/-- A lexical scope: its number, how deeply it is nested, the scope around it, and its entries. -/
structure Scope where
  id : Nat
  level : Nat
  parent : Option Nat
  entries : Std.ExtTreeMap String Entry
  deriving DecidableEq

/-- Why the symbol table refuses a request. -/
inductive ScopingError where
  | noOpenScope
  | duplicateDeclaration (name : String)
  | invalidSize (name : String)
  | unresolvedName (name : String)
  | addressOverflow (bytes : UInt64)
  | invalidWordSize
  | hookFailed (message : String)
  deriving DecidableEq

/-- The words for each refusal; a hook chooses its own. -/
def ScopingError.message : ScopingError → String
  | noOpenScope => "no open scope"
  | duplicateDeclaration name => s!"symbol `{name}` already declared in this scope"
  | invalidSize name => s!"invalid size for symbol `{name}`"
  | unresolvedName name => s!"symbol `{name}` not found in any scope"
  | addressOverflow bytes => s!"address space exhausted while allocating {bytes.toNat} bytes"
  | invalidWordSize => "word size must be non-zero"
  | hookFailed message => message

/-- Where data space and constant space begin, and how many bytes a word has. -/
structure Layout where
  dataBase : Address
  constantBase : Address
  wordSize : UInt32
  deriving DecidableEq

/-- The usual layout. -/
def Layout.standard : Layout := ⟨0x10000000, 0x20000000, 4⟩

/-- All scopes so far, the current one, and the counters for addresses. -/
structure SymbolTable where
  scopes : Array Scope
  current : Option Nat
  wordSize : UInt32
  dataAddress : Address
  constantAddress : Address
  wordSize_ne_zero : wordSize ≠ 0

/-- Where a name was found: its entry, the scope that declares it, and whether that is the current
scope. -/
structure Found where
  entry : Entry
  scope : Nat
  inCurrentScope : Bool
  deriving DecidableEq

namespace SymbolTable

/-- The table before any scope is opened. -/
def ofLayout (layout : Layout) : Except ScopingError SymbolTable :=
  if h : layout.wordSize = 0 then .error .invalidWordSize
  else .ok {
    scopes := #[]
    current := none
    wordSize := layout.wordSize
    dataAddress := layout.dataBase
    constantAddress := layout.constantBase
    wordSize_ne_zero := h }

/-! ## Scopes -/

/-- The scope with a number. -/
def scope? (t : SymbolTable) (id : Nat) : Option Scope :=
  t.scopes[id]?

/-- The innermost open scope. -/
def current? (t : SymbolTable) : Option Scope :=
  t.current.bind t.scope?

/-- The number of open scopes. -/
def depth (t : SymbolTable) : Nat :=
  match t.current? with
  | some scope => scope.level + 1
  | none => 0

/-- The scope that is opened next: an empty child of the current scope, or an empty root. -/
def nextScope (t : SymbolTable) : Scope :=
  match t.current? with
  | some parent => ⟨t.scopes.size, parent.level + 1, some parent.id, ∅⟩
  | none => ⟨t.scopes.size, 0, none, ∅⟩

/-- Opens a scope inside the current one. -/
def enter (t : SymbolTable) : SymbolTable :=
  { t with scopes := t.scopes.push t.nextScope, current := some t.scopes.size }

/-- Makes the scope around `scope` the current one. -/
def leave (t : SymbolTable) (scope : Scope) : SymbolTable :=
  { t with current := scope.parent }

/-! ## Data space -/

/-- Takes so many bytes of data space, rounded up to words, and gives their address. -/
def allocate (t : SymbolTable) (bytes : UInt64) : Except ScopingError (Address × SymbolTable) :=
  let next := t.dataAddress.toUInt64 + wordsFor bytes t.wordSize
  if next ≤ 0xffffffff then .ok (t.dataAddress, { t with dataAddress := next.toUInt32 })
  else .error (.addressOverflow bytes)

/-- Takes data space for an unnamed value; no scope has to be open. -/
def temporary (t : SymbolTable) (size : UInt32) : Except ScopingError (Address × SymbolTable) :=
  if size = 0 then .error (.invalidSize "<temporary>") else t.allocate size.toUInt64

/-- Takes the data space of an entry, if it needs any. -/
def place (t : SymbolTable) (e : Entry) : Except ScopingError (Option Address × SymbolTable) :=
  match e.footprint? with
  | none => .ok (none, t)
  | some bytes => match t.allocate bytes with
    | .ok (address, t) => .ok (some address, t)
    | .error e => .error e

/-! ## Declarations -/

/-- Stores an entry in a scope under its name. -/
def store (t : SymbolTable) (id : Nat) (e : Entry) : SymbolTable :=
  { t with scopes := t.scopes.modify id fun scope =>
      { scope with entries := scope.entries.insert e.name e } }

/-- Declares an entry in the current scope, with the address that is assigned to it.  A name may
shadow one of an outer scope, but not be declared twice in the same scope. -/
def declare (t : SymbolTable) (e : Entry) : Except ScopingError (Entry × SymbolTable) :=
  match t.current? with
  | none => .error .noOpenScope
  | some scope =>
    if e.name ∈ scope.entries then .error (.duplicateDeclaration e.name)
    else if e.HasValidSize then
      match t.place e with
      | .ok (address, t) => .ok ({ e with address }, t.store scope.id { e with address })
      | .error e => .error e
    else .error (.invalidSize e.name)

/-! ## Lookup -/

/-- The entry for a name in a scope or the nearest scope around it, with the number of the scope
that holds it.  The test that a parent is older never fails; it is what makes the search end. -/
def resolve (t : SymbolTable) (name : String) (id : Nat) : Option (Nat × Entry) :=
  match t.scope? id with
  | none => none
  | some scope => match scope.entries[name]? with
    | some e => some (scope.id, e)
    | none => match scope.parent with
      | none => none
      | some parent => if parent < id then t.resolve name parent else none
termination_by id

/-- The visible entry for a name. -/
def lookup (t : SymbolTable) (name : String) : Except ScopingError Found :=
  match t.current with
  | none => .error .noOpenScope
  | some current => match t.resolve name current with
    | some (scope, entry) => .ok ⟨entry, scope, scope = current⟩
    | none => .error (.unresolvedName name)

end SymbolTable
end Scoping
end CompilerTables
