import CompilerTables.Description.Basic
import CompilerTables.Parsing.Automaton
import CompilerTables.Parsing.Grammar

/-!
# The names of a description

Nonterminals are numbered in the order in which they are named, and so are terminals; the end of the
input has a name of its own.  No name may be declared twice.  `Names` resolves a name to its symbol.
-/

namespace CompilerTables
namespace Description

open Parsing (Symbol Terminal)

/-- Why a name does not resolve to the symbol that is wanted. -/
inductive NameError where
  | undeclared (name : String)
  | notNonterminal (name : String)
  | notTerminal (name : String)
  deriving DecidableEq

/-- The words for each way in which a name fails. -/
def NameError.message : NameError → String
  | undeclared name => s!"undeclared symbol `{name}`"
  | notNonterminal name => s!"`{name}` is not a nonterminal"
  | notTerminal name => s!"`{name}` is not a terminal"

/-- Why a description's parts cannot be built. -/
inductive PartsError where
  | declaredTwice (name : String)
  | tooManyTerminals
  | misnamed (e : NameError)
  | inProduction (index : Nat) (e : NameError)
  | unknownProduction (state production : Nat)
  | dotPastEnd (state dot production : Nat)
  | targetOutOfRange (state target : Nat)
  | stateOutOfRange (e : OutOfRange)
  | grammar (e : Parsing.GrammarError)
  | automaton (e : Parsing.AutomatonError)
  deriving DecidableEq

/-- The words for each fault of a description. -/
def PartsError.message : PartsError → String
  | declaredTwice name => s!"symbol `{name}` declared twice"
  | tooManyTerminals => "too many terminals: out of range integral type conversion attempted"
  | misnamed e => e.message
  | inProduction index e => s!"in production {index}: {e.message}"
  | unknownProduction state production => s!"state {state} uses unknown production {production}"
  | dotPastEnd state dot production =>
      s!"state {state}: dot {dot} is past the end of production {production}"
  | targetOutOfRange state target => s!"state {state}: target {target} out of range"
  | stateOutOfRange e => e.message
  | grammar e => e.message
  | automaton e => e.message

/-- Names with the symbols they resolve to. -/
abbrev Names := Std.ExtTreeMap String Symbol

namespace Names

/-- Only the end of the input has a name. -/
def start : Names := Std.ExtTreeMap.insert ∅ endMarkerName (.terminal Terminal.endMarker)

/-- Adds a name, which must be new. -/
def add (names : Names) (name : String) (symbol : Symbol) : Except PartsError Names :=
  if name ∈ names then .error (.declaredTwice name)
  else .ok (Std.ExtTreeMap.insert names name symbol)

/-- Adds names of nonterminals, numbered from `first`. -/
def addNonterminals (names : Names) (first : Nat) : List String → Except PartsError Names
  | [] => .ok names
  | name :: rest => do
      let names ← names.add name (.nonterminal first)
      names.addNonterminals (first + 1) rest

/-- Adds names of terminals, numbered from `first`; the numbers of terminals may run out. -/
def addTerminals (names : Names) (first : Nat) : List String → Except PartsError Names
  | [] => .ok names
  | name :: rest => match (Index.ofNat? first : Option Terminal) with
    | none => .error .tooManyTerminals
    | some t => do
        let names ← names.add name (.terminal t)
        names.addTerminals (first + 1) rest

/-- The names of the end of the input, of the nonterminals and of the terminals. -/
def ofLists (nonterminals terminals : List String) : Except PartsError Names := do
  let names ← start.addNonterminals 0 nonterminals
  names.addTerminals 0 terminals

/-- The symbol with a name. -/
def symbol (names : Names) (name : String) : Except NameError Symbol :=
  match (names : Std.ExtTreeMap String Symbol)[name]? with
  | some symbol => .ok symbol
  | none => .error (.undeclared name)

/-- The number of the nonterminal with a name. -/
def nonterminal (names : Names) (name : String) : Except NameError Nat := do
  match ← names.symbol name with
  | .nonterminal n => return n
  | _ => throw (.notNonterminal name)

/-- The terminal with a name. -/
def terminal (names : Names) (name : String) : Except NameError Terminal := do
  match ← names.symbol name with
  | .terminal t => return t
  | _ => throw (.notTerminal name)

end Names
end Description
end CompilerTables
