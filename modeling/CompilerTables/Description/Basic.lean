import Std.Data.ExtTreeMap

/-!
# Descriptions of a grammar and its automaton

A description gives a grammar together with its canonical collection, and refers to symbols by name
and to productions and states by number.  It is what a grammar analysis hands over; whether its
names and numbers make sense is decided when its parts are built.
-/

namespace CompilerTables
namespace Description

/-- The name that stands for the end of the input. -/
def endMarkerName : String := "$"

/-- A production by the names of its symbols; an empty body derives the empty word. -/
structure Rule where
  lhs : String
  body : List String
  deriving DecidableEq

/-- An item by the number of its production. -/
structure ItemEntry where
  production : Nat
  dot : Nat
  lookahead : String
  deriving DecidableEq

/-- A state with its items and, for each symbol that may be read, the number of the next state. -/
structure StateEntry where
  items : List ItemEntry
  transitions : Std.ExtTreeMap String Nat
  deriving DecidableEq

end Description

/-- A grammar and its canonical collection, with symbols by name. -/
structure Description where
  nonterminals : List String
  terminals : List String
  productions : List Description.Rule
  augmented : Nat
  states : List Description.StateEntry
  deriving DecidableEq

end CompilerTables
