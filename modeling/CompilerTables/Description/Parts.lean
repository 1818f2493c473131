import CompilerTables.Description.Names

/-!
# The parts of a description

A description is turned into a grammar and an automaton by resolving its names and following its
numbers.  The first fault is reported: names are declared first, then come the productions, then the
states, each with its items before its transitions, and at last what grammars and automata demand by
themselves.  The transitions of a state are gone through in the order of their names.
-/

namespace CompilerTables
namespace Description

open Parsing (Production Item State StateIdx Transitions Grammar Automaton)

/-- The production that a rule stands for; a fault of its body is reported with the number of the
rule. -/
def Rule.production (names : Names) (rule : Rule) (index : Nat) : Except PartsError Production := do
  let lhs ← (names.nonterminal rule.lhs).mapError .misnamed
  match rule.body with
  | [] => return .empty lhs
  | body => return ⟨lhs, ← (body.mapM names.symbol).mapError (.inProduction index)⟩

/-- The productions of a description. -/
def buildProductions (names : Names) (rules : List Rule) : Except PartsError (List Production) :=
  rules.zipIdx.mapM fun (rule, index) => rule.production names index

/-- The item that an entry of the state with this number stands for. -/
def ItemEntry.item (names : Names) (productions : Array Production) (state : Nat)
    (entry : ItemEntry) : Except PartsError Item :=
  match productions[entry.production]? with
  | none => .error (.unknownProduction state entry.production)
  | some production =>
    if production.length < entry.dot then
      .error (.dotPastEnd state entry.dot entry.production)
    else do
      let lookahead ← (names.terminal entry.lookahead).mapError .misnamed
      return ⟨production, entry.dot, lookahead⟩

/-- Adds the transition on a name to those of the state with this number. -/
def addTransition (names : Names) (state : Nat) (transitions : Transitions)
    (entry : String × Nat) : Except PartsError Transitions :=
  match (Index.ofNat? entry.2 : Option StateIdx) with
  | none => .error (.targetOutOfRange state entry.2)
  | some target => do
      let symbol ← (names.symbol entry.1).mapError .misnamed
      return Std.ExtTreeMap.insert transitions symbol target

/-- The state with this number that an entry stands for. -/
def StateEntry.state (names : Names) (productions : Array Production) (entry : StateEntry)
    (position : Nat) : Except PartsError State := do
  let index ← (Index.ofNat position).mapError .stateOutOfRange
  let items ← entry.items.mapM fun item => item.item names productions position
  let transitions ← entry.transitions.toList.foldlM (addTransition names position) ∅
  return ⟨index, items, transitions⟩

/-- The states of a description. -/
def buildStates (names : Names) (productions : Array Production) (entries : List StateEntry) :
    Except PartsError (List State) :=
  entries.zipIdx.mapM fun (entry, position) => entry.state names productions position

/-- The grammar and the automaton that a description stands for, or its first fault. -/
def parts (d : Description) : Except PartsError (Grammar × Automaton) := do
  let names ← Names.ofLists d.nonterminals d.terminals
  let productions ← buildProductions names d.productions
  let states ← buildStates names productions.toArray d.states
  let grammar ← (Grammar.ofParts d.nonterminals.toArray d.terminals.toArray productions.toArray
    d.augmented).mapError .grammar
  let automaton ← (Automaton.ofStates states.toArray).mapError .automaton
  return (grammar, automaton)

end Description
end CompilerTables
