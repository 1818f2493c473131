import CompilerTables.Digraph
import CompilerTables.Parsing.Automaton
import CompilerTables.Parsing.Grammar

/-!
# The transition graph

An automaton drawn as a graph: one node for each state, and one edge for each transition, labelled
with the name of its symbol.  The edges of a state follow the order of symbols, so the drawing
depends on the transitions alone and not on how they were entered.
-/

namespace CompilerTables
namespace Parsing

/-- The edges that leave a state. -/
def State.edges (s : State) (g : Grammar) : List (Edge String) :=
  s.transitions.toList.map fun (symbol, target) =>
    ⟨s.index.toNat, target.toNat, g.symbolName symbol⟩

/-- The graph of an automaton, with the names of a grammar on its edges. -/
def Automaton.graph (a : Automaton) (g : Grammar) : Digraph String where
  nodes := a.states.toList.map fun s => s!"I{s.index.toNat}"
  edges := a.states.toList.flatMap fun s => s.edges g

end Parsing
end CompilerTables
