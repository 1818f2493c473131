import CompilerTables.Parsing.Automaton

/-!
# Reachable states

Which states of an automaton can be reached from state `0`, by a search with a work list.  A state
is marked at the moment it is put on the list, so it is put there once, and every round of the
search takes one state off.  The number of unmarked states plus the length of the list therefore
drops by one in each round, and as many rounds as there are states are enough.
-/

namespace CompilerTables
namespace Parsing

/-- The marks of a search, one for each state, and the states marked but not yet looked at. -/
structure Search where
  marked : Array Bool
  work : List Nat

namespace Search

/-- The search from state `0` among so many states. -/
def start (size : Nat) : Search :=
  ⟨(Array.replicate size false).setIfInBounds 0 true, [0]⟩

/-- Puts a state on the work list unless it is marked, and marks it. -/
def visit (search : Search) (target : Nat) : Search :=
  if search.marked[target]? = some false then
    ⟨search.marked.setIfInBounds target true, target :: search.work⟩
  else search

end Search

namespace Automaton

/-- The states that one transition of state `k` leads to. -/
def targets (a : Automaton) (k : Nat) : List Nat :=
  match a.states[k]? with
  | some s => s.transitions.toList.map fun (_, target) => target.toNat
  | none => []

/-- Looks at one state of the work list after another, for at most so many rounds. -/
def explore (a : Automaton) : Nat → Search → Search
  | 0, search => search
  | rounds + 1, search => match search.work with
    | [] => search
    | k :: rest => a.explore rounds ((a.targets k).foldl Search.visit ⟨search.marked, rest⟩)

/-- The states that no path of transitions from state `0` reaches, in ascending order. -/
def unreachableStates (a : Automaton) : List Nat :=
  let marked := (a.explore a.size (Search.start a.size)).marked
  (List.range a.size).filter fun k => marked[k]? = some false

end Automaton
end Parsing
end CompilerTables
