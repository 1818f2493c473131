import CompilerTables.Digraph
import CompilerTables.Scoping.SymbolTable

/-!
# The tree of scopes

The whole history of a symbol table drawn as a graph: a node for each scope that was ever opened, in
the order of their numbers, and an edge from each parent to its child.  The names that a scope
declares stand in its label in ascending order.
-/

namespace CompilerTables
namespace Scoping

/-- A scope with its number, its level and the names it declares. -/
def Scope.label (scope : Scope) : String :=
  let names := ", ".intercalate scope.entries.keys
  s!"scope {scope.id} (level {scope.level}): {names}"

/-- The graph of all scopes, from parents to children. -/
def SymbolTable.graph (t : SymbolTable) : Digraph Unit where
  nodes := t.scopes.toList.map Scope.label
  edges := t.scopes.toList.filterMap fun scope =>
    scope.parent.map fun parent => ⟨parent, scope.id, ()⟩

end Scoping
end CompilerTables
