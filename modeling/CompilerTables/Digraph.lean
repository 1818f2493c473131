/-!
# Labelled directed graphs

A graph as it is drawn: the labels of its nodes, which are numbered from zero, and its edges in the
order in which they were added.  `Digraph.dot` writes one in the graphviz language.
-/

namespace CompilerTables

/-- An edge from one node to another, by number. -/
structure Edge (ε : Type) where
  source : Nat
  target : Nat
  label : ε
  deriving DecidableEq

/-- A directed graph with a label on each node and on each edge. -/
structure Digraph (ε : Type) where
  nodes : List String
  edges : List (Edge ε)
  deriving DecidableEq

namespace Digraph

/-- A label between quotes: a quote or a backslash gets a backslash before it, and a line break
becomes the mark that ends a line flush left. -/
def escapeLabel (label : List Char) : List Char :=
  label.flatMap fun c =>
    if c = '"' ∨ c = '\\' then ['\\', c]
    else if c = '\n' then ['\\', 'l']
    else [c]

/-- The attribute list that carries a label. -/
def labelAttribute (label : String) : String :=
  "[ label = \"" ++ String.ofList (escapeLabel label.toList) ++ "\" ]"

/-- The graph in the graphviz language: nodes first, then edges, one on a line. -/
def dot (g : Digraph String) : String :=
  let nodeLines := g.nodes.zipIdx.map fun (label, k) => s!"    {k} {labelAttribute label}\n"
  let edgeLines := g.edges.map fun e =>
    s!"    {e.source} -> {e.target} {labelAttribute e.label}\n"
  "digraph \x7b\n" ++ String.join nodeLines ++ String.join edgeLines ++ "\x7d\n"

end Digraph
end CompilerTables
