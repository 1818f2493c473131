import CompilerTables.Scoping.ScopeTree
import CompilerTables.Proofs.Digraph
import CompilerTables.Proofs.Scoping.Environments
import CompilerTables.Proofs.Scoping.Trace

/-!
# The drawing of the scopes is a forest

A record of a scope knows its parent and nothing else about the nesting.  The drawing has an edge
for each such link and a node for each record, so what it looks like as a whole follows from the
invariant of the history, `SymbolTable.WellFormed`.

* The edges come in the order of their targets (`pairwise_target_edges`), so no node has two edges
  leading to it, and the nodes without one are the scopes of level `0`
  (`inDegree_graph_eq_zero_iff`).
* A scope is at the end of a path from a root, which visits the scopes around it from the outermost
  one to itself (`exists_path_graph`).  There is no other path from a root to it, since in-degrees
  are one at most.

The scopes around the current one are those that are open.  The main statement finds them without
the parents: they are the frames of the stack that was run beside the session.
-/

namespace CompilerTables
namespace Scoping

/-! ## Labels -/

/-- One text stands before another in the order of code points. -/
def PrecedesByCodePoints (a b : String) : Prop :=
  a.toList.map Char.toNat < b.toList.map Char.toNat

/-- A label shows a scope: its number, its level, and the names that it declares in ascending order,
each exactly once. -/
def Scope.IsShownBy (scope : Scope) (label : String) : Prop :=
  ∃ names : List String,
    label = s!"scope {scope.id} (level {scope.level}): " ++ ", ".intercalate names ∧
      names.Pairwise PrecedesByCodePoints ∧ ∀ name, name ∈ names ↔ name ∈ scope.entries

theorem precedesByCodePoints_of_compare {a b : String} (h : compare a b = .lt) :
    PrecedesByCodePoints a b := by
  have hlt : a < b := compareOfLessAndEq_eq_lt.mp h
  exact List.map_lt (fun _ _ hchar => hchar) hlt

theorem Scope.isShownBy_label (scope : Scope) : scope.IsShownBy scope.label :=
  ⟨scope.entries.keys, rfl, Std.ExtTreeMap.ordered_keys.imp precedesByCodePoints_of_compare,
    fun _ => Std.ExtTreeMap.mem_keys⟩

namespace SymbolTable

variable {t : SymbolTable} {scope : Scope} {e : Edge Unit} {k : Nat}

/-! ## Edges -/

theorem length_nodes_graph (t : SymbolTable) : t.graph.nodes.length = t.scopes.size := by
  rw [graph, List.length_map, Array.length_toList]

theorem getElem?_nodes_graph (hk : t.scopes[k]? = some scope) :
    t.graph.nodes[k]? = some scope.label := by
  rw [graph, List.getElem?_map, Array.getElem?_toList, hk, Option.map_some]

/-- An edge leads to a scope from its parent. -/
theorem mem_edges_graph_iff (hwf : t.WellFormed) :
    e ∈ t.graph.edges ↔
      ∃ scope, t.scopes[e.target]? = some scope ∧ scope.parent = some e.source := by
  rw [graph, List.mem_filterMap]
  constructor
  · rintro ⟨scope, hmem, hedge⟩
    obtain ⟨parent, hparent, rfl⟩ := Option.map_eq_some_iff.mp hedge
    obtain ⟨k, hk⟩ := Array.getElem?_of_mem (Array.mem_toList_iff.mp hmem)
    rw [← hwf.id_eq hk] at hk
    exact ⟨scope, hk, hparent⟩
  · rintro ⟨scope, hk, hparent⟩
    refine ⟨scope, Array.mem_toList_iff.mpr (Array.mem_of_getElem? hk), ?_⟩
    rw [hparent, Option.map_some, hwf.id_eq hk]

/-- Edges lead from older scopes to younger ones. -/
theorem source_lt_target (hwf : t.WellFormed) (he : e ∈ t.graph.edges) :
    e.source < e.target ∧ e.target < t.scopes.size := by
  obtain ⟨scope, hk, hparent⟩ := (mem_edges_graph_iff hwf).mp he
  exact ⟨(hwf.level_child hk hparent).1, (Array.getElem?_eq_some_iff.mp hk).1⟩

theorem pairwise_target_edges (hwf : t.WellFormed) :
    t.graph.edges.Pairwise fun e e' => e.target < e'.target := by
  have hids : t.scopes.toList.Pairwise fun scope scope' => scope.id < scope'.id := by
    rw [List.pairwise_iff_getElem]
    intro i j hi hj hlt
    have hscope : t.scopes[i]? = some t.scopes[i] := Array.getElem?_eq_getElem hi
    have hscope' : t.scopes[j]? = some t.scopes[j] := Array.getElem?_eq_getElem hj
    rw [Array.getElem_toList, Array.getElem_toList, hwf.id_eq hscope, hwf.id_eq hscope']
    exact hlt
  refine hids.filterMap _ fun scope scope' hlt e he e' he' => ?_
  obtain ⟨parent, -, rfl⟩ := Option.map_eq_some_iff.mp he
  obtain ⟨parent', -, rfl⟩ := Option.map_eq_some_iff.mp he'
  exact hlt

theorem inDegree_graph_le_one (hwf : t.WellFormed) (k : Nat) : t.graph.inDegree k ≤ 1 :=
  Digraph.inDegree_le_one ((pairwise_target_edges hwf).imp Nat.ne_of_lt) k

/-- No edge leads to a scope exactly if it has no parent, which is to say that its level is `0`. -/
theorem inDegree_graph_eq_zero_iff (hwf : t.WellFormed) (hk : t.scopes[k]? = some scope) :
    t.graph.inDegree k = 0 ↔ scope.level = 0 := by
  rw [Digraph.inDegree_eq_zero_iff]
  cases hparent : scope.parent with
  | none =>
    refine iff_of_true ?_ (hwf.level_root hk hparent)
    rintro e he rfl
    obtain ⟨scope', hk', hparent'⟩ := (mem_edges_graph_iff hwf).mp he
    rw [hk] at hk'
    cases hk'
    rw [hparent] at hparent'
    cases hparent'
  | some parent =>
    obtain ⟨-, outer, -, hlevel⟩ := hwf.level_child hk hparent
    have hedge : ⟨parent, k, ()⟩ ∈ t.graph.edges :=
      (mem_edges_graph_iff hwf).mpr ⟨scope, hk, hparent⟩
    refine iff_of_false (fun hnone => hnone _ hedge rfl) ?_
    omega

/-! ## Paths -/

/-- A path from a root leads through the scopes around a scope, from the outermost one inwards. -/
theorem exists_path_graph (hwf : t.WellFormed) (hk : t.scopes[k]? = some scope) :
    ∃ root path, t.graph.IsRoot root ∧ t.graph.Path root path k ∧
      root :: path.map Edge.target = ((t.ancestors k).map Scope.id).reverse := by
  induction k using Nat.strongRecOn generalizing scope with
  | _ k ih =>
    have hid := hwf.id_eq hk
    cases hparent : scope.parent with
    | none =>
      have hlt := (Array.getElem?_eq_some_iff.mp hk).1
      have hroot := (inDegree_graph_eq_zero_iff hwf hk).mpr (hwf.level_root hk hparent)
      refine ⟨k, [], ⟨by rw [length_nodes_graph]; exact hlt, hroot⟩, .nil, ?_⟩
      rw [ancestors_root hk hparent, List.map_singleton, List.reverse_singleton, hid, List.map_nil]
    | some parent =>
      -- the path to the parent with one more edge
      obtain ⟨hlt, outer, houter, -⟩ := hwf.level_child hk hparent
      obtain ⟨root, path, hroot, hpath, hvisits⟩ := ih parent hlt houter
      have hedge : ⟨parent, k, ()⟩ ∈ t.graph.edges :=
        (mem_edges_graph_iff hwf).mpr ⟨scope, hk, hparent⟩
      refine ⟨root, _, hroot, hpath.concat hedge, ?_⟩
      rw [ancestors_child hwf hk hparent, List.map_cons, List.reverse_cons, ← hvisits,
        List.map_append, List.map_singleton, hid, List.cons_append]

/-- The drawing shows the history as a forest.  There is a node for each scope, with a label that
shows it, and an edge to each scope from its parent.  The roots are the scopes of level `0`, and a
scope is at the end of one path from a root, which is as long as its level says. -/
structure ShowsForest (drawing : Digraph Unit) (t : SymbolTable) : Prop where
  length_nodes : drawing.nodes.length = t.scopes.size
  label : ∀ {k : Nat} {scope : Scope}, t.scopes[k]? = some scope →
    scope.id = k ∧ ∃ label, drawing.nodes[k]? = some label ∧ scope.IsShownBy label
  mem_edges_iff : ∀ e : Edge Unit, e ∈ drawing.edges ↔
    ∃ scope, t.scopes[e.target]? = some scope ∧ scope.parent = some e.source
  source_lt_target : ∀ e ∈ drawing.edges, e.source < e.target
  inDegree_le_one : ∀ k, drawing.inDegree k ≤ 1
  inDegree_eq_zero_iff : ∀ {k : Nat} {scope : Scope}, t.scopes[k]? = some scope →
    (drawing.inDegree k = 0 ↔ scope.level = 0)
  path : ∀ {k : Nat} {scope : Scope}, t.scopes[k]? = some scope →
    ∃ root path, drawing.IsRoot root ∧ drawing.Path root path k ∧ path.length = scope.level ∧
      ∀ root' path', drawing.IsRoot root' → drawing.Path root' path' k →
        root' = root ∧ path' = path

theorem showsForest_graph (hwf : t.WellFormed) : ShowsForest t.graph t where
  length_nodes := length_nodes_graph t
  label {_ scope} hk := ⟨hwf.id_eq hk, _, getElem?_nodes_graph hk, scope.isShownBy_label⟩
  mem_edges_iff _ := mem_edges_graph_iff hwf
  source_lt_target _ he := (source_lt_target hwf he).1
  inDegree_le_one := inDegree_graph_le_one hwf
  inDegree_eq_zero_iff := inDegree_graph_eq_zero_iff hwf
  path {k scope} hk := by
    obtain ⟨root, path, hroot, hpath, hvisits⟩ := exists_path_graph hwf hk
    have hlength := congrArg List.length hvisits
    rw [List.length_cons, List.length_map, List.length_reverse, List.length_map,
      length_ancestors hwf hk] at hlength
    refine ⟨root, path, hroot, hpath, Nat.succ.inj hlength, fun root' path' hroot' hpath' => ?_⟩
    exact hpath.eq_of_isRoot (inDegree_graph_le_one hwf) hpath' hroot hroot'

/-- The path to the current scope leads through the frames of the stack, the one on top last. -/
theorem Simulates.exists_path {stack : FrameStack} {id : Nat} (h : t.Simulates stack)
    (hwf : t.WellFormed) (hid : t.current = some id) :
    ∃ root path, t.graph.IsRoot root ∧ t.graph.Path root path id ∧
      root :: path.map Edge.target = (stack.frames.map Frame.id).reverse := by
  obtain ⟨scope, hscope, rfl⟩ := hwf.current?_of_current hid
  have hframes : stack.frames.map Frame.id = (t.ancestors scope.id).map Scope.id := by
    rw [h.frames_eq, List.map_map, openScopes, hid]
    rfl
  rw [hframes]
  exact exists_path_graph hwf (hwf.current_eq hscope).2

end SymbolTable

/-- **The drawing of the scopes is a forest.**  After any requests to a fresh table, whatever the
hooks do, the drawing has a node for each scope that was entered.  The path from a root to the
current scope leads through the scopes that are open, from the outermost one to the innermost one,
and there are as many of them as the depth says. -/
theorem drawing_is_forest {layout : Layout} {start : SymbolTable}
    (h : SymbolTable.ofLayout layout = .ok start) {σ : Type} (hooks : Hooks σ) (memory : σ)
    (requests : List Request) :
    let t := (Session.after hooks ⟨start, memory⟩ requests).table
    let stack := FrameStack.empty.replay
      (requests.zip ((Session.run hooks ⟨start, memory⟩ requests).map Response.result))
    SymbolTable.ShowsForest t.graph t ∧ t.graph.nodes.length = requests.count .enter ∧
      t.depth = stack.frames.length ∧
      ∀ id, t.current = some id →
        ∃ root path, t.graph.IsRoot root ∧ t.graph.Path root path id ∧
          root :: path.map Edge.target = (stack.frames.map Frame.id).reverse := by
  intro t stack
  obtain ⟨hword, rfl⟩ := SymbolTable.eq_fresh_of_ofLayout h
  have hfresh := SymbolTable.WellFormed.fresh layout hword
  have hwf : t.WellFormed := hfresh.after requests
  have hsimulates : t.Simulates stack := .after hfresh (.fresh layout hword) requests
  have hsize : t.scopes.size = 0 + requests.count .enter :=
    Session.size_scopes_after hooks hfresh requests
  refine ⟨SymbolTable.showsForest_graph hwf, ?_, (hsimulates.observes hwf).depth_eq,
    fun id hid => hsimulates.exists_path hwf hid⟩
  rw [SymbolTable.length_nodes_graph, hsize, Nat.zero_add]

/-- Scope `1` was left before scope `2` was entered, so it is not on the way to it. -/
theorem drawing_is_forest_nested :
    SymbolTable.ofLayout .standard = .ok (.fresh .standard (by decide)) ∧
      (nestedTable 10).graph.nodes = ["scope 0 (level 0): x", "scope 1 (level 1): c, x",
        "scope 2 (level 1): y"] ∧
      (nestedTable 10).current = some 2 ∧ (nestedTable 10).depth = 2 ∧
      ∃ root path, (nestedTable 10).graph.IsRoot root ∧ (nestedTable 10).graph.Path root path 2 ∧
        root :: path.map Edge.target = [0, 2] := by
  have hlayout : SymbolTable.ofLayout .standard = .ok (.fresh .standard (by decide)) :=
    SymbolTable.ofLayout_eq_ok (by decide)
  have hcurrent : (nestedTable 10).current = some 2 := by decide +kernel
  obtain ⟨-, -, hdepth, hpath⟩ :=
    drawing_is_forest hlayout moodyHooks 0 (nestedRequests.take 10)
  obtain ⟨root, path, hroot, hpath, hvisits⟩ := hpath 2 hcurrent
  refine ⟨hlayout, by decide +kernel, hcurrent, hdepth.trans (by decide +kernel), root, path,
    hroot, hpath, hvisits.trans (by decide +kernel)⟩

end Scoping
end CompilerTables
