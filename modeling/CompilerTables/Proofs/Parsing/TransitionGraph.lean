import Mathlib.Algebra.GroupWithZero.Nat
import CompilerTables.Parsing.TransitionGraph
import CompilerTables.Proofs.Digraph
import CompilerTables.Proofs.Parsing.ActionCells
import CompilerTables.Proofs.Parsing.AutomatonFaults
import CompilerTables.Proofs.Parsing.SearchOrder

/-!
# What the drawing of an automaton shows

The drawing has a node for each state and an edge for each transition.  The edges come state by
state, and those of a state in the order of their symbols, which `Symbol.Precedes` spells out.  No
two transitions of a state are on the same symbol, so this order leaves nothing open and there is
one drawing (`Shows.unique`): to go through the transitions in any order and to sort them gives the
same (`graphIn_eq`), and so does every automaton with the same transitions (`graph_congr`).

The search for reachable states goes through the same transitions and never looks at the drawing.
Both speak of the same steps all the same (`graph_joined_iff`), so the states that the search does
not find are those to which no path leads in the drawing.
-/

namespace CompilerTables
namespace Parsing

/-! ## The order of symbols -/

/-- The order in which transitions are drawn: terminals by number with the end of the input last
among them, then nonterminals by number. -/
inductive Symbol.Precedes : Symbol → Symbol → Prop where
  | terminals {t u : Terminal} (h : t.toNat < u.toNat) (hu : u ≠ .endMarker) :
      Precedes (.terminal t) (.terminal u)
  | endMarker {t : Terminal} (h : t ≠ .endMarker) :
      Precedes (.terminal t) (.terminal .endMarker)
  | sorts (t : Terminal) (n : Nat) : Precedes (.terminal t) (.nonterminal n)
  | nonterminals {m n : Nat} (h : m < n) : Precedes (.nonterminal m) (.nonterminal n)

theorem Symbol.precedes_of_compare {x y : Symbol} (h : compare x y = .lt) (hx : x ≠ .epsilon)
    (hy : y ≠ .epsilon) : x.Precedes y := by
  have hparts : compare x.sort y.sort = .lt ∨
      compare x.sort y.sort = .eq ∧ compare x.number y.number = .lt := Ordering.then_eq_lt.mp h
  simp only [Nat.compare_eq_lt, Nat.compare_eq_eq] at hparts
  cases x with
  | terminal t =>
    cases y with
    | terminal u =>
      have hlt : t.toNat < u.toNat := (hparts.resolve_left (Nat.lt_irrefl 0)).2
      by_cases hu : u = .endMarker
      · rw [hu]
        refine .endMarker fun ht => ?_
        rw [ht, hu] at hlt
        exact Nat.lt_irrefl _ hlt
      · exact .terminals hlt hu
    | nonterminal n => exact .sorts t n
    | epsilon => exact absurd rfl hy
  | nonterminal m =>
    cases y with
    | terminal u => simp [sort] at hparts
    | nonterminal n => exact .nonterminals (hparts.resolve_left (Nat.lt_irrefl 1)).2
    | epsilon => exact absurd rfl hy
  | epsilon => exact absurd rfl hx

theorem Symbol.Precedes.asymm {x y : Symbol} (h : x.Precedes y) : ¬ y.Precedes x := by
  have hlast : ∀ t : Terminal, ¬ Terminal.endMarker.toNat < t.toNat := fun t =>
    Nat.not_lt.mpr (Nat.le_of_lt_succ t.toNat_lt)
  intro h'
  cases h with
  | terminals hlt hu =>
    cases h' with
    | terminals hlt' hu' => exact Nat.lt_asymm hlt hlt'
    | endMarker hne => exact hlast _ hlt
  | endMarker hne =>
    cases h' with
    | terminals hlt hu => exact hlast _ hlt
    | endMarker hne' => exact hne' rfl
  | sorts => cases h'
  | nonterminals hlt =>
    cases h' with
    | nonterminals hlt' => exact Nat.lt_asymm hlt hlt'

namespace Automaton

variable {a a' : Automaton} {g : Grammar} {s : State} {k l : Nat}

/-! ## Nodes and edges -/

/-- A row of transitions is that of a state: it lists all of them and nothing else, with strictly
increasing symbols. -/
structure IsRowOf (row : List (Symbol × StateIdx)) (s : State) : Prop where
  increasing : row.Pairwise fun x y => x.1.Precedes y.1
  mem_iff : ∀ symbol target, (symbol, target) ∈ row ↔ s.transitions[symbol]? = some target

/-- A graph shows the states of an automaton in order, each with its number, and its edges are the
rows of the states one after another. -/
structure Shows (drawing : Digraph String) (a : Automaton) (g : Grammar) : Prop where
  nodes_eq : drawing.nodes = (List.range a.size).map fun k => s!"I{k}"
  edges_eq : ∃ rows, List.Forall₂ IsRowOf rows a.states.toList ∧
    drawing.edges = rows.zipIdx.flatMap fun (row, k) => row.map fun (symbol, target) =>
      ⟨k, target.toNat, g.symbolName symbol⟩

theorem isRowOf_toList (hs : s ∈ a.states) : IsRowOf s.transitions.toList s := by
  have hsymbol : ∀ x ∈ s.transitions.toList, x.1 ≠ .epsilon := fun x hx =>
    (a.transition_sound s hs x.1 x.2 (Std.ExtTreeMap.mem_toList_iff_getElem?_eq_some.mp hx)).1
  refine ⟨?_, fun symbol target => Std.ExtTreeMap.mem_toList_iff_getElem?_eq_some⟩
  refine (Std.ExtTreeMap.ordered_keys_toList).imp_of_mem fun {x y} hx hy h => ?_
  exact Symbol.precedes_of_compare h (hsymbol x hx) (hsymbol y hy)

/-- A state stands where its index says. -/
theorem index_of_mem_zipIdx (a : Automaton) (h : (s, k) ∈ a.states.toList.zipIdx) :
    s.index.toNat = k := by
  have hfound : a.states[k]? = some s := by
    simpa [List.mem_zipIdx_iff_getElem?] using h
  obtain ⟨hlt, rfl⟩ := Array.getElem?_eq_some_iff.mp hfound
  exact a.index_eq k hlt

theorem shows_graph (a : Automaton) (g : Grammar) : Shows (a.graph g) a g := by
  have hstates : a.states.toList = a.states.toList.zipIdx.map Prod.fst := by
    rw [List.zipIdx_map_fst]
  refine ⟨?_, a.states.toList.map fun s => s.transitions.toList, ?_, ?_⟩
  · refine List.ext_getElem (by simp [graph, size]) fun k hk hk' => ?_
    have hlt : k < a.states.size := by simpa [graph] using hk
    simp only [graph, List.getElem_map, Array.getElem_toList, a.index_eq k hlt, List.getElem_range]
  · rw [List.forall₂_map_left_iff, List.forall₂_same]
    exact fun s hs => isRowOf_toList (Array.mem_toList_iff.mp hs)
  · show a.states.toList.flatMap (fun s => s.edges g) = _
    rw [List.zipIdx_map, List.flatMap_map]
    conv_lhs => rw [hstates]
    rw [List.flatMap_map]
    refine List.flatMap_congr fun x hx => ?_
    show x.1.edges g = _
    rw [State.edges, a.index_of_mem_zipIdx hx]
    rfl

theorem IsRowOf.nodup {row : List (Symbol × StateIdx)} (h : IsRowOf row s) : row.Nodup :=
  h.increasing.imp fun {x y} hlt heq => by
    rw [heq] at hlt
    exact hlt.asymm hlt

/-- A state has one row of transitions. -/
theorem IsRowOf.unique {row row' : List (Symbol × StateIdx)} (h : IsRowOf row s)
    (h' : IsRowOf row' s) : row = row' := by
  have hperm : row.Perm row' := (List.perm_ext_iff_of_nodup h.nodup h'.nodup).mpr fun x =>
    (h.mem_iff x.1 x.2).trans (h'.mem_iff x.1 x.2).symm
  exact hperm.eq_of_pairwise (fun _ _ _ _ hlt hlt' => absurd hlt' hlt.asymm) h.increasing
    h'.increasing

/-- An automaton is shown by one graph. -/
theorem Shows.unique {drawing drawing' : Digraph String} (h : Shows drawing a g)
    (h' : Shows drawing' a g) : drawing = drawing' := by
  obtain ⟨rows, hrows, hedges⟩ := h.edges_eq
  obtain ⟨rows', hrows', hedges'⟩ := h'.edges_eq
  have hleft : Relator.LeftUnique IsRowOf := fun _ _ _ hrow hrow' => hrow.unique hrow'
  obtain rfl : rows = rows' := List.left_unique_forall₂' hleft hrows hrows'
  cases drawing
  cases drawing'
  exact congrArg₂ Digraph.mk (h.nodes_eq.trans h'.nodes_eq.symm) (hedges.trans hedges'.symm)

theorem length_edges_graph (a : Automaton) (g : Grammar) :
    (a.graph g).edges.length = (a.states.toList.map fun s => s.transitions.size).sum := by
  show (a.states.toList.flatMap fun s => s.edges g).length = _
  rw [List.length_flatMap]
  simp only [State.edges, List.length_map, Std.ExtTreeMap.length_toList]

/-! ## The drawing depends on the transitions alone -/

/-- Automata whose states have the same maps of transitions have the same transitions. -/
theorem hasTransition_congr
    (hmaps : a'.states.toList.map State.transitions = a.states.toList.map State.transitions)
    (index : StateIdx) (symbol : Symbol) (target : StateIdx) :
    a'.HasTransition index symbol target ↔ a.HasTransition index symbol target := by
  have hmap : ∀ b : Automaton, b.HasTransition index symbol target ↔
      ∃ transitions, (b.states.toList.map State.transitions)[index.toNat]? = some transitions ∧
        transitions[symbol]? = some target := by
    intro b
    simp only [HasTransition, state?, List.getElem?_map, Array.getElem?_toList,
      Option.map_eq_some_iff]
    constructor
    · rintro ⟨s, hs, htarget⟩
      exact ⟨_, ⟨s, hs, rfl⟩, htarget⟩
    · rintro ⟨_, ⟨s, hs, rfl⟩, htarget⟩
      exact ⟨s, hs, htarget⟩
  rw [hmap, hmap, hmaps]

/-- Automata of the same size with the same transitions have the same drawing. -/
theorem graph_congr (hsize : a'.size = a.size)
    (hsame : ∀ index symbol target,
      a'.HasTransition index symbol target ↔ a.HasTransition index symbol target) (g : Grammar) :
    a'.graph g = a.graph g := by
  have hparts : a'.states.toList.map (fun s => (s.index, s.transitions)) =
      a.states.toList.map fun s => (s.index, s.transitions) := by
    refine List.ext_getElem (by simpa [size] using hsize) fun k hk hk' => ?_
    have hlt' : k < a'.states.size := by simpa using hk
    have hlt : k < a.states.size := by simpa using hk'
    have hindex : a'.states[k].index = a.states[k].index :=
      Index.ext ((a'.index_eq k hlt').trans (a.index_eq k hlt).symm)
    have hfound' := a'.state?_index (Array.getElem_mem hlt')
    have hfound := a.state?_index (Array.getElem_mem hlt)
    have htransitions : a'.states[k].transitions = a.states[k].transitions := by
      refine Std.ExtTreeMap.ext_getElem? fun symbol => Option.ext fun target => ?_
      have hiff := hsame a.states[k].index symbol target
      simp only [HasTransition] at hiff
      rw [hfound, ← hindex, hfound'] at hiff
      simpa using hiff
    simp only [List.getElem_map, Array.getElem_toList, hindex, htransitions]
  have hgraph : ∀ b : Automaton, b.graph g =
      let parts := b.states.toList.map fun s => (s.index, s.transitions)
      { nodes := parts.map fun p => s!"I{p.1.toNat}"
        edges := parts.flatMap fun p => p.2.toList.map fun (symbol, target) =>
          ⟨p.1.toNat, target.toNat, g.symbolName symbol⟩ } := by
    intro b
    dsimp only
    rw [List.map_map, List.flatMap_map]
    rfl
  rw [hgraph, hgraph, hparts]

/-- Transitions are sorted by their symbols, and by their targets where these are the same. -/
def compareTransitions : Symbol × StateIdx → Symbol × StateIdx → Ordering :=
  compareLex (compareOn Prod.fst) (compareOn Prod.snd)

/-- The drawing that comes of going through the transitions of each state in some order and sorting
them. -/
def graphIn (order : VisitOrder) (a : Automaton) (g : Grammar) : Digraph String where
  nodes := a.states.toList.map fun s => s!"I{s.index.toNat}"
  edges := a.states.toList.flatMap fun s =>
    ((order.visits s).mergeSort fun x y => (compareTransitions x y).isLE).map
      fun (symbol, target) => ⟨s.index.toNat, target.toNat, g.symbolName symbol⟩

instance : Std.TransCmp compareTransitions :=
  inferInstanceAs (Std.TransCmp (compareLex (compareOn Prod.fst) (compareOn Prod.snd)))

theorem eq_of_compareTransitions {x y : Symbol × StateIdx} (h : compareTransitions x y = .eq) :
    x = y := by
  have hparts : compare x.1 y.1 = .eq ∧ compare x.2 y.2 = .eq := Ordering.then_eq_eq.mp h
  exact Prod.ext (Std.LawfulEqCmp.eq_of_compare hparts.1) (Std.LawfulEqCmp.eq_of_compare hparts.2)

/-- Transitions in any order are sorted into the order of the map. -/
theorem mergeSort_visits (order : VisitOrder) (s : State) :
    ((order.visits s).mergeSort fun x y => (compareTransitions x y).isLE) =
      s.transitions.toList := by
  have htotal : ∀ x y, ((compareTransitions x y).isLE || (compareTransitions y x).isLE) = true := by
    intro x y
    have hswap : compareTransitions y x = (compareTransitions x y).swap :=
      Std.OrientedCmp.eq_swap
    rw [hswap]
    cases compareTransitions x y <;> rfl
  have hsorted := List.pairwise_mergeSort (fun _ _ _ => Std.TransCmp.isLE_trans) htotal
    (order.visits s)
  have hmap : s.transitions.toList.Pairwise fun x y => (compareTransitions x y).isLE = true := by
    refine (Std.ExtTreeMap.ordered_keys_toList).imp fun {x y} h => ?_
    have hlt : compareTransitions x y = .lt := Ordering.then_eq_lt.mpr (.inl h)
    rw [hlt]
    rfl
  refine List.Perm.eq_of_pairwise (fun x y _ _ hxy hyx => ?_) hsorted hmap
    ((List.mergeSort_perm _ _).trans (order.perm s))
  exact eq_of_compareTransitions (Std.OrientedCmp.isLE_antisymm hxy hyx)

theorem graphIn_eq (order : VisitOrder) (a : Automaton) (g : Grammar) :
    graphIn order a g = a.graph g := by
  unfold graphIn
  simp only [mergeSort_visits]
  rfl

/-! ## Paths in the drawing -/

/-- An edge of the drawing is a step of the search. -/
theorem graph_joined_iff : (a.graph g).Joined k l ↔ l ∈ a.targets k := by
  rw [mem_targets_iff]
  constructor
  · rintro ⟨label, hedge⟩
    obtain ⟨s, hs, hedge⟩ := List.mem_flatMap.mp hedge
    obtain ⟨⟨symbol, target⟩, hmem, heq⟩ := List.mem_map.mp hedge
    cases heq
    exact ⟨s, a.state?_index (Array.mem_toList_iff.mp hs), symbol, target,
      Std.ExtTreeMap.mem_toList_iff_getElem?_eq_some.mp hmem, rfl⟩
  · rintro ⟨s, hs, symbol, target, htarget, rfl⟩
    have hmem : s ∈ a.states.toList := Array.mem_toList_iff.mpr (Array.mem_of_getElem? hs)
    obtain ⟨hlt, rfl⟩ := Array.getElem?_eq_some_iff.mp hs
    refine ⟨g.symbolName symbol, List.mem_flatMap.mpr ⟨_, hmem, List.mem_map.mpr
      ⟨(symbol, target), Std.ExtTreeMap.mem_toList_iff_getElem?_eq_some.mpr htarget, ?_⟩⟩⟩
    rw [a.index_eq k hlt]

theorem exists_path_graph_iff : (∃ path, (a.graph g).Path k path l) ↔ a.Reaches k l := by
  have hsteps : (a.graph g).Joined = fun k l => l ∈ a.targets k :=
    funext fun _ => funext fun _ => propext graph_joined_iff
  rw [Digraph.exists_path_iff, hsteps]
  rfl

end Automaton

/-- **The drawing shows the transitions.**  It has a node for each state in order, and the edges of
each state are its transitions with strictly increasing symbols, so there are as many edges as
transitions.  Neither the order in which the transitions are gone through nor anything else about
the automaton makes a difference.  The unreachable states are those to which no path leads from
state `0` in the drawing. -/
theorem drawing_shows_transitions (a : Automaton) (g : Grammar) :
    Automaton.Shows (a.graph g) a g ∧
      (a.graph g).edges.length = (a.states.toList.map fun s => s.transitions.size).sum ∧
      (∀ order, Automaton.graphIn order a g = a.graph g) ∧
      (∀ a' : Automaton, a'.size = a.size →
        (∀ index symbol target,
          a'.HasTransition index symbol target ↔ a.HasTransition index symbol target) →
        a'.graph g = a.graph g) ∧
      ∀ k < a.size, k ∈ a.unreachableStates ↔ ¬ ∃ path, (a.graph g).Path 0 path k := by
  refine ⟨a.shows_graph g, a.length_edges_graph g, fun order => Automaton.graphIn_eq order a g,
    fun a' hsize hsame => Automaton.graph_congr hsize hsame g, fun k hk => ?_⟩
  rw [mem_unreachableStates_iff, Automaton.exists_path_graph_iff]
  exact and_iff_right hk

/-- The states of the search with a cycle, with their transitions entered from the last to the first
and with an item in each. -/
def circlingBackwards : Automaton where
  states := circling.states.map fun s => { s with
    items := [⟨.empty 1, 0, .endMarker⟩]
    transitions := s.transitions.toList.foldr (fun x transitions => transitions.insert x.1 x.2) ∅ }
  index_eq := Automaton.index_eq_of_misplaced? (by decide +kernel)
  transition_sound := Automaton.transition_sound_of_badTransition? (by decide +kernel)

theorem drawing_shows_transitions_circling :
    circlingBackwards.size = circling.size ∧
      circlingBackwards.graph optionalLetter = circling.graph optionalLetter ∧
      (circling.graph optionalLetter).edges = [⟨0, 1, "S'"⟩, ⟨0, 2, "S"⟩, ⟨1, 1, "S'"⟩,
        ⟨1, 0, "S"⟩, ⟨3, 3, "S'"⟩, ⟨3, 1, "S"⟩] ∧
      3 ∈ circling.unreachableStates ∧
      ¬ ∃ path, (circling.graph optionalLetter).Path 0 path 3 := by
  obtain ⟨-, -, -, hcongr, hunreachable⟩ := drawing_shows_transitions circling optionalLetter
  have hsize : circlingBackwards.size = circling.size := by decide +kernel
  have hgraph := hcongr circlingBackwards hsize
    (Automaton.hasTransition_congr (by decide +kernel))
  have hmem : 3 ∈ circling.unreachableStates := by decide
  exact ⟨hsize, hgraph, by decide +kernel, hmem, (hunreachable 3 (by decide)).mp hmem⟩

end Parsing
end CompilerTables
