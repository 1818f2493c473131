import CompilerTables.Parsing.TransitionGraph
import CompilerTables.Proofs.Description.Acceptance
import CompilerTables.Proofs.Parsing.Reachability
import CompilerTables.Proofs.Parsing.Rows

/-!
# The faults that are left to find

A description is checked while its names are resolved and its numbers are followed, and what comes
out is checked again when the grammar and the automaton are made, and once more when the tables are
built.  Much of what the later checks look for cannot be there any more.  The main statement lists
what can (`faults_left_to_find`).  A grammar may still be refused because its augmented production
is missing or because a production is listed twice, an automaton because a transition leaves it, and
tables because a transition is missing.

Nothing that is looked up by position is out of place either.  A dot is never past the end of its
production, the search for unreachable states and the drawing only ever refer to states that there
are, and every number of a state is small enough for an index.
-/

namespace CompilerTables
namespace Parsing

/-! ## Positions of states -/

/-- Edges of a drawing lead from nodes to nodes. -/
theorem Automaton.lt_length_nodes_of_mem_edges {a : Automaton} {g : Grammar} {e : Edge String}
    (he : e ∈ (a.graph g).edges) :
    e.source < (a.graph g).nodes.length ∧ e.target < (a.graph g).nodes.length := by
  have hnodes : (a.graph g).nodes.length = a.size := by
    rw [graph, List.length_map, Array.length_toList, size]
  obtain ⟨s, hs, hedge⟩ := List.mem_flatMap.mp he
  obtain ⟨⟨symbol, target⟩, hmem, rfl⟩ := List.mem_map.mp hedge
  have hstate : s ∈ a.states := Array.mem_toList_iff.mp hs
  have htransition : a.HasTransition s.index symbol target :=
    ⟨s, a.state?_index hstate, Std.ExtTreeMap.mem_toList_iff_getElem?_eq_some.mp hmem⟩
  have hsource : s.index.toNat < a.size :=
    (Array.getElem?_eq_some_iff.mp (a.state?_index hstate)).1
  rw [hnodes]
  exact ⟨hsource, htransition.lt_size⟩

end Parsing

namespace Description

open Parsing (Symbol Terminal Production Item State StateIdx Transitions Grammar Automaton Search
  ParseTables)

variable {d : Description} {names : Names} {g : Grammar} {a : Automaton} {e : PartsError}

/-! ## Faults of the description itself -/

/-- A fault that is found while names are resolved and numbers are followed. -/
def PartsError.IsOwn : PartsError → Prop
  | .grammar _ => False
  | .automaton _ => False
  | .stateOutOfRange _ => False
  | _ => True

namespace Names

theorem isOwn_of_add {name : String} {symbol : Symbol} (h : names.add name symbol = .error e) :
    e.IsOwn := by
  unfold add at h
  split at h
  · cases h
    trivial
  · cases h

theorem isOwn_of_addNonterminals {first : Nat} {rest : List String}
    (h : names.addNonterminals first rest = .error e) : e.IsOwn := by
  induction rest generalizing names first with
  | nil => cases h
  | cons new rest ih =>
    rcases bind_eq_error_iff.mp h with hadd | ⟨extended, -, hrest⟩
    · exact isOwn_of_add hadd
    · exact ih hrest

theorem isOwn_of_addTerminals {first : Nat} {rest : List String}
    (h : names.addTerminals first rest = .error e) : e.IsOwn := by
  induction rest generalizing names first with
  | nil => cases h
  | cons new rest ih =>
    unfold addTerminals at h
    split at h
    · cases h
      trivial
    · rcases bind_eq_error_iff.mp h with hadd | ⟨extended, -, hrest⟩
      · exact isOwn_of_add hadd
      · exact ih hrest

theorem isOwn_of_ofLists {nonterminals terminals : List String}
    (h : ofLists nonterminals terminals = .error e) : e.IsOwn := by
  rcases bind_eq_error_iff.mp h with hnonterminals | ⟨withNonterminals, -, hterminals⟩
  · exact isOwn_of_addNonterminals hnonterminals
  · exact isOwn_of_addTerminals hterminals

end Names

theorem isOwn_of_misnamed {α : Type} {x : Except NameError α}
    (h : x.mapError .misnamed = .error e) : e.IsOwn := by
  obtain ⟨_, -, rfl⟩ := mapError_eq_error_iff.mp h
  trivial

theorem Rule.isOwn_of_production {rule : Rule} {index : Nat}
    (h : rule.production names index = .error e) : e.IsOwn := by
  rcases bind_eq_error_iff.mp h with hlhs | ⟨lhs, -, hbody⟩
  · exact isOwn_of_misnamed hlhs
  · split at hbody
    · cases hbody
    · rcases bind_eq_error_iff.mp hbody with hsymbols | ⟨symbols, -, hresult⟩
      · obtain ⟨_, -, rfl⟩ := mapError_eq_error_iff.mp hsymbols
        trivial
      · cases hresult

section State

variable {productions : Array Production} {position : Nat}

theorem ItemEntry.isOwn_of_item {entry : ItemEntry}
    (h : entry.item names productions position = .error e) : e.IsOwn := by
  unfold ItemEntry.item at h
  split at h
  · cases h
    trivial
  · split at h
    · cases h
      trivial
    · rcases bind_eq_error_iff.mp h with hlookahead | ⟨lookahead, -, hresult⟩
      · exact isOwn_of_misnamed hlookahead
      · cases hresult

theorem isOwn_of_addTransition {transitions : Transitions} {entry : String × Nat}
    (h : addTransition names position transitions entry = .error e) : e.IsOwn := by
  unfold addTransition at h
  split at h
  · cases h
    trivial
  · rcases bind_eq_error_iff.mp h with hsymbol | ⟨symbol, -, hresult⟩
    · exact isOwn_of_misnamed hsymbol
    · cases hresult

/-- A position that is small enough is not refused. -/
theorem StateEntry.isOwn_of_state {state : StateEntry} (hposition : position < 2 ^ 32)
    (h : state.state names productions position = .error e) : e.IsOwn := by
  rcases bind_eq_error_iff.mp h with hindex | ⟨index, -, h⟩
  · -- the position has an index, so this step is not the one that fails
    obtain ⟨index, hindex'⟩ := exists_mapError_eq_ok_iff (f := PartsError.stateOutOfRange).mpr
      (Index.exists_ofNat_iff.mpr hposition)
    rw [hindex'] at hindex
    cases hindex
  rcases bind_eq_error_iff.mp h with hitems | ⟨items, -, h⟩
  · obtain ⟨entry, -, hentry⟩ := exists_mem_of_mapM_eq_error hitems
    exact ItemEntry.isOwn_of_item hentry
  rcases bind_eq_error_iff.mp h with htransitions | ⟨transitions, -, h⟩
  · obtain ⟨entry, -, _, hentry⟩ := exists_mem_of_foldlM_eq_error htransitions
    exact isOwn_of_addTransition hentry
  · cases h

end State

/-! ## Faults of the parts -/

/-- Whatever is refused, it is refused for a fault of the description itself, or because the
augmented production is missing, a production is listed twice, or a transition leaves the
automaton. -/
theorem fault_of_parts (hstates : d.states.length ≤ 2 ^ 32) (h : d.parts = .error e) :
    e.IsOwn ∨ e = .grammar (.missingAugmented d.augmented) ∨
      (∃ index first, e = .grammar (.duplicateProduction index first)) ∨
      ∃ index target, e = .automaton (.danglingTransition index target) := by
  unfold parts at h
  rcases bind_eq_error_iff.mp h with hfault | ⟨names, hnames, h⟩
  · exact .inl (Names.isOwn_of_ofLists hfault)
  rcases bind_eq_error_iff.mp h with hfault | ⟨productions, hproductions, h⟩
  · obtain ⟨⟨rule, index⟩, -, hrule⟩ := exists_mem_of_mapM_eq_error hfault
    exact .inl (Rule.isOwn_of_production hrule)
  rcases bind_eq_error_iff.mp h with hfault | ⟨states, hbuilt, h⟩
  · obtain ⟨⟨state, position⟩, hmem, hstate⟩ := exists_mem_of_mapM_eq_error hfault
    have hposition : position < d.states.length := List.snd_lt_of_mem_zipIdx hmem
    exact .inl (StateEntry.isOwn_of_state (Nat.lt_of_lt_of_le hposition hstates) hstate)
  -- from here on nothing of the description is left to look at, only what was built from it
  rcases bind_eq_error_iff.mp h with hrefused | ⟨grammar, -, h⟩
  · obtain ⟨fault, hfault, rfl⟩ := mapError_eq_error_iff.mp hrefused
    rcases Grammar.fault_of_ofParts (declared_of_buildProductions hnames hproductions) hfault with
      ⟨rfl, -⟩ | ⟨index, first, rfl, -⟩
    · exact .inr (.inl rfl)
    · exact .inr (.inr (.inl ⟨index, first, rfl⟩))
  rcases bind_eq_error_iff.mp h with hrefused | ⟨automaton, -, h⟩
  · obtain ⟨fault, hfault, rfl⟩ := mapError_eq_error_iff.mp hrefused
    obtain ⟨s, -, symbol, target, -, -, rfl⟩ := Automaton.fault_of_ofStates
      (index_of_buildStates hbuilt) (getElem?_epsilon_of_buildStates hnames hbuilt) hfault
    exact .inr (.inr (.inr ⟨s.index, target, rfl⟩))
  · cases h

/-- There are as many states as entries for them. -/
theorem PartsRun.size_eq (hrun : PartsRun d names g a) : a.size = d.states.length := by
  have hlength := (mapM_eq_ok_iff.mp hrun.states_eq).length_eq
  rw [List.length_zipIdx, Array.length_toList] at hlength
  exact hlength.symm

/-- An item that was built is about a production of the grammar. -/
theorem PartsRun.exists_production? (hrun : PartsRun d names g a) {s : State} (hs : s ∈ a.states)
    {item : Item} (hitem : item ∈ s.items) : ∃ k, g.production? k = some item.production := by
  obtain ⟨⟨state, position⟩, -, hstate⟩ :=
    exists_mem_of_forall₂ (mapM_eq_ok_iff.mp hrun.states_eq) (Array.mem_toList_iff.mpr hs)
  obtain ⟨entry, -, hbuilt⟩ := exists_mem_of_forall₂ (StateEntry.parts_of_state hstate).1 hitem
  exact ⟨_, (ItemEntry.parts_of_item hbuilt).1⟩

/-- **What is left to find.**  As long as there are numbers for all states, a description is refused
for a fault of its own, or because its augmented production is missing, a production is listed twice
or a transition leaves the automaton.  No item is built with its dot past the end of its production.
And if there are parts, then neither the search for unreachable states nor the drawing refers to a
state that is not there, and there are no tables only because a state has no transition on a symbol
that one of its items reads. -/
theorem faults_left_to_find (hstates : d.states.length ≤ 2 ^ 32) :
    (∀ e, d.parts = .error e →
      e.IsOwn ∨ e = .grammar (.missingAugmented d.augmented) ∨
        (∃ index first, e = .grammar (.duplicateProduction index first)) ∨
        ∃ index target, e = .automaton (.danglingTransition index target)) ∧
    (∀ (names : Names) (productions : Array Production) (position : Nat) (entry : ItemEntry)
      (item : Item), entry.item names productions position = .ok item →
        item.dot ≤ item.production.length) ∧
    ∀ g a, d.parts = .ok (g, a) →
      (0 < a.size → ∀ rounds, ∀ k ∈ (a.explore rounds (Search.start a.size)).work, k < a.size) ∧
      (∀ k ∈ a.unreachableStates, k < 2 ^ 32) ∧
      (∀ edge ∈ (a.graph g).edges,
        edge.source < (a.graph g).nodes.length ∧ edge.target < (a.graph g).nodes.length) ∧
      ∀ e, (ParseTables.build a g).tables = .error e →
        ∃ s ∈ a.states, ∃ item ∈ s.items, ∃ symbol, item.next? = some symbol ∧
          s.transitions[symbol]? = none ∧ e = .missingTransition s.index symbol := by
  refine ⟨fun e => fault_of_parts hstates, fun names productions position entry item hitem => ?_,
    fun g a hparts => ?_⟩
  · obtain ⟨-, hdot, hle, -⟩ := ItemEntry.parts_of_item hitem
    rw [hdot]
    exact hle
  obtain ⟨names, hrun⟩ := exists_partsRun hparts
  refine ⟨fun hsize rounds k => Search.lt_size_of_mem_work hsize, fun k hk => ?_,
    fun edge => Automaton.lt_length_nodes_of_mem_edges, fun e he => ?_⟩
  · have hlt : k < a.size := (Parsing.mem_unreachableStates_iff.mp hk).1
    rw [hrun.size_eq] at hlt
    exact Nat.lt_of_lt_of_le hlt hstates
  · obtain ⟨s, hs, item, hitem, hdemand⟩ := Parsing.exists_fault_of_build he
    obtain ⟨k, hproduction⟩ := hrun.exists_production? hs hitem
    exact ⟨s, hs, item, hitem, State.missingTransition_of_demand hproduction hdemand⟩

/-- A rule that is listed twice is left for the grammar to find.  The search and the drawing of the
description of repeated letters stay among its states. -/
theorem faults_left_to_find_repeatedLetter :
    (repeatedRule.states.length ≤ 2 ^ 32 ∧
      ∃ e, repeatedRule.parts = .error e ∧ ¬ e.IsOwn ∧
        ∃ index first, e = .grammar (.duplicateProduction index first)) ∧
    repeatedLetter.states.length ≤ 2 ^ 32 ∧ ∃ g a, repeatedLetter.parts = .ok (g, a) ∧
      0 < a.size ∧ (∀ k ∈ (a.explore 1 (Search.start a.size)).work, k < a.size) ∧
      ∀ edge ∈ (a.graph g).edges, edge.target < (a.graph g).nodes.length := by
  have hstates : repeatedLetter.states.length ≤ 2 ^ 32 := by decide
  have hstates' : repeatedRule.states.length ≤ 2 ^ 32 := hstates
  have hrefused : repeatedRule.parts.map (fun _ => ()) =
      .error (.grammar (.duplicateProduction 3 2)) := by decide +kernel
  refine ⟨⟨hstates', ?_⟩, hstates, ?_⟩
  · cases hparts : repeatedRule.parts with
    | ok built =>
      rw [hparts] at hrefused
      cases hrefused
    | error e =>
      rw [hparts] at hrefused
      cases hrefused
      rcases (faults_left_to_find hstates').1 _ hparts with hown | hmissing | htwice | hdangling
      · exact absurd hown id
      · cases hmissing
      · exact ⟨_, rfl, id, htwice⟩
      · obtain ⟨index, target, hdangling⟩ := hdangling
        cases hdangling
  · obtain ⟨⟨g, a⟩, hparts⟩ : ∃ built, repeatedLetter.parts = .ok built :=
      exists_ok_of_isSome (by decide +kernel)
    obtain ⟨names, hrun⟩ := exists_partsRun hparts
    have hsize : 0 < a.size := by
      rw [hrun.size_eq]
      decide
    obtain ⟨hwork, -, hedges, -⟩ := (faults_left_to_find hstates).2.2 g a hparts
    exact ⟨g, a, hparts, hsize, hwork hsize 1, fun edge hedge => (hedges edge hedge).2⟩

end Description
end CompilerTables
