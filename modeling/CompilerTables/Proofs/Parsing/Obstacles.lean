import Mathlib.Data.Prod.Lex
import Mathlib.Order.Bounds.Basic
import CompilerTables.Proofs.Parsing.ActionCells
import CompilerTables.Proofs.Parsing.Numbering

/-!
# What stops the construction

The construction stops for two reasons.  An item that is completed asks to reduce by its production,
and the grammar may not have it; an item that is not completed asks for the transition on the symbol
that it reads, and its state may not have one.  `State.Obstacle` says this of one item, and the
demand of an item is an error exactly when it is an obstacle, with that very reason
(`State.demand_eq_error_iff`).

Tables are refused for the first obstacle (`build_refused_for_first_obstacle`).  Items are ordered
by the number of their state and then by their position in it, so a place is a pair of numbers in
the lexicographic order.  Neither the tables that were filled so far nor the conflicts that were
recorded have a say in this: `Construction.snd_run` gives the reason for the end of a run by a
search through the items, whatever the run started with.
-/

namespace CompilerTables
namespace Parsing

/-! ## One item -/

namespace State

variable {s : State} {g : Grammar} {item : Item} {e : TableError}

/-- Why an item of a state stops the construction: it is completed and the grammar does not have its
production, or it is not completed and its state has no transition on the symbol that it reads. -/
inductive Obstacle (s : State) (g : Grammar) (item : Item) : TableError → Prop where
  | unknownProduction (hcompleted : item.Completed) (hunknown : item.production ∉ g.productions) :
      Obstacle s g item (.unknownProduction s.index item.production)
  | missingTransition {symbol : Symbol} (hreads : ¬ item.Completed)
      (hnext : item.next? = some symbol) (hmissing : s.transitions[symbol]? = none) :
      Obstacle s g item (.missingTransition s.index symbol)

/-- A completed item is refused for its production and nothing else; the augmented production is one
of the grammar's. -/
theorem completedDemand_eq_error_iff :
    s.completedDemand g item = .error e ↔
      item.production ∉ g.productions ∧ e = .unknownProduction s.index item.production := by
  unfold completedDemand
  split
  · next haccept =>
    refine iff_of_false nofun fun ⟨hunknown, _⟩ => hunknown ?_
    rw [haccept.2]
    exact g.augmentedProduction_mem
  · rw [← Grammar.indexOf?_eq_none_iff]
    cases g.indexOf? item.production with
    | some k => exact iff_of_false nofun nofun
    | none => rw [and_iff_right rfl, Except.error.injEq, eq_comm]

theorem readingDemand_eq_error_iff {symbol : Symbol} {demand : StateIdx → Demand} :
    s.readingDemand symbol demand = .error e ↔
      s.transitions[symbol]? = none ∧ e = .missingTransition s.index symbol := by
  unfold readingDemand successor?
  cases s.transitions[symbol]? with
  | some target => exact iff_of_false nofun nofun
  | none => rw [and_iff_right rfl, Except.error.injEq, eq_comm]

/-- The demand of an item cannot be stated exactly when the item is an obstacle. -/
theorem demand_eq_error_iff : s.demand g item = .error e ↔ s.Obstacle g item e := by
  by_cases hcompleted : item.Completed
  · rw [demand_of_completed hcompleted, completedDemand_eq_error_iff]
    constructor
    · rintro ⟨hunknown, rfl⟩
      exact .unknownProduction hcompleted hunknown
    · intro hobstacle
      cases hobstacle with
      | unknownProduction _ hunknown => exact ⟨hunknown, rfl⟩
      | missingTransition hreads => exact absurd hcompleted hreads
  · obtain ⟨symbol, demand, hnext, hdemand⟩ := exists_readingDemand (s := s) (g := g) hcompleted
    rw [hdemand, readingDemand_eq_error_iff]
    constructor
    · rintro ⟨hmissing, rfl⟩
      exact .missingTransition hcompleted hnext hmissing
    · intro hobstacle
      cases hobstacle with
      | unknownProduction hcompleted' => exact absurd hcompleted' hcompleted
      | missingTransition _ hnext' hmissing =>
        cases hnext.symm.trans hnext'
        exact ⟨hmissing, rfl⟩

theorem exists_obstacle_iff :
    (∃ e, s.Obstacle g item e) ↔
      (item.Completed ∧ item.production ∉ g.productions) ∨
        ¬ item.Completed ∧ ∃ symbol, item.next? = some symbol ∧ s.transitions[symbol]? = none := by
  constructor
  · rintro ⟨_, hobstacle⟩
    cases hobstacle with
    | unknownProduction hcompleted hunknown => exact .inl ⟨hcompleted, hunknown⟩
    | missingTransition hreads hnext hmissing => exact .inr ⟨hreads, _, hnext, hmissing⟩
  · rintro (⟨hcompleted, hunknown⟩ | ⟨hreads, symbol, hnext, hmissing⟩)
    · exact ⟨_, .unknownProduction hcompleted hunknown⟩
    · exact ⟨_, .missingTransition hreads hnext hmissing⟩

/-- A completed item of the augmented production is no obstacle, whatever its lookahead. -/
theorem exists_demand_of_augmented (hcompleted : item.Completed)
    (haugmented : item.production = g.augmentedProduction) : ∃ d, s.demand g item = .ok d := by
  cases hdemand : s.demand g item with
  | ok d => exact ⟨d, rfl⟩
  | error e =>
    rw [demand_of_completed hcompleted, completedDemand_eq_error_iff, haugmented] at hdemand
    exact absurd g.augmentedProduction_mem hdemand.1

/-- The transitions of a state have no part in what a completed item demands. -/
theorem demand_with_transitions (hcompleted : item.Completed) (transitions : Transitions) :
    ({ s with transitions } : State).demand g item = s.demand g item := by
  rw [demand_of_completed hcompleted, demand_of_completed hcompleted]
  rfl

end State

/-! ## The first obstacle -/

/-- The item at a place is an obstacle; a place is the number of a state and a position among its
items. -/
def Automaton.ObstacleAt (a : Automaton) (g : Grammar) (place : ℕ ×ₗ ℕ) (e : TableError) : Prop :=
  ∃ s item, a.states[(ofLex place).1]? = some s ∧ s.items[(ofLex place).2]? = some item ∧
    s.Obstacle g item e

section Search

variable {a : Automaton} {g : Grammar} {e : TableError}

theorem Automaton.obstacleAt_iff {place : ℕ ×ₗ ℕ} :
    a.ObstacleAt g place e ↔
      ∃ s item, a.states[(ofLex place).1]? = some s ∧ s.items[(ofLex place).2]? = some item ∧
        fault? (s.demand g item) = some e := by
  simp only [ObstacleAt, fault?_eq_some_iff, State.demand_eq_error_iff]

/-- The search through all items for a demand that cannot be stated finds the first obstacle. -/
theorem Automaton.findSome?_items_eq_some_iff :
    (a.items.findSome? fun p => fault? (p.1.demand g p.2)) = some e ↔
      ∃ place, IsLeast {place | ∃ e, a.ObstacleAt g place e} place ∧ a.ObstacleAt g place e := by
  rw [items, findSome?_flatMap, findSome?_eq_some_iff_getElem?]
  simp only [List.findSome?_map, Array.getElem?_toList, obstacleAt_iff]
  constructor
  · rintro ⟨i, s, hs, hitems, hstates⟩
    obtain ⟨j, item, hitem, hfault, hbefore⟩ := findSome?_eq_some_iff_getElem?.mp hitems
    refine ⟨toLex (i, j), ⟨⟨e, s, item, hs, hitem, hfault⟩, ?_⟩, s, item, hs, hitem, hfault⟩
    rintro place ⟨e', s', item', hs', hitem', hfault'⟩
    -- a place before this one lies in an earlier state, or earlier in the same state
    refine le_of_not_gt fun hlt => ?_
    rcases Prod.Lex.lt_iff.mp hlt with hlt | ⟨heq, hlt⟩
    · have hnone := List.findSome?_eq_none_iff.mp (hstates _ hlt s' hs') item'
        (List.mem_of_getElem? hitem')
      cases hnone.symm.trans hfault'
    · rw [heq] at hs'
      cases hs.symm.trans hs'
      cases (hbefore _ hlt item' hitem').symm.trans hfault'
  · rintro ⟨place, ⟨-, hleast⟩, s, item, hs, hitem, hfault⟩
    have hsound : ∀ earlier < place, ∀ s' item', a.states[(ofLex earlier).1]? = some s' →
        s'.items[(ofLex earlier).2]? = some item' → fault? (s'.demand g item') = none := by
      intro earlier hlt s' item' hs' hitem'
      rw [Option.eq_none_iff_forall_ne_some]
      intro e' hfault'
      exact not_lt_of_ge (hleast ⟨e', s', item', hs', hitem', hfault'⟩) hlt
    refine ⟨(ofLex place).1, s, hs, findSome?_eq_some_iff_getElem?.mpr ⟨(ofLex place).2, item,
      hitem, hfault, fun j hj item' hitem' => ?_⟩, fun i hi s' hs' => ?_⟩
    · exact hsound (toLex ((ofLex place).1, j)) (Prod.Lex.lt_iff.mpr (.inr ⟨rfl, hj⟩)) s item' hs
        hitem'
    · rw [List.findSome?_eq_none_iff]
      intro item' hmem
      obtain ⟨j, hitem'⟩ := List.mem_iff_getElem?.mp hmem
      exact hsound (toLex (i, j)) (Prod.Lex.lt_iff.mpr (.inl hi)) s' item' hs' hitem'

theorem exists_tables_eq_error_iff :
    (∃ e, (ParseTables.build a g).tables = .error e) ↔
      ∃ s ∈ a.states, ∃ item ∈ s.items, ∃ e, s.Obstacle g item e := by
  simp only [tables_eq_error_iff]
  rw [← Option.isSome_iff_exists, List.findSome?_isSome_iff]
  simp only [Option.isSome_iff_exists, fault?_eq_some_iff, State.demand_eq_error_iff, Prod.exists,
    Automaton.mem_items_iff, and_assoc]
  exact exists_congr fun s => exists_and_left

end Search

/-- **Tables are refused for the first obstacle.**  There are none exactly when some item of some
state is completed with a production that the grammar does not have, or reads a symbol that its
state has no transition on.  The refusal gives the first item of that kind, in the order of states
and of items, and what was built before it makes no difference.  A completed item of the augmented
production is never refused, and before `epsilon` no transition is asked for. -/
theorem build_refused_for_first_obstacle (a : Automaton) (g : Grammar) :
    ((∃ e, (ParseTables.build a g).tables = .error e) ↔
        ∃ s ∈ a.states, ∃ item ∈ s.items,
          (item.Completed ∧ item.production ∉ g.productions) ∨
            ¬ item.Completed ∧
              ∃ symbol, item.next? = some symbol ∧ s.transitions[symbol]? = none) ∧
      (∀ e, (ParseTables.build a g).tables = .error e ↔
        ∃ place, IsLeast {place | ∃ e, a.ObstacleAt g place e} place ∧
          a.ObstacleAt g place e) ∧
      (∀ (c : Construction) (e : TableError), (Construction.run g a.items c).2 = some e ↔
        (ParseTables.build a g).tables = .error e) ∧
      (∀ (s : State) (item : Item), item.Completed → item.production = g.augmentedProduction →
        ∃ d, s.demand g item = .ok d) ∧
      ∀ (s : State) (item : Item) (transitions : Transitions), item.next? = some .epsilon →
        ({ s with transitions } : State).demand g item = s.demand g item := by
  refine ⟨?_, fun e => ?_, fun c e => ?_, fun s item => State.exists_demand_of_augmented,
    fun s item transitions hnext => State.demand_with_transitions ?_ transitions⟩
  · rw [exists_tables_eq_error_iff]
    simp only [State.exists_obstacle_iff]
  · rw [tables_eq_error_iff, Automaton.findSome?_items_eq_some_iff]
  · rw [tables_eq_error_iff, Construction.snd_run]
  · exact item.completed_iff_next?.mpr (.inr hnext)

/-! ### An automaton with obstacles

State `0` is the first of the two states with clashes.  In state `1`, which like the second of them
has no transitions, the augmented production is completed before a letter, a rule has its dot before
an inner `epsilon`, and only then come two obstacles: a letter to be read, and a rule that the
grammar does not have. -/

/-- The state with obstacles. -/
def stuckState : State :=
  { clashingStates[1] with
    items := [
      ⟨⟨0, [.nonterminal 1]⟩, 1, letterA⟩,
      ⟨⟨1, [.terminal letterA, .epsilon, .terminal letterA]⟩, 1, .endMarker⟩,
      ⟨⟨1, [.terminal letterA]⟩, 0, .endMarker⟩,
      ⟨⟨1, [.nonterminal 0]⟩, 1, .endMarker⟩] }

/-- The automaton of these two states. -/
def stuck : Automaton where
  states := #[clashingStates[0], stuckState]
  index_eq := Automaton.index_eq_of_misplaced? (by decide)
  transition_sound := Automaton.transition_sound_of_badTransition? (by decide)

/-- Two conflicts are recorded before the letter is refused. -/
theorem build_refused_for_first_obstacle_stuck :
    (Construction.run optionalLetter stuck.items ⟨.blank, #[]⟩).1.tables.conflicts.size = 2 ∧
      (ParseTables.build stuck optionalLetter).tables =
        .error (.missingTransition ⟨1, by decide⟩ (.terminal letterA)) ∧
      (∃ place, IsLeast {place | ∃ e, stuck.ObstacleAt optionalLetter place e} place ∧
        stuck.ObstacleAt optionalLetter place
          (.missingTransition ⟨1, by decide⟩ (.terminal letterA))) ∧
      (∃ d, stuckState.demand optionalLetter stuckState.items[0] = .ok d) ∧
      clashingStates[0].demand optionalLetter stuckState.items[1] =
        ({ clashingStates[0] with transitions := ∅ } : State).demand optionalLetter
          stuckState.items[1] := by
  obtain ⟨-, hfirst, hrun, haugmented, hepsilon⟩ :=
    build_refused_for_first_obstacle stuck optionalLetter
  have hrefused : (Construction.run optionalLetter stuck.items ⟨.blank, #[]⟩).2 =
      some (.missingTransition ⟨1, by decide⟩ (.terminal letterA)) := by
    decide +kernel
  have htables := (hrun ⟨.blank, #[]⟩ _).mp hrefused
  refine ⟨by decide +kernel, htables, (hfirst _).mp htables, ?_, ?_⟩
  · exact haugmented stuckState stuckState.items[0] (by decide) (by decide)
  · exact (hepsilon clashingStates[0] stuckState.items[1] ∅ rfl).symm

end Parsing
end CompilerTables
