import CompilerTables.Proofs.Outcome
import CompilerTables.Proofs.Parsing.Cells
import CompilerTables.Proofs.Parsing.Closure
import CompilerTables.Proofs.Parsing.ConflictCounts

/-!
# Conflict-free tables mirror the transitions

In an automaton that comes from a grammar, a state has a transition on a symbol because some of its
items read that symbol.  If this holds of every transition and the tables have no conflict, then the
tables and the transitions are two ways of writing down the same thing (`transitions_mirrored`): the
shifts are the transitions on terminals, the gotos are the transitions on nonterminals, and what
else stands in the action table was asked for by completed items.

The numbers are compared by comparing lists.  A list of cells and a list of transitions that both
have no repetitions and have the same members are permutations of each other
(`shifts_perm_terminalTransitions`, `cells_goto_perm_nonterminalTransitions`), so an edge that is
read by several items counts once.  The cells without a shift are split off by their action
(`ActionTable.size_eq`), and determinism keeps a cell from being asked for both sorts of action.
-/

namespace CompilerTables
namespace Parsing

/-! ## The parts of the action table -/

/-- The state that an action shifts to. -/
def Action.target? : Action → Option StateIdx
  | shift target => some target
  | _ => none

theorem Action.target?_eq_some_iff {action : Action} {target : StateIdx} :
    action.target? = some target ↔ action = .shift target := by
  cases action <;> simp [target?]

/-- The shifts of an action table, with their states, terminals and targets. -/
def ActionTable.shifts (table : ActionTable) : List (StateIdx × Terminal × StateIdx) :=
  (Table.cells table).filterMap fun (s, t, action) => action.target?.map fun j => (s, t, j)

theorem ActionTable.mem_shifts_iff {table : ActionTable} {s target : StateIdx} {t : Terminal} :
    (s, t, target) ∈ table.shifts ↔ table.get? s t = some (.shift target) := by
  rw [shifts, List.mem_filterMap]
  constructor
  · rintro ⟨⟨s', t', action⟩, hmem, hlisted⟩
    obtain ⟨j, hj, heq⟩ := Option.map_eq_some_iff.mp hlisted
    cases heq
    rw [Action.target?_eq_some_iff] at hj
    rw [← hj]
    exact Table.mem_cells_iff.mp hmem
  · intro h
    exact ⟨(s, t, .shift target), Table.mem_cells_iff.mpr h, rfl⟩

theorem ActionTable.nodup_shifts (table : ActionTable) : table.shifts.Nodup := by
  refine List.Nodup.filterMap ?_ (Table.nodup_cells table)
  rintro ⟨s, t, action⟩ ⟨s', t', action'⟩ listed h h'
  obtain ⟨j, hj, rfl⟩ := Option.map_eq_some_iff.mp h
  obtain ⟨j', hj', heq⟩ := Option.map_eq_some_iff.mp h'
  cases heq
  rw [Action.target?_eq_some_iff.mp hj, Action.target?_eq_some_iff.mp hj']

/-- The cells that hold something else than a shift. -/
def ActionTable.otherCells (table : ActionTable) : Finset (Cell Terminal) :=
  (((Table.cells table).filter fun filled => ¬ filled.2.2.target?.isSome).map Table.place).toFinset

theorem ActionTable.mem_otherCells_iff {table : ActionTable} {cell : Cell Terminal} :
    cell ∈ table.otherCells ↔
      ∃ action, table.get? cell.state cell.column = some action ∧ action.target? = none := by
  rw [otherCells, List.mem_toFinset, List.mem_map]
  constructor
  · rintro ⟨⟨s, t, action⟩, hfilled, rfl⟩
    obtain ⟨hmem, hother⟩ := List.mem_filter.mp hfilled
    exact ⟨action, Table.mem_cells_iff.mp hmem, by simpa using hother⟩
  · rintro ⟨action, haction, hother⟩
    refine ⟨(cell.state, cell.column, action), List.mem_filter.mpr ⟨?_, ?_⟩, rfl⟩
    · exact Table.mem_cells_iff.mpr haction
    · simp [hother]

/-- A filled cell holds a shift or something else. -/
theorem ActionTable.size_eq (table : ActionTable) :
    Std.ExtTreeMap.size table = table.shifts.length + table.otherCells.card := by
  have hnodup : (((Table.cells table).filter fun filled =>
      ¬ filled.2.2.target?.isSome).map Table.place).Nodup :=
    (Table.nodup_map_place_cells table).sublist (List.filter_sublist.map _)
  rw [otherCells, List.toFinset_card_of_nodup hnodup, List.length_map,
    ← List.countP_eq_length_filter, shifts, List.length_filterMap_eq_countP,
    ← Table.length_cells,
    List.length_eq_countP_add_countP fun filled : StateIdx × Terminal × Action =>
      filled.2.2.target?.isSome]
  simp only [Option.isSome_map]

/-! ## The requests of completed items -/

/-- The cells in which completed items ask to reduce or to accept. -/
def Automaton.completedCells (a : Automaton) (g : Grammar) : Finset (Cell Terminal) :=
  ((a.items.filterMap fun (s, item) =>
    if item.Completed then s.actionDemand? g item else none).map fun d =>
      ⟨d.state, d.terminal⟩).toFinset

/-- Completed items, and no others, ask for something else than a shift. -/
theorem State.completed_iff_target? {s : State} {g : Grammar} {item : Item} {d : ActionDemand}
    (h : s.actionDemand? g item = some d) : item.Completed ↔ d.action.target? = none := by
  rcases State.actionDemand?_eq_some_iff.mp h with
    ⟨hcompleted, -, rfl⟩ | ⟨hcompleted, -, k, -, rfl⟩ | ⟨t, j, hnext, -, rfl⟩
  · exact iff_of_true hcompleted rfl
  · exact iff_of_true hcompleted rfl
  · simp [Item.completed_iff_next?, hnext, Action.target?]

theorem Automaton.mem_completedCells_iff {a : Automaton} {g : Grammar} {cell : Cell Terminal} :
    cell ∈ a.completedCells g ↔
      ∃ action, ⟨cell.state, cell.column, action⟩ ∈ a.actionDemands g ∧ action.target? = none := by
  rw [completedCells, List.mem_toFinset, List.mem_map, actionDemands_eq_filterMap_items]
  constructor
  · rintro ⟨d, hd, rfl⟩
    obtain ⟨⟨s, item⟩, hitem, hdemand⟩ := List.mem_filterMap.mp hd
    obtain ⟨hcompleted, hdemand⟩ := Option.ite_none_right_eq_some.mp hdemand
    exact ⟨d.action, List.mem_filterMap.mpr ⟨(s, item), hitem, hdemand⟩,
      (State.completed_iff_target? hdemand).mp hcompleted⟩
  · rintro ⟨action, hmem, hother⟩
    obtain ⟨⟨s, item⟩, hitem, hdemand⟩ := List.mem_filterMap.mp hmem
    have hcompleted : item.Completed := (State.completed_iff_target? hdemand).mpr hother
    exact ⟨⟨cell.state, cell.column, action⟩, List.mem_filterMap.mpr ⟨(s, item), hitem,
      Option.ite_none_right_eq_some.mpr ⟨hcompleted, hdemand⟩⟩, rfl⟩

/-! ## Tables without conflicts -/

/-- Every transition is on a symbol that some item of its state reads. -/
def Automaton.ReadsTransitions (a : Automaton) : Prop :=
  ∀ s ∈ a.states, ∀ symbol ∈ s.transitions.keys, ∃ item ∈ s.items, item.next? = some symbol

instance (a : Automaton) : Decidable a.ReadsTransitions :=
  inferInstanceAs (Decidable (∀ s ∈ a.states, ∀ symbol ∈ s.transitions.keys,
    ∃ item ∈ s.items, item.next? = some symbol))

section Mirror

variable {a : Automaton} {g : Grammar} {tables : ParseTables}

theorem Automaton.ReadsTransitions.exists_item (hreads : a.ReadsTransitions) {s : State}
    (hs : s ∈ a.states) {symbol : Symbol} {target : StateIdx}
    (htarget : s.transitions[symbol]? = some target) :
    ∃ item ∈ s.items, item.next? = some symbol := by
  refine hreads s hs symbol (Std.ExtTreeMap.mem_keys.mpr ?_)
  rw [Std.ExtTreeMap.mem_iff_isSome_getElem?, htarget]
  rfl

/-- The gotos are the transitions on nonterminals. -/
theorem goto_eq_some_iff_hasTransition (h : (ParseTables.build a g).tables = .ok tables)
    (hreads : a.ReadsTransitions) {index target : StateIdx} {n : Nat} :
    tables.goto.get? index n = some target ↔ a.HasTransition index (.nonterminal n) target := by
  constructor
  · exact hasTransition_of_goto h
  · rintro ⟨s, hs, htarget⟩
    rw [goto_eq_some_iff h]
    exact ⟨s, hs, hreads.exists_item (a.mem_of_state? hs).1 htarget, htarget⟩

/-- Without conflicts, the shifts are the transitions on terminals. -/
theorem shift_iff_hasTransition (h : (ParseTables.build a g).tables = .ok tables)
    (hreads : a.ReadsTransitions) (hdeterministic : tables.isDeterministic = true)
    {index target : StateIdx} {t : Terminal} :
    tables.action.get? index t = some (.shift target) ↔
      a.HasTransition index (.terminal t) target := by
  constructor
  · intro hshift
    have hallows : a.Allows g index t (.shift target) := allows_of_action h hshift
    exact hallows.1
  · rintro ⟨s, hs, htarget⟩
    obtain ⟨hmem, hindex⟩ := a.mem_of_state? hs
    obtain ⟨item, hitem, hnext⟩ := hreads.exists_item hmem htarget
    rw [action_eq_some_iff_of_isDeterministic h hdeterministic, a.mem_actionDemands_iff]
    refine ⟨s, hs, item, hitem, State.actionDemand?_eq_some_iff.mpr ?_⟩
    exact Or.inr (Or.inr ⟨t, target, hnext, htarget, by rw [hindex]⟩)

theorem shifts_perm_terminalTransitions (h : (ParseTables.build a g).tables = .ok tables)
    (hreads : a.ReadsTransitions) (hdeterministic : tables.isDeterministic = true) :
    tables.action.shifts.Perm a.terminalTransitions := by
  rw [List.perm_ext_iff_of_nodup tables.action.nodup_shifts a.nodup_terminalTransitions]
  rintro ⟨index, t, target⟩
  rw [ActionTable.mem_shifts_iff, Automaton.mem_terminalTransitions_iff,
    shift_iff_hasTransition h hreads hdeterministic]

theorem cells_goto_perm_nonterminalTransitions
    (h : (ParseTables.build a g).tables = .ok tables) (hreads : a.ReadsTransitions) :
    tables.goto.cells.Perm a.nonterminalTransitions := by
  rw [List.perm_ext_iff_of_nodup (Table.nodup_cells tables.goto) a.nodup_nonterminalTransitions]
  rintro ⟨index, n, target⟩
  rw [Table.mem_cells_iff, Automaton.mem_nonterminalTransitions_iff]
  exact goto_eq_some_iff_hasTransition h hreads

/-- Without conflicts, what is no shift stands where completed items ask for it. -/
theorem otherCells_eq_completedCells (h : (ParseTables.build a g).tables = .ok tables)
    (hdeterministic : tables.isDeterministic = true) :
    tables.action.otherCells = a.completedCells g := by
  ext cell
  simp only [ActionTable.mem_otherCells_iff, Automaton.mem_completedCells_iff,
    action_eq_some_iff_of_isDeterministic h hdeterministic]

/-- **Conflict-free tables mirror the transitions.**  If items read what the transitions are on,
then every transition on a terminal is a shift and every transition on a nonterminal a goto, there
are as many shifts and as many gotos as there are such transitions, and the rest of the action table
is as large as the number of cells in which completed items ask to reduce or to accept. -/
theorem transitions_mirrored (h : (ParseTables.build a g).tables = .ok tables)
    (hreads : a.ReadsTransitions) (hdeterministic : tables.isDeterministic = true) :
    (∀ index t target, a.HasTransition index (.terminal t) target →
        tables.action.get? index t = some (.shift target)) ∧
      (∀ index n target, a.HasTransition index (.nonterminal n) target →
        tables.goto.get? index n = some target) ∧
      tables.action.shifts.length = a.terminalTransitions.length ∧
      tables.goto.size = a.nonterminalTransitions.length ∧
      tables.action.size = a.terminalTransitions.length + (a.completedCells g).card := by
  have hshifts : tables.action.shifts.length = a.terminalTransitions.length :=
    (shifts_perm_terminalTransitions h hreads hdeterministic).length_eq
  have hgotos : tables.goto.size = a.nonterminalTransitions.length := by
    rw [← Table.length_cells tables.goto]
    exact (cells_goto_perm_nonterminalTransitions h hreads).length_eq
  refine ⟨fun index t target htransition => ?_, fun index n target htransition => ?_, hshifts,
    hgotos, ?_⟩
  · exact (shift_iff_hasTransition h hreads hdeterministic).mpr htransition
  · exact (goto_eq_some_iff_hasTransition h hreads).mpr htransition
  · rw [ActionTable.size_eq, hshifts, otherCells_eq_completedCells h hdeterministic]

end Mirror

/-! ### An automaton without conflicts

The states for an optional letter: in state `0` the letter may be shifted, and at the end of the
input nothing is left to do but to reduce by the empty rule. -/

/-- The three states. -/
def optionalLetterStates : Array State := #[
  { index := initialState
    items := [
      ⟨⟨0, [.nonterminal 1]⟩, 0, .endMarker⟩,
      ⟨⟨1, [.terminal letterA]⟩, 0, .endMarker⟩,
      ⟨.empty 1, 0, .endMarker⟩]
    transitions := ((∅ : Transitions).insert (.nonterminal 1) ⟨1, Nat.one_lt_succ_succ _⟩).insert
      (.terminal letterA) ⟨2, Nat.le_add_left 3 _⟩ },
  { index := ⟨1, Nat.one_lt_succ_succ _⟩
    items := [⟨⟨0, [.nonterminal 1]⟩, 1, .endMarker⟩]
    transitions := ∅ },
  { index := ⟨2, Nat.le_add_left 3 _⟩
    items := [⟨⟨1, [.terminal letterA]⟩, 1, .endMarker⟩]
    transitions := ∅ }]

/-- The automaton of these states. -/
def optionalLetterAutomaton : Automaton where
  states := optionalLetterStates
  index_eq := Automaton.index_eq_of_misplaced? (by decide)
  transition_sound := Automaton.transition_sound_of_badTransition? (by decide)

theorem exists_tables_optionalLetter :
    ∃ tables, (ParseTables.build optionalLetterAutomaton optionalLetter).tables = .ok tables := by
  rw [exists_tables_iff]
  have hdemands : ∀ p ∈ optionalLetterAutomaton.items,
      (p.1.demand optionalLetter p.2).toOption.isSome := by
    decide +kernel
  exact fun p hp => exists_ok_of_isSome (hdemands p hp)

theorem transitions_mirrored_optionalLetter :
    ∃ tables, (ParseTables.build optionalLetterAutomaton optionalLetter).tables = .ok tables ∧
      optionalLetterAutomaton.ReadsTransitions ∧ tables.isDeterministic = true ∧
      tables.action.get? initialState letterA = some (.shift ⟨2, by decide⟩) ∧
      tables.goto.get? initialState 1 = some ⟨1, by decide⟩ ∧
      tables.action.shifts.length = 1 ∧ tables.goto.size = 1 ∧ tables.action.size = 4 := by
  obtain ⟨tables, htables⟩ := exists_tables_optionalLetter
  have hreads : optionalLetterAutomaton.ReadsTransitions := by decide +kernel
  have hdeterministic : tables.isDeterministic = true := by
    rw [ParseTables.isDeterministic_iff, (answers_of_build htables).conflicts_eq]
    decide +kernel
  obtain ⟨hshift, hgoto, hshifts, hgotos, hsize⟩ :=
    transitions_mirrored htables hreads hdeterministic
  refine ⟨tables, htables, hreads, hdeterministic, ?_, ?_, ?_, ?_, ?_⟩
  · exact hshift initialState letterA _ ⟨optionalLetterStates[0], rfl, by decide +kernel⟩
  · exact hgoto initialState 1 _ ⟨optionalLetterStates[0], rfl, by decide +kernel⟩
  · rw [hshifts]
    decide +kernel
  · rw [hgotos]
    decide +kernel
  · rw [hsize]
    decide +kernel

end Parsing
end CompilerTables
