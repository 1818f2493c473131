import CompilerTables.Proofs.Parsing.Cells
import CompilerTables.Proofs.Parsing.Closure
import CompilerTables.Proofs.Parsing.Rows

/-!
# The log of a construction

Three things are reported while tables are built: a conflict when it is recorded, a target of the
goto table that gives way to a different one, and at the end a summary.  The second never happens.
All items that ask for one goto ask for the transition of one state on one nonterminal, so a cell
that is filled already holds what is asked for (`previous_eq_of_run`), and what is left of the log
are the conflicts, in the order in which they are recorded (`events_of_build`).

The invariant is `Construction.Faithful`: the cells of the goto table hold the targets that were
asked for last, and the events so far are the conflicts so far.  It is kept as long as everything
that is asked for is a goto of the automaton, because then a new target cannot differ from the one
that it replaces.
-/

namespace CompilerTables
namespace Parsing

/-! ## Nothing is overwritten -/

theorem GotoTable.overwrite?_eq_none_iff {table : GotoTable} {s target : StateIdx} {n : Nat} :
    table.overwrite? s n target = none ↔
      ∀ previous, table.get? s n = some previous → previous = target := by
  unfold overwrite?
  cases table.get? s n with
  | none => exact iff_of_true rfl nofun
  | some previous => simp

namespace Construction

variable {a : Automaton} {g : Grammar} {c : Construction} {demands : List GotoDemand}
  {state : State} {item : Item} {d : Demand}

/-- The goto table holds what was asked for last, and the events are the conflicts. -/
structure Faithful (c : Construction) (demands : List GotoDemand) : Prop where
  get?_eq : ∀ s n, c.tables.goto.get? s n = lastTarget demands s n
  events_eq : c.events.toList = c.tables.conflicts.toList.map .conflict

theorem faithful_blank : Faithful ⟨ParseTables.blank, #[]⟩ [] where
  get?_eq _ _ := rfl
  events_eq := rfl

/-- A demand for an action is reported when its conflict is recorded, and only then. -/
theorem events_act (h : c.events.toList = c.tables.conflicts.toList.map .conflict) (s : StateIdx)
    (t : Terminal) (action : Action) :
    (c.act s t action).events.toList =
      (c.act s t action).tables.conflicts.toList.map .conflict := by
  unfold act
  split
  · exact h
  · split
    · exact h
    · rw [Array.toList_push, Array.toList_push, List.map_append, h]
      rfl

/-- Among the gotos of an automaton, a new target agrees with the one that is there already. -/
theorem Faithful.previous_eq (h : c.Faithful demands) (hdemands : demands ⊆ a.gotoDemands)
    {asked : GotoDemand} (hasked : asked ∈ a.gotoDemands) {previous : StateIdx}
    (hprevious : c.tables.goto.get? asked.state asked.nonterminal = some previous) :
    previous = asked.target := by
  rw [h.get?_eq] at hprevious
  have hmem := hdemands (mem_of_lastTarget hprevious)
  exact Automaton.target_eq_of_mem_gotoDemands hmem hasked rfl rfl

/-- To meet a demand keeps the invariant, if all that is asked for are gotos of the automaton. -/
theorem Faithful.meet (h : c.Faithful demands) (hd : state.demand g item = .ok d)
    (hdemands : demands ++ (state.gotoDemand? item).toList ⊆ a.gotoDemands) :
    (c.meet state.index d).Faithful (demands ++ (state.gotoDemand? item).toList) := by
  refine ⟨fun s n => goto_meet h.get?_eq hd s n, ?_⟩
  cases d with
  | act t action => exact events_act h.events_eq state.index t action
  | goto n target =>
    rw [State.gotoDemand?_of_demand hd, Option.toList_some] at hdemands
    obtain ⟨hbefore, hasked⟩ := List.append_subset.mp hdemands
    have hkept : c.tables.goto.overwrite? state.index n target = none :=
      GotoTable.overwrite?_eq_none_iff.mpr fun previous =>
        h.previous_eq hbefore (hasked (List.mem_singleton.mpr rfl))
    have hevents : (c.goto state.index n target).events = c.events := by
      unfold Construction.goto
      rw [hkept]
    exact (congrArg Array.toList hevents).trans h.events_eq

/-- A run over items that ask for gotos of the automaton ends with the invariant. -/
theorem faithful_run {items : List (State × Item)}
    (hdemands : items.filterMap (fun p => p.1.gotoDemand? p.2) ⊆ a.gotoDemands)
    (hrun : run g items ⟨ParseTables.blank, #[]⟩ = (c, none)) :
    c.Faithful (items.filterMap fun p => p.1.gotoDemand? p.2) := by
  have hfaithful := run_preserves (fun p => p.1.gotoDemand? p.2)
    (fun c demands => demands ⊆ a.gotoDemands → c.Faithful demands)
    (fun _ _ _ _ _ h hd hsub => (h (List.append_subset.mp hsub).1).meet hd hsub)
    (fun _ => faithful_blank) hrun
  exact hfaithful hdemands

end Construction

/-! ## The log of finished tables -/

variable {a : Automaton} {g : Grammar} {tables : ParseTables}

/-- At every point of a construction, a target that is entered agrees with what its cell holds. -/
theorem previous_eq_of_run {before after : List (State × Item)} {s : State} {item : Item}
    {c : Construction} {n : Nat} {target previous : StateIdx}
    (hitems : a.items = before ++ (s, item) :: after)
    (hrun : Construction.run g before ⟨ParseTables.blank, #[]⟩ = (c, none))
    (hd : s.demand g item = .ok (.goto n target))
    (hprevious : c.tables.goto.get? s.index n = some previous) : previous = target := by
  have hbefore : before.filterMap (fun p => p.1.gotoDemand? p.2) ⊆ a.gotoDemands := by
    rw [Automaton.gotoDemands, hitems, List.filterMap_append]
    exact List.subset_append_left _ _
  have hasked : ⟨s.index, n, target⟩ ∈ a.gotoDemands := by
    refine List.mem_filterMap.mpr ⟨(s, item), ?_, State.gotoDemand?_of_demand hd⟩
    rw [hitems]
    exact List.mem_append_right _ List.mem_cons_self
  exact (Construction.faithful_run hbefore hrun).previous_eq hbefore hasked hprevious

/-- What is reported are the conflicts and the summary. -/
theorem events_of_build (h : (ParseTables.build a g).tables = .ok tables) :
    (ParseTables.build a g).events = tables.conflicts.toList.map .conflict ++
      [.built a.size tables.action.size tables.goto.size tables.conflicts.size] := by
  obtain ⟨c, hrun, rfl⟩ := run_of_build h
  have hfaithful := Construction.faithful_run (List.Subset.refl _) hrun
  unfold ParseTables.build
  rw [hrun, ← hfaithful.events_eq]

/-- A cell of the goto table holds the transition on its nonterminal, if some item of the state
reads that nonterminal. -/
theorem goto_eq_bind (h : (ParseTables.build a g).tables = .ok tables) (index : StateIdx)
    (n : Nat) :
    tables.goto.get? index n = (a.state? index).bind fun s =>
      if ∃ item ∈ s.items, item.next? = some (.nonterminal n) then
        s.transitions[Symbol.nonterminal n]?
      else none := by
  refine Option.ext fun target => ?_
  rw [goto_eq_some_iff h, Option.bind_eq_some_iff]
  exact exists_congr fun s => and_congr_right fun _ => Option.ite_none_right_eq_some.symm

/-- A cell of the goto table is filled exactly when some item of its state reads the nonterminal. -/
theorem isSome_goto_iff (h : (ParseTables.build a g).tables = .ok tables) (index : StateIdx)
    (n : Nat) :
    (tables.goto.get? index n).isSome ↔
      ∃ s, a.state? index = some s ∧ ∃ item ∈ s.items, item.next? = some (.nonterminal n) := by
  rw [Option.isSome_iff_exists]
  simp only [goto_eq_some_iff h]
  constructor
  · rintro ⟨target, s, hs, hreads, -⟩
    exact ⟨s, hs, hreads⟩
  · rintro ⟨s, hs, item, hitem, hnext⟩
    obtain ⟨d, hd⟩ := demand_of_build h (a.mem_of_state? hs).1 hitem
    cases d with
    | act t action => exact absurd hnext ((State.agrees_of_demand hd).2 n)
    | goto m target =>
      obtain ⟨hnext', htarget⟩ := State.demand_eq_goto_iff.mp hd
      cases hnext.symm.trans hnext'
      exact ⟨target, s, hs, ⟨item, hitem, hnext⟩, htarget⟩

/-- **What the construction tells is what it did.**  The goto table holds the transition on each
nonterminal that some item of the state reads, and nothing else; no target that was entered ever
gives way to a different one.  The log has a warning for each conflict, in order and in its words,
and then one line with the numbers of states, of filled cells and of conflicts. -/
theorem gotos_and_log_of_build (h : (ParseTables.build a g).tables = .ok tables) :
    (∀ index n, tables.goto.get? index n = (a.state? index).bind fun s =>
        if ∃ item ∈ s.items, item.next? = some (.nonterminal n) then
          s.transitions[Symbol.nonterminal n]?
        else none) ∧
      (∀ index n, (tables.goto.get? index n).isSome ↔
        ∃ s, a.state? index = some s ∧ ∃ item ∈ s.items, item.next? = some (.nonterminal n)) ∧
      (∀ before s item after c n target previous, a.items = before ++ (s, item) :: after →
        Construction.run g before ⟨ParseTables.blank, #[]⟩ = (c, none) →
        s.demand g item = .ok (.goto n target) →
        c.tables.goto.get? s.index n = some previous → previous = target) ∧
      (ParseTables.build a g).events.map BuildEvent.line =
        tables.conflicts.toList.map (fun c => ⟨.warn, tableLogSource, c.message⟩) ++
          [⟨.debug, tableLogSource,
            s!"built tables for {a.size} states: {tables.filledActions.ncard} actions, " ++
              s!"{tables.filledGotos.ncard} gotos, " ++
              s!"{tables.conflicts.size} conflicts"⟩] := by
  refine ⟨goto_eq_bind h, isSome_goto_iff h, fun before s item after c n target previous => ?_, ?_⟩
  · exact previous_eq_of_run
  · rw [events_of_build h, List.map_append, List.map_map, tables.ncard_filledActions,
      tables.ncard_filledGotos]
    simp only [Function.comp_def, List.map_cons, List.map_nil, BuildEvent.line, String.append_assoc]

/-! ### A goto that is asked for twice

Two items of state `0` read the same nonterminal, and the empty rule there clashes with the
letter. -/

/-- The automaton of these items. -/
def reread : Automaton where
  states := #[
    { index := initialState
      items := [
        ⟨⟨0, [.nonterminal 1]⟩, 0, .endMarker⟩,
        ⟨⟨0, [.nonterminal 1]⟩, 0, letterA⟩,
        ⟨⟨1, [.terminal letterA]⟩, 0, .endMarker⟩,
        ⟨.empty 1, 0, letterA⟩]
      transitions := ((∅ : Transitions).insert (.nonterminal 1) ⟨1, Nat.le_add_left 2 _⟩).insert
        (.terminal letterA) ⟨1, Nat.le_add_left 2 _⟩ },
    { index := ⟨1, Nat.le_add_left 2 _⟩
      items := [⟨⟨0, [.nonterminal 1]⟩, 1, .endMarker⟩]
      transitions := ∅ }]
  index_eq := Automaton.index_eq_of_misplaced? (by decide)
  transition_sound := Automaton.transition_sound_of_badTransition? (by decide)

theorem exists_run_reread :
    (∃ c, Construction.run optionalLetter reread.items ⟨.blank, #[]⟩ = (c, none)) ∧
      ∃ c, Construction.run optionalLetter (reread.items.take 1) ⟨.blank, #[]⟩ = (c, none) ∧
        c.tables.goto.get? initialState 1 = some ⟨1, by decide⟩ :=
  ⟨⟨_, Prod.ext rfl (by decide +kernel)⟩, _, Prod.ext rfl (by decide +kernel), by decide +kernel⟩

theorem gotos_and_log_of_build_reread :
    ∃ tables, (ParseTables.build reread optionalLetter).tables = .ok tables ∧
      tables.goto.get? initialState 1 = some ⟨1, by decide⟩ ∧
      tables.goto.get? ⟨1, by decide⟩ 1 = none ∧
      (∃ c, Construction.run optionalLetter (reread.items.take 1) ⟨.blank, #[]⟩ = (c, none) ∧
        c.tables.goto.get? initialState 1 = some ⟨1, by decide⟩ ∧
        ∀ previous, c.tables.goto.get? initialState 1 = some previous →
          previous = ⟨1, by decide⟩) ∧
      (ParseTables.build reread optionalLetter).events.map BuildEvent.line = [
        ⟨.warn, tableLogSource,
          "conflict in action table: state 0, terminal t0: [shift 1] vs [reduce 2]"⟩,
        ⟨.debug, tableLogSource,
          "built tables for 2 states: 2 actions, 1 gotos, 1 conflicts"⟩] := by
  obtain ⟨⟨c, hrun⟩, c', hrun', hfilled⟩ := exists_run_reread
  have htables : (ParseTables.build reread optionalLetter).tables = .ok c.tables := by
    unfold ParseTables.build
    rw [hrun]
  obtain ⟨hgoto, -, hkept, hlog⟩ := gotos_and_log_of_build htables
  refine ⟨c.tables, htables, ?_, ?_, ⟨c', hrun', hfilled, fun previous => ?_⟩, ?_⟩
  · rw [hgoto]
    decide +kernel
  · rw [hgoto]
    decide +kernel
  · exact hkept _ reread.states[0] reread.states[0].items[1] (reread.items.drop 2) c' 1 _ previous
      rfl hrun' (by decide +kernel)
  · have hc : c = (Construction.run optionalLetter reread.items ⟨.blank, #[]⟩).1 := by rw [hrun]
    rw [hlog, c.tables.ncard_filledActions, c.tables.ncard_filledGotos, hc]
    decide +kernel

end Parsing
end CompilerTables
