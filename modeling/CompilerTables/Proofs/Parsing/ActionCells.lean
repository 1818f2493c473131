import CompilerTables.Proofs.Outcome
import CompilerTables.Proofs.Parsing.Filling

/-!
# The cells of the action table and the conflicts

The two statements about what a construction leaves behind.  A cell holds the first action that its
state's items ask for there, and is empty if they ask for none (`action_eq_first_demand`).  The
conflicts are the demands that differ from the first one of their cell, without repetitions, in the
order in which they are made (`conflicts_eq_differing_demands`).

Both are applied to one small automaton with an inner `epsilon`, dots past the end, and several
copies of one item.
-/

namespace CompilerTables
namespace Parsing

variable {a : Automaton} {g : Grammar} {tables : ParseTables}

/-! ## Cells -/

/-- **A cell holds the first demand of its state.**  It is empty exactly if the state has no demand
there, in particular if there is no such state; and only the items that read a nonterminal demand
nothing. -/
theorem action_eq_first_demand (h : (ParseTables.build a g).tables = .ok tables)
    (index : StateIdx) (t : Terminal) :
    tables.action.get? index t =
        ((a.actionDemandsAt g index).find? fun d => d.terminal = t).map ActionDemand.action ∧
      (tables.action.get? index t = none ↔ ∀ d ∈ a.actionDemandsAt g index, d.terminal ≠ t) ∧
      (a.state? index = none → tables.action.get? index t = none) ∧
      ∀ s, a.state? index = some s → ∀ item ∈ s.items,
        (∃ d, s.actionDemand? g item = some d) ↔ ∀ n, item.next? ≠ some (.nonterminal n) := by
  have hcell : tables.action.get? index t =
      ((a.actionDemandsAt g index).find? fun d => d.terminal = t).map ActionDemand.action := by
    rw [(answers_of_build h).get?_eq, firstAction_eq_find?_filter, Automaton.filter_actionDemands]
  have hnone : tables.action.get? index t = none ↔
      ∀ d ∈ a.actionDemandsAt g index, d.terminal ≠ t := by
    rw [hcell, Option.map_eq_none_iff, List.find?_eq_none]
    simp only [decide_eq_true_eq, ne_eq]
  refine ⟨hcell, hnone, fun hstate => hnone.mpr fun d hd => ?_, fun s hs item hitem => ?_⟩
  · rw [Automaton.actionDemandsAt, hstate] at hd
    exact absurd hd List.not_mem_nil
  · exact actionDemand?_of_build h (Array.mem_of_getElem? hs) hitem

/-! ### An automaton with clashes

State `0` wants to shift `a`, to reduce by the empty rule three times over, once with the dot far
past the end, and to reduce by a rule whose dot stands before an inner `epsilon`.  State `1` wants
to accept and to reduce. -/

/-- The only letter of the examples. -/
def letterA : Terminal := ⟨0, by decide⟩

/-- The rules `S' → S`, `S → a`, `S → ε` and `S → a ε a`, the first of them augmented. -/
def optionalLetter : Grammar where
  nonterminalNames := #["S'", "S"]
  terminalNames := #["a"]
  productions := #[
    ⟨0, [.nonterminal 1]⟩,
    ⟨1, [.terminal letterA]⟩,
    .empty 1,
    ⟨1, [.terminal letterA, .epsilon, .terminal letterA]⟩]
  augmented := 0
  augmented_lt := by decide
  declared := by decide
  nodup := by decide

/-- Two states that demand several actions for one cell. -/
def clashingStates : Array State := #[
  { index := ⟨0, by decide⟩
    items := [
      ⟨⟨0, [.nonterminal 1]⟩, 0, .endMarker⟩,
      ⟨⟨1, [.terminal letterA]⟩, 0, .endMarker⟩,
      ⟨.empty 1, 0, letterA⟩,
      ⟨.empty 1, 1, letterA⟩,
      ⟨.empty 1, 7, letterA⟩,
      ⟨⟨1, [.terminal letterA, .epsilon, .terminal letterA]⟩, 1, letterA⟩]
    transitions := ((∅ : Transitions).insert (.nonterminal 1) ⟨1, by decide⟩).insert
      (.terminal letterA) ⟨1, by decide⟩ },
  { index := ⟨1, by decide⟩
    items := [
      ⟨⟨0, [.nonterminal 1]⟩, 1, .endMarker⟩,
      ⟨⟨1, [.terminal letterA]⟩, 1, .endMarker⟩]
    transitions := ∅ }]

/-- The automaton of these two states. -/
def clashing : Automaton where
  states := clashingStates
  index_eq := Automaton.index_eq_of_misplaced? (by decide)
  transition_sound := Automaton.transition_sound_of_badTransition? (by decide)

theorem exists_tables_clashing :
    ∃ tables, (ParseTables.build clashing optionalLetter).tables = .ok tables :=
  exists_ok_of_isSome (by decide +kernel)

theorem action_eq_first_demand_clashing :
    ∃ tables, (ParseTables.build clashing optionalLetter).tables = .ok tables ∧
      tables.action.get? ⟨0, by decide⟩ letterA = some (.shift ⟨1, by decide⟩) ∧
      tables.action.get? ⟨0, by decide⟩ Terminal.endMarker = none ∧
      tables.action.get? ⟨1, by decide⟩ Terminal.endMarker = some .accept ∧
      tables.action.get? ⟨2, by decide⟩ letterA = none := by
  obtain ⟨tables, htables⟩ := exists_tables_clashing
  refine ⟨tables, htables, ?_, ?_, ?_, (action_eq_first_demand htables _ _).2.2.1 (by decide)⟩
  · rw [(action_eq_first_demand htables _ _).1]
    decide +kernel
  · rw [(action_eq_first_demand htables _ _).2.1]
    decide +kernel
  · rw [(action_eq_first_demand htables _ _).1]
    decide +kernel

/-! ## Conflicts -/

/-- **The conflicts are the differing demands.**  Walking over all demands in order, those are
rejected that differ from the first action of their cell, each at its first occurrence; a conflict
keeps the first action of its cell, which is the one in the table.  So no differing demand is lost,
none is rejected twice, and there is no conflict exactly when the demands of every cell agree. -/
theorem conflicts_eq_differing_demands (h : (ParseTables.build a g).tables = .ok tables) :
    tables.conflicts.toList.map Conflict.demand =
        ((a.actionDemands g).eraseDups.filter fun d =>
          firstAction (a.actionDemands g) d.state d.terminal ≠ some d.action) ∧
      (∀ c ∈ tables.conflicts,
        firstAction (a.actionDemands g) c.state c.terminal = some c.kept ∧
          tables.action.get? c.state c.terminal = some c.kept) ∧
      (∀ d ∈ a.actionDemands g, tables.action.get? d.state d.terminal ≠ some d.action →
        ∃ c ∈ tables.conflicts, c.demand = d) ∧
      (tables.conflicts.toList.map Conflict.demand).Nodup ∧
      (tables.isDeterministic = true ↔
        ∀ d ∈ a.actionDemands g, ∀ e ∈ a.actionDemands g,
          d.state = e.state → d.terminal = e.terminal → d.action = e.action) := by
  have hanswers := answers_of_build h
  have hconflicts := hanswers.conflicts_eq
  have hkept : ∀ c ∈ tables.conflicts,
      firstAction (a.actionDemands g) c.state c.terminal = some c.kept := by
    intro c hc
    rw [← Array.mem_toList_iff, hconflicts] at hc
    exact (mem_recordedConflicts_iff.mp hc).1
  refine ⟨?_, fun c hc => ⟨hkept c hc, ?_⟩, fun d hd hdiffers => ?_, ?_, ?_⟩
  · rw [hconflicts, map_demand_recordedConflicts]
  · rw [hanswers.get?_eq]
    exact hkept c hc
  · obtain ⟨kept, hfirst⟩ := exists_firstAction_of_mem hd
    rw [hanswers.get?_eq, hfirst, ne_eq, Option.some_inj] at hdiffers
    refine ⟨⟨d.state, d.terminal, kept, d.action⟩, ?_, rfl⟩
    rw [← Array.mem_toList_iff, hconflicts]
    exact mem_recordedConflicts_iff.mpr ⟨hfirst, hdiffers, hd⟩
  · rw [hconflicts]
    exact nodup_map_demand_recordedConflicts _
  · rw [← recordedConflicts_eq_nil_iff, ← hconflicts, ParseTables.isDeterministic,
      Array.isEmpty_iff, Array.toList_eq_nil_iff]

theorem conflicts_eq_differing_demands_clashing :
    ∃ tables, (ParseTables.build clashing optionalLetter).tables = .ok tables ∧
      tables.conflicts.toList.map Conflict.demand = [
        ⟨⟨0, by decide⟩, letterA, .reduce 2⟩,
        ⟨⟨0, by decide⟩, letterA, .reduce 3⟩,
        ⟨⟨1, by decide⟩, Terminal.endMarker, .reduce 1⟩] := by
  obtain ⟨tables, htables⟩ := exists_tables_clashing
  refine ⟨tables, htables, ?_⟩
  rw [(conflicts_eq_differing_demands htables).1]
  decide +kernel

end Parsing
end CompilerTables
