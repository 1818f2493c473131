import CompilerTables.Proofs.Outcome
import CompilerTables.Proofs.Parsing.Gotos
import CompilerTables.Proofs.Parsing.Obstacles

/-!
# The rows of the tables

What is known of the two tables speaks of two lists, the actions that are asked for and the gotos
that are asked for.  Here a row is read off one list, the demands of the items of its state in the
order of items (`State.demands`).  A cell of the action table holds the first action demanded at its
terminal (`action_eq_findSome?`), and a cell of the goto table the target that is demanded for its
nonterminal (`goto_eq_some_iff_mem`).
-/

namespace CompilerTables
namespace Parsing

/-- The action that is demanded at a terminal. -/
def Demand.actionAt? (t : Terminal) : Demand → Option Action
  | act t' action => if t' = t then some action else none
  | goto _ _ => none

theorem Item.isCompleted_iff {item : Item} : item.isCompleted = true ↔ item.Completed := by
  rw [item.completed_iff_next?, isCompleted]
  cases item.next? with
  | none => simp
  | some symbol => simp

namespace State

variable {s : State} {g : Grammar} {item : Item} {d : Demand}

/-- The demands of the items of a state, in the order of items. -/
def demands (s : State) (g : Grammar) : List Demand :=
  s.items.filterMap fun item => (s.demand g item).toOption

theorem mem_demands_iff : d ∈ s.demands g ↔ ∃ item ∈ s.items, s.demand g item = .ok d := by
  rw [demands, List.mem_filterMap]
  exact exists_congr fun item => and_congr_right fun _ => toOption_eq_some_iff

/-- A completed item of the production with a number demands to accept, if this is the augmented one
and the lookahead is the end of the input, and else to reduce by that number. -/
theorem completedDemand_eq {k : Nat} (h : g.production? k = some item.production) :
    s.completedDemand g item =
      .ok (if item.lookahead = Terminal.endMarker ∧ k = g.augmented then
        .act Terminal.endMarker .accept
      else .act item.lookahead (.reduce k)) := by
  rw [completedDemand, Grammar.indexOf?_eq_some_iff.mpr h]
  simp only [Grammar.eq_augmentedProduction_iff h]
  split <;> rfl

/-- With its production in the grammar, the demand of an item cannot be stated only when its state
has no transition on the symbol that it reads. -/
theorem missingTransition_of_demand {k : Nat} (hproduction : g.production? k = some item.production)
    {e : TableError} (h : s.demand g item = .error e) :
    ∃ symbol, item.next? = some symbol ∧ s.transitions[symbol]? = none ∧
      e = .missingTransition s.index symbol := by
  cases demand_eq_error_iff.mp h with
  | unknownProduction _ hunknown => exact absurd (Array.mem_of_getElem? hproduction) hunknown
  | missingTransition _ hnext hmissing => exact ⟨_, hnext, hmissing, rfl⟩

/-- An item demands a goto when it reads the nonterminal, and then the transition on it. -/
theorem demand_eq_goto_iff {n : Nat} {target : StateIdx} :
    s.demand g item = .ok (.goto n target) ↔
      item.next? = some (.nonterminal n) ∧ s.transitions[Symbol.nonterminal n]? = some target := by
  constructor
  · exact fun h => (agrees_of_demand h).2
  · rintro ⟨hnext, htarget⟩
    simp only [demand, hnext, readingDemand, successor?, htarget]

/-- The action that a demand enters at a terminal is the one that the item asks for there. -/
theorem actionAt?_eq_of_demand (h : s.demand g item = .ok d) (t : Terminal) :
    d.actionAt? t =
      (s.actionDemand? g item).bind fun asked =>
        if asked.terminal = t then some asked.action else none := by
  have hagrees := agrees_of_demand h
  cases d with
  | act t' action =>
    rw [hagrees.1, Option.bind_some]
    rfl
  | goto n target =>
    rw [hagrees.1, Option.bind_none]
    rfl

/-- A demand that can be stated is for an action when the item asks for that action. -/
theorem demand_eq_act_iff (h : ∃ d, s.demand g item = .ok d) {t : Terminal} {action : Action} :
    s.demand g item = .ok (.act t action) ↔
      s.actionDemand? g item = some ⟨s.index, t, action⟩ := by
  obtain ⟨d, hd⟩ := h
  have hagrees := agrees_of_demand hd
  rw [hd, Except.ok.injEq]
  cases d with
  | act t' action' =>
    rw [hagrees.1, Option.some_inj, ActionDemand.mk.injEq, Demand.act.injEq]
    exact (and_iff_right rfl).symm
  | goto n target =>
    rw [hagrees.1]
    exact iff_of_false nofun nofun

/-- If every demand of a state can be stated, the first action asked for at a terminal is the first
one demanded there. -/
theorem find?_actionDemands (h : ∀ item ∈ s.items, ∃ d, s.demand g item = .ok d) (t : Terminal) :
    ((s.actionDemands g).find? fun asked => asked.terminal = t).map ActionDemand.action =
      (s.demands g).findSome? (Demand.actionAt? t) := by
  have hguard : Option.map ActionDemand.action ∘ Option.guard (fun asked => asked.terminal = t) =
      fun asked : ActionDemand => if asked.terminal = t then some asked.action else none := by
    funext asked
    by_cases hterminal : asked.terminal = t <;> simp [hterminal, Option.guard]
  rw [List.find?_eq_findSome?_guard, List.map_findSome?, hguard, ← List.head?_filterMap,
    ← List.head?_filterMap, actionDemands, demands, List.filterMap_filterMap,
    List.filterMap_filterMap]
  refine congrArg List.head? (List.filterMap_congr fun item hitem => ?_)
  obtain ⟨d, hd⟩ := h item hitem
  rw [hd, ← actionAt?_eq_of_demand hd]
  rfl

end State

section Build

variable {a : Automaton} {g : Grammar} {tables : ParseTables} {index : StateIdx}

/-- Once tables are built, every item has a demand. -/
theorem demand_of_build (h : (ParseTables.build a g).tables = .ok tables) {s : State}
    (hs : s ∈ a.states) {item : Item} (hitem : item ∈ s.items) :
    ∃ d, s.demand g item = .ok d :=
  exists_tables_iff.mp ⟨tables, h⟩ (s, item) (Automaton.mem_items_iff.mpr ⟨hs, hitem⟩)

/-- What stands in a cell of the action table: the first action demanded at its terminal by the
items of its state, and nothing if there is no such state. -/
theorem action_eq_findSome? (h : (ParseTables.build a g).tables = .ok tables) (t : Terminal) :
    tables.action.get? index t =
      (a.state? index).bind fun s => (s.demands g).findSome? (Demand.actionAt? t) := by
  rw [(answers_of_build h).get?_eq, firstAction_eq_find?_filter, Automaton.filter_actionDemands,
    Automaton.actionDemandsAt]
  cases hs : a.state? index with
  | none => rfl
  | some s =>
    exact s.find?_actionDemands (fun item => demand_of_build h (a.mem_of_state? hs).1) t

/-- What stands in a cell of the goto table: the target that an item of its state demands. -/
theorem goto_eq_some_iff_mem (h : (ParseTables.build a g).tables = .ok tables) {n : Nat}
    {target : StateIdx} :
    tables.goto.get? index n = some target ↔
      ∃ s, a.state? index = some s ∧ .goto n target ∈ s.demands g := by
  rw [goto_eq_some_iff h]
  refine exists_congr fun s => and_congr_right fun _ => ?_
  simp only [State.mem_demands_iff, State.demand_eq_goto_iff]
  exact ⟨fun ⟨⟨item, hitem, hnext⟩, htarget⟩ => ⟨item, hitem, hnext, htarget⟩,
    fun ⟨item, hitem, hnext, htarget⟩ => ⟨⟨item, hitem, hnext⟩, htarget⟩⟩

end Build

end Parsing
end CompilerTables
