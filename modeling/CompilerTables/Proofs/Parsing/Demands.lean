import Mathlib.Data.List.Induction
import CompilerTables.Parsing.Construction
import CompilerTables.Proofs.Parsing.Transitions

/-!
# What the items of an automaton ask of the action table

The construction of the tables looks at one item at a time and enters what it finds.  This file says
what there is to find without mentioning a table.

* `State.actionDemand?` reads off the place of the dot which action an item asks for, and at which
  terminal.  `State.agrees_of_demand` compares it with the demand that the construction computes.
* `State.actionDemands` and `Automaton.actionDemands` list these in the order of items, and of
  states and items.  The part of the latter that lies in one state is the former
  (`Automaton.filter_actionDemands`).
* `firstAction` is the action that a list of demands asks for first in a cell.  It is computed from
  the front, so a demand that is appended changes it only where nothing was asked for before
  (`firstAction_append`).
-/

namespace CompilerTables
namespace Parsing

/-! ## The demand of an item -/

/-- An action asked for at a terminal in a state. -/
structure ActionDemand where
  state : StateIdx
  terminal : Terminal
  action : Action
  deriving DecidableEq

namespace Item

/-- Nothing is left to read: the dot is at or past the end of the body, or before `epsilon`. -/
def Completed (item : Item) : Prop :=
  item.production.length ≤ item.dot ∨ item.production.body[item.dot]? = some .epsilon

instance (item : Item) : Decidable item.Completed :=
  inferInstanceAs (Decidable (_ ∨ _))

theorem completed_iff_next? (item : Item) :
    item.Completed ↔ item.next? = none ∨ item.next? = some .epsilon := by
  rw [Completed, next?, List.getElem?_eq_none_iff, Production.length]

end Item

namespace State

variable {s : State} {g : Grammar} {item : Item} {d : Demand}

/-- The action that an item asks for.  A completed item asks to accept or to reduce, an item that
reads a terminal asks to shift, and an item that reads a nonterminal asks for nothing. -/
def actionDemand? (s : State) (g : Grammar) (item : Item) : Option ActionDemand :=
  if item.Completed then
    if item.lookahead = Terminal.endMarker ∧ item.production = g.augmentedProduction then
      some ⟨s.index, Terminal.endMarker, .accept⟩
    else (g.indexOf? item.production).map fun k => ⟨s.index, item.lookahead, .reduce k⟩
  else match item.next? with
    | some (.terminal t) => s.transitions[Symbol.terminal t]?.map fun j => ⟨s.index, t, .shift j⟩
    | _ => none

/-- What a demand has to do with the item that makes it: an action is the one the item asks for, and
a goto is the transition on the nonterminal that the item reads. -/
def Agrees (s : State) (g : Grammar) (item : Item) : Demand → Prop
  | .act t action =>
      s.actionDemand? g item = some ⟨s.index, t, action⟩ ∧ ∀ n, item.next? ≠ some (.nonterminal n)
  | .goto n target =>
      s.actionDemand? g item = none ∧ item.next? = some (.nonterminal n) ∧
        s.transitions[Symbol.nonterminal n]? = some target

theorem demand_of_completed (h : item.Completed) : s.demand g item = s.completedDemand g item := by
  rcases item.completed_iff_next?.mp h with hnext | hnext <;> simp only [demand, hnext]

/-- An item that is not completed demands the transition on the symbol that it reads. -/
theorem exists_readingDemand (h : ¬ item.Completed) :
    ∃ symbol demand, item.next? = some symbol ∧
      s.demand g item = s.readingDemand symbol demand := by
  rw [Item.completed_iff_next?, not_or] at h
  cases hnext : item.next? with
  | none => exact absurd hnext h.1
  | some symbol =>
    cases symbol with
    | epsilon => exact absurd hnext h.2
    | nonterminal n => exact ⟨_, .goto n, rfl, by simp only [demand, hnext]⟩
    | terminal t =>
      exact ⟨_, fun target => .act t (.shift target), rfl, by simp only [demand, hnext]⟩

theorem agrees_of_completedDemand (hitem : item.Completed)
    (h : s.completedDemand g item = .ok d) : s.Agrees g item d := by
  have hreads : ∀ n, item.next? ≠ some (.nonterminal n) := by
    intro n hn
    rw [Item.completed_iff_next?, hn] at hitem
    simp at hitem
  unfold completedDemand at h
  split at h
  · next haccept =>
    cases h
    exact ⟨by rw [actionDemand?, if_pos hitem, if_pos haccept], hreads⟩
  · next haccept =>
    split at h
    · next k hk =>
      cases h
      exact ⟨by rw [actionDemand?, if_pos hitem, if_neg haccept, hk, Option.map_some], hreads⟩
    · cases h

theorem target_of_readingDemand {symbol : Symbol} {demand : StateIdx → Demand}
    (h : s.readingDemand symbol demand = .ok d) :
    ∃ target, s.transitions[symbol]? = some target ∧ d = demand target := by
  unfold readingDemand at h
  split at h
  · next target htarget =>
    cases h
    exact ⟨target, htarget, rfl⟩
  · cases h

/-- Whatever demand of an item can be stated is the one that `actionDemand?` describes. -/
theorem agrees_of_demand (h : s.demand g item = .ok d) : s.Agrees g item d := by
  unfold demand at h
  split at h
  · next hnext =>
    exact agrees_of_completedDemand (item.completed_iff_next?.mpr (Or.inl hnext)) h
  · next hnext =>
    exact agrees_of_completedDemand (item.completed_iff_next?.mpr (Or.inr hnext)) h
  · next n hnext =>
    have hitem : ¬ item.Completed := by simp [Item.completed_iff_next?, hnext]
    obtain ⟨target, htarget, rfl⟩ := target_of_readingDemand h
    exact ⟨by simp only [actionDemand?, if_neg hitem, hnext], hnext, htarget⟩
  · next t hnext =>
    have hitem : ¬ item.Completed := by simp [Item.completed_iff_next?, hnext]
    obtain ⟨target, htarget, rfl⟩ := target_of_readingDemand h
    refine ⟨?_, fun n => by simp [hnext]⟩
    simp only [actionDemand?, if_neg hitem, hnext, htarget, Option.map_some]

/-- The three ways of asking for an action. -/
theorem actionDemand?_eq_some_iff {demand : ActionDemand} :
    s.actionDemand? g item = some demand ↔
      (item.Completed ∧ (item.lookahead = Terminal.endMarker ∧
          item.production = g.augmentedProduction) ∧
        demand = ⟨s.index, Terminal.endMarker, .accept⟩) ∨
      (item.Completed ∧ ¬ (item.lookahead = Terminal.endMarker ∧
          item.production = g.augmentedProduction) ∧
        ∃ k, g.indexOf? item.production = some k ∧
          demand = ⟨s.index, item.lookahead, .reduce k⟩) ∨
      ∃ t j, item.next? = some (.terminal t) ∧ s.transitions[Symbol.terminal t]? = some j ∧
        demand = ⟨s.index, t, .shift j⟩ := by
  constructor
  · intro h
    unfold actionDemand? at h
    split at h
    · next hitem =>
      split at h
      · next haccept => exact Or.inl ⟨hitem, haccept, (Option.some_inj.mp h).symm⟩
      · next haccept =>
        obtain ⟨k, hk, rfl⟩ := Option.map_eq_some_iff.mp h
        exact Or.inr (Or.inl ⟨hitem, haccept, k, hk, rfl⟩)
    · split at h
      · next t hnext =>
        obtain ⟨j, hj, rfl⟩ := Option.map_eq_some_iff.mp h
        exact Or.inr (Or.inr ⟨t, j, hnext, hj, rfl⟩)
      · cases h
  · rintro (⟨hitem, haccept, rfl⟩ | ⟨hitem, haccept, k, hk, rfl⟩ | ⟨t, j, hnext, hj, rfl⟩)
    · rw [actionDemand?, if_pos hitem, if_pos haccept]
    · rw [actionDemand?, if_pos hitem, if_neg haccept, hk, Option.map_some]
    · have hitem : ¬ item.Completed := by simp [Item.completed_iff_next?, hnext]
      simp only [actionDemand?, if_neg hitem, hnext, hj, Option.map_some]

theorem state_of_actionDemand? {demand : ActionDemand} (h : s.actionDemand? g item = some demand) :
    demand.state = s.index := by
  rcases actionDemand?_eq_some_iff.mp h with ⟨-, -, rfl⟩ | ⟨-, -, k, -, rfl⟩ | ⟨t, j, -, -, rfl⟩ <;>
    rfl

/-- What the items of a state ask for, in the order of items. -/
def actionDemands (s : State) (g : Grammar) : List ActionDemand :=
  s.items.filterMap (s.actionDemand? g)

theorem state_of_mem_actionDemands {demand : ActionDemand} (h : demand ∈ s.actionDemands g) :
    demand.state = s.index := by
  obtain ⟨item, -, hitem⟩ := List.mem_filterMap.mp h
  exact state_of_actionDemand? hitem

/-- The demands of a state all lie in that state. -/
theorem filter_actionDemands (s : State) (g : Grammar) (index : StateIdx) :
    (s.actionDemands g).filter (fun d => d.state = index) =
      if s.index = index then s.actionDemands g else [] := by
  split
  · next heq =>
    refine List.filter_eq_self.mpr fun d hd => ?_
    rw [state_of_mem_actionDemands hd, heq, decide_eq_true rfl]
  · next hne =>
    refine List.filter_eq_nil_iff.mpr fun d hd => ?_
    rw [state_of_mem_actionDemands hd, decide_eq_true_eq]
    exact hne

end State

/-! ## The demands of an automaton -/

namespace Automaton

/-- What all items ask for, in the order of states and of items. -/
def actionDemands (a : Automaton) (g : Grammar) : List ActionDemand :=
  a.states.toList.flatMap fun s => s.actionDemands g

/-- What the items of the state at an index ask for; no state, no demand. -/
def actionDemandsAt (a : Automaton) (g : Grammar) (index : StateIdx) : List ActionDemand :=
  match a.state? index with
  | some s => s.actionDemands g
  | none => []

theorem actionDemands_eq_filterMap_items (a : Automaton) (g : Grammar) :
    a.actionDemands g = a.items.filterMap fun p => p.1.actionDemand? g p.2 := by
  rw [actionDemands, items, List.filterMap_flatMap]
  congr 1
  funext s
  rw [State.actionDemands, List.filterMap_map]
  rfl

/-- Among states that carry their positions, the demands made in one state are those of the state
at that position. -/
theorem filter_flatMap_actionDemands (g : Grammar) (index : StateIdx) (states : List State)
    (hindex : ∀ (k : Nat) (s : State), states[k]? = some s → s.index.toNat = k) :
    (states.flatMap fun s => s.actionDemands g).filter (fun d => d.state = index) =
      states[index.toNat]?.elim [] fun s => s.actionDemands g := by
  induction states using List.reverseRecOn with
  | nil => rfl
  | append_singleton states s ih =>
    have hs : s.index.toNat = states.length := hindex states.length s (by simp)
    have hbefore : ∀ (k : Nat) (s' : State), states[k]? = some s' → s'.index.toNat = k := by
      intro k s' hk
      refine hindex k s' ?_
      rw [List.getElem?_append_left (List.getElem?_eq_some_iff.mp hk).1, hk]
    rw [List.flatMap_append, List.filter_append, ih hbefore, List.flatMap_singleton,
      State.filter_actionDemands]
    -- the last state is the one at the index, or it has no demand there
    by_cases heq : s.index = index
    · rw [if_pos heq, ← heq, hs, List.getElem?_eq_none (Nat.le_refl _),
        List.getElem?_concat_length]
      rfl
    · have hne : index.toNat ≠ states.length := fun h => heq (Index.ext (hs.trans h.symm))
      have hget : (states ++ [s])[index.toNat]? = states[index.toNat]? := by
        rcases Nat.lt_or_gt_of_ne hne with hlt | hgt
        · exact List.getElem?_append_left hlt
        · rw [List.getElem?_eq_none (Nat.le_of_lt hgt), List.getElem?_eq_none]
          rw [List.length_append, List.length_singleton]
          omega
      rw [if_neg heq, List.append_nil, hget]

theorem filter_actionDemands (a : Automaton) (g : Grammar) (index : StateIdx) :
    (a.actionDemands g).filter (fun d => d.state = index) = a.actionDemandsAt g index := by
  have hindex : ∀ (k : Nat) (s : State), a.states.toList[k]? = some s → s.index.toNat = k := by
    intro k s hk
    rw [Array.getElem?_toList] at hk
    obtain ⟨hlt, rfl⟩ := Array.getElem?_eq_some_iff.mp hk
    exact a.index_eq k hlt
  rw [actionDemands, filter_flatMap_actionDemands g index _ hindex, actionDemandsAt, state?,
    Array.getElem?_toList]
  cases a.states[index.toNat]? <;> rfl

theorem mem_items_iff {a : Automaton} {s : State} {item : Item} :
    (s, item) ∈ a.items ↔ s ∈ a.states ∧ item ∈ s.items := by
  rw [items, List.mem_flatMap]
  constructor
  · rintro ⟨s', hs', hmem⟩
    obtain ⟨item', hitem', heq⟩ := List.mem_map.mp hmem
    cases heq
    exact ⟨Array.mem_toList_iff.mp hs', hitem'⟩
  · rintro ⟨hs, hitem⟩
    exact ⟨s, Array.mem_toList_iff.mpr hs, List.mem_map_of_mem hitem⟩

/-- A demand is made by an item of the state that it speaks of. -/
theorem mem_actionDemands_iff (a : Automaton) (g : Grammar) (d : ActionDemand) :
    d ∈ a.actionDemands g ↔
      ∃ s, a.state? d.state = some s ∧ ∃ item ∈ s.items, s.actionDemand? g item = some d := by
  rw [actionDemands, List.mem_flatMap]
  constructor
  · rintro ⟨s, hs, hd⟩
    obtain ⟨item, hitem, hdemand⟩ := List.mem_filterMap.mp hd
    refine ⟨s, ?_, item, hitem, hdemand⟩
    rw [State.state_of_actionDemand? hdemand]
    exact a.state?_index (Array.mem_toList_iff.mp hs)
  · rintro ⟨s, hs, item, hitem, hdemand⟩
    exact ⟨s, Array.mem_toList_iff.mpr (a.mem_of_state? hs).1,
      List.mem_filterMap.mpr ⟨item, hitem, hdemand⟩⟩

end Automaton

/-! ## The first action of a cell -/

/-- The action that is asked for first at a terminal in a state. -/
def firstAction (demands : List ActionDemand) (s : StateIdx) (t : Terminal) : Option Action :=
  (demands.find? fun d => d.state = s ∧ d.terminal = t).map ActionDemand.action

section firstAction

variable {demands : List ActionDemand} {s : StateIdx} {t : Terminal} {action : Action}

theorem firstAction_append (demands later : List ActionDemand) (s : StateIdx) (t : Terminal) :
    firstAction (demands ++ later) s t = (firstAction demands s t).or (firstAction later s t) := by
  unfold firstAction
  rw [List.find?_append]
  cases demands.find? fun d => d.state = s ∧ d.terminal = t <;> rfl

theorem firstAction_singleton (d : ActionDemand) (s : StateIdx) (t : Terminal) :
    firstAction [d] s t = if d.state = s ∧ d.terminal = t then some d.action else none := by
  by_cases h : d.state = s ∧ d.terminal = t <;> simp [firstAction, h]

theorem firstAction_eq_none_iff :
    firstAction demands s t = none ↔ ∀ action, ⟨s, t, action⟩ ∉ demands := by
  rw [firstAction, Option.map_eq_none_iff, List.find?_eq_none]
  constructor
  · intro h action hmem
    exact h _ hmem (decide_eq_true ⟨rfl, rfl⟩)
  · intro h d hd hcell
    obtain ⟨rfl, rfl⟩ := of_decide_eq_true hcell
    exact h d.action hd

theorem mem_of_firstAction (h : firstAction demands s t = some action) :
    ⟨s, t, action⟩ ∈ demands := by
  obtain ⟨d, hd, rfl⟩ := Option.map_eq_some_iff.mp h
  have hcell := List.find?_some hd
  obtain ⟨rfl, rfl⟩ := of_decide_eq_true hcell
  exact List.mem_of_find?_eq_some hd

theorem exists_firstAction_of_mem {d : ActionDemand} (h : d ∈ demands) :
    ∃ kept, firstAction demands d.state d.terminal = some kept := by
  cases hfirst : firstAction demands d.state d.terminal with
  | none => exact absurd h (firstAction_eq_none_iff.mp hfirst d.action)
  | some kept => exact ⟨kept, rfl⟩

/-- A demand for a cell that nothing was asked for in comes first there. -/
theorem firstAction_append_of_empty {d : ActionDemand}
    (h : firstAction demands d.state d.terminal = none) (s : StateIdx) (t : Terminal) :
    firstAction (demands ++ [d]) s t =
      if d.state = s ∧ d.terminal = t then some d.action else firstAction demands s t := by
  rw [firstAction_append, firstAction_singleton]
  split
  · next hcell => rw [← hcell.1, ← hcell.2, h, Option.none_or]
  · rw [Option.or_none]

/-- A demand for a cell that something was asked for in before comes too late. -/
theorem firstAction_append_of_filled {d : ActionDemand} {kept : Action}
    (h : firstAction demands d.state d.terminal = some kept) (s : StateIdx) (t : Terminal) :
    firstAction (demands ++ [d]) s t = firstAction demands s t := by
  rw [firstAction_append, firstAction_singleton]
  split
  · next hcell => rw [← hcell.1, ← hcell.2, h, Option.some_or]
  · rw [Option.or_none]

/-- Restricting the demands to one state does not change what comes first there. -/
theorem firstAction_eq_find?_filter (demands : List ActionDemand) (s : StateIdx) (t : Terminal) :
    firstAction demands s t =
      ((demands.filter fun d => d.state = s).find? fun d => d.terminal = t).map
        ActionDemand.action := by
  rw [firstAction, List.find?_filter]
  congr 2
  funext d
  simp

end firstAction

end Parsing
end CompilerTables
