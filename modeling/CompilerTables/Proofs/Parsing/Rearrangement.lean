import CompilerTables.Proofs.Parsing.ActionCells
import CompilerTables.Proofs.Parsing.ConflictCounts
import CompilerTables.Proofs.Parsing.Gotos

/-!
# Rearranging the items of an automaton

A grammar analysis is free to list the items of a state in any order, to list one of them twice, and
to give an item that still has something to read any number of lookaheads.  This file says what of
the tables survives such a rearrangement (`rearranged_tables_agree`): whether there are tables, the
goto table, which cells of the action table are filled, and how many conflicts there are in each
cell.  The kept actions do change with the order, but only where there is a conflict.

`Rearranged` lists the changes that are allowed.  What they have in common is that they keep the
cores of the items, where the core of an item is all of it but a lookahead that is not looked at
(`rearranged_iff`).  The demand of an item depends on its core alone (`State.demand_congr`), and
everything that survives depends on the set of demands alone.
-/

namespace CompilerTables
namespace Parsing

/-! ## The core of an item -/

/-- What the tables can see of an item: its lookahead counts only when nothing is left to read. -/
structure ItemCore where
  production : Production
  dot : Nat
  lookahead? : Option Terminal
  deriving DecidableEq

namespace Item

/-- The core of an item. -/
def core (item : Item) : ItemCore :=
  ⟨item.production, item.dot, if item.Completed then some item.lookahead else none⟩

variable {x y : Item}

theorem next?_eq_of_core_eq (h : x.core = y.core) : x.next? = y.next? := by
  have hproduction : x.production = y.production := congrArg ItemCore.production h
  have hdot : x.dot = y.dot := congrArg ItemCore.dot h
  rw [next?, next?, hproduction, hdot]

theorem completed_iff_of_core_eq (h : x.core = y.core) : x.Completed ↔ y.Completed := by
  rw [completed_iff_next?, completed_iff_next?, next?_eq_of_core_eq h]

/-- A completed item has no other item's core. -/
theorem eq_of_core_eq (h : x.core = y.core) (hx : x.Completed) : x = y := by
  have hy : y.Completed := (completed_iff_of_core_eq h).mp hx
  obtain ⟨production, dot, lookahead⟩ := x
  obtain ⟨production', dot', lookahead'⟩ := y
  simp only [core, if_pos hx, if_pos hy, ItemCore.mk.injEq, Option.some_inj] at h
  obtain ⟨rfl, rfl, rfl⟩ := h
  rfl

/-- Another lookahead does not change the core of an item with something left to read. -/
theorem core_with_lookahead (hx : ¬ x.Completed) (t : Terminal) :
    { x with lookahead := t }.core = x.core := by
  have hcopy : ¬ { x with lookahead := t }.Completed := hx
  rw [core, core, if_neg hx, if_neg hcopy]

/-- An item with something left to read is another one of the same core with its lookahead
changed. -/
theorem eq_with_lookahead_of_core_eq (h : x.core = y.core) :
    y = { x with lookahead := y.lookahead } := by
  have hproduction : x.production = y.production := congrArg ItemCore.production h
  have hdot : x.dot = y.dot := congrArg ItemCore.dot h
  rw [hproduction, hdot]

end Item

/-! ## Rearranging -/

/-- Lists of items that differ in order, in repetitions, and in the lookaheads under which they have
an item with something left to read. -/
inductive Rearranged : List Item → List Item → Prop where
  | perm {xs ys : List Item} (h : xs.Perm ys) : Rearranged xs ys
  | again {x : Item} {xs : List Item} (hx : x ∈ xs) : Rearranged xs (x :: xs)
  | lookaheadCopy {x : Item} {xs : List Item} (hx : x ∈ xs) (hreads : ¬ x.Completed)
      (t : Terminal) : Rearranged xs ({ x with lookahead := t } :: xs)
  | symm {xs ys : List Item} (h : Rearranged xs ys) : Rearranged ys xs
  | trans {xs ys zs : List Item} (h : Rearranged xs ys) (h' : Rearranged ys zs) : Rearranged xs zs

namespace Rearranged

variable {xs ys : List Item}

/-- No change adds or removes a core. -/
theorem mem_map_core_iff (h : Rearranged xs ys) (core : ItemCore) :
    core ∈ xs.map Item.core ↔ core ∈ ys.map Item.core := by
  induction h with
  | perm h => exact (h.map _).mem_iff
  | again hx =>
    rw [List.map_cons, List.mem_cons]
    constructor
    · exact Or.inr
    · rintro (rfl | hmem)
      · exact List.mem_map_of_mem hx
      · exact hmem
  | lookaheadCopy hx hreads t =>
    rw [List.map_cons, List.mem_cons, Item.core_with_lookahead hreads]
    constructor
    · exact Or.inr
    · rintro (rfl | hmem)
      · exact List.mem_map_of_mem hx
      · exact hmem
  | symm _ ih => exact ih.symm
  | trans _ _ ih ih' => exact ih.trans ih'

/-- Items whose cores are there may be added. -/
theorem append_left (h : ∀ y ∈ ys, y.core ∈ xs.map Item.core) : Rearranged xs (ys ++ xs) := by
  induction ys with
  | nil => exact perm (List.Perm.refl xs)
  | cons y ys ih =>
    have hrest : Rearranged xs (ys ++ xs) := ih fun z hz => h z (List.mem_cons_of_mem y hz)
    refine hrest.trans ?_
    obtain ⟨x, hx, hcore⟩ := List.mem_map.mp (h y List.mem_cons_self)
    have hmem : x ∈ ys ++ xs := List.mem_append_right ys hx
    by_cases hcompleted : x.Completed
    · rw [← Item.eq_of_core_eq hcore hcompleted]
      exact again hmem
    · rw [Item.eq_with_lookahead_of_core_eq hcore]
      exact lookaheadCopy hmem hcompleted _

end Rearranged

/-- The changes that are allowed are those that add and remove no core. -/
theorem rearranged_iff {xs ys : List Item} :
    Rearranged xs ys ↔
      (∀ x ∈ xs, x.core ∈ ys.map Item.core) ∧ ∀ y ∈ ys, y.core ∈ xs.map Item.core := by
  constructor
  · intro h
    exact ⟨fun x hx => (h.mem_map_core_iff x.core).mp (List.mem_map_of_mem hx),
      fun y hy => (h.mem_map_core_iff y.core).mpr (List.mem_map_of_mem hy)⟩
  · rintro ⟨hxs, hys⟩
    have hleft : Rearranged xs (ys ++ xs) := Rearranged.append_left hys
    have hright : Rearranged ys (xs ++ ys) := Rearranged.append_left hxs
    exact (hleft.trans (Rearranged.perm List.perm_append_comm)).trans hright.symm

instance (xs ys : List Item) : Decidable (Rearranged xs ys) :=
  decidable_of_iff _ rearranged_iff.symm

/-- States with the same transitions and rearranged items. -/
structure State.Rearranged (s s' : State) : Prop where
  transitions_eq : s.transitions = s'.transitions
  items : Parsing.Rearranged s.items s'.items

/-- Automata with equally many states that are, one by one, rearrangements of each other. -/
def Automaton.Rearranged (a b : Automaton) : Prop :=
  List.Forall₂ State.Rearranged a.states.toList b.states.toList

/-! ## What a rearrangement keeps -/

namespace State

variable {s s' : State} {x y : Item}

/-- The demand of an item depends on its core, and on the index and the transitions of its
state. -/
theorem demand_congr (g : Grammar) (hindex : s.index = s'.index)
    (htransitions : s.transitions = s'.transitions) (hcore : x.core = y.core) :
    s.demand g x = s'.demand g y := by
  have hreading : ∀ symbol demand,
      s.readingDemand symbol demand = s'.readingDemand symbol demand := by
    intro symbol demand
    rw [readingDemand, readingDemand, successor?, successor?, hindex, htransitions]
  have hcompleted : x.Completed → s.completedDemand g x = s'.completedDemand g y := by
    intro hx
    rw [Item.eq_of_core_eq hcore hx, completedDemand, completedDemand, hindex]
  unfold demand
  rw [← Item.next?_eq_of_core_eq hcore]
  split
  · next hnext => exact hcompleted (x.completed_iff_next?.mpr (Or.inl hnext))
  · next hnext => exact hcompleted (x.completed_iff_next?.mpr (Or.inr hnext))
  · exact hreading _ _
  · exact hreading _ _

/-- The same holds of the action that an item asks for. -/
theorem actionDemand?_congr (g : Grammar) (hindex : s.index = s'.index)
    (htransitions : s.transitions = s'.transitions) (hcore : x.core = y.core) :
    s.actionDemand? g x = s'.actionDemand? g y := by
  by_cases hx : x.Completed
  · rw [Item.eq_of_core_eq hcore hx, actionDemand?, actionDemand?, hindex, htransitions]
  · have hy : ¬ y.Completed := fun hy => hx ((Item.completed_iff_of_core_eq hcore).mpr hy)
    rw [actionDemand?, actionDemand?, if_neg hx, if_neg hy, Item.next?_eq_of_core_eq hcore, hindex,
      htransitions]

end State

namespace Automaton.Rearranged

variable {a b : Automaton} {g : Grammar} {ta tb : ParseTables}

theorem symm (h : a.Rearranged b) : b.Rearranged a := by
  refine List.Forall₂.flip (h.imp ?_)
  intro s s' hs
  exact ⟨hs.transitions_eq.symm, hs.items.symm⟩

/-- Each state has a counterpart with its index and its transitions, and each item of it a
counterpart with its core. -/
theorem exists_state (h : a.Rearranged b) {index : StateIdx} {s : State}
    (hs : a.state? index = some s) :
    ∃ s', b.state? index = some s' ∧ s.index = s'.index ∧ s.transitions = s'.transitions ∧
      ∀ x ∈ s.items, ∃ y ∈ s'.items, x.core = y.core := by
  obtain ⟨hk, hget⟩ := Array.getElem?_eq_some_iff.mp hs
  obtain ⟨hlength, hpairs⟩ := List.forall₂_iff_get.mp h
  have hk' : index.toNat < b.states.size := by
    simp only [Array.length_toList] at hlength
    omega
  have hpair : State.Rearranged s b.states[index.toNat] := by
    have hpair := hpairs index.toNat (by simpa using hk) (by simpa using hk')
    simpa only [List.get_eq_getElem, Array.getElem_toList, hget] using hpair
  have hs' : b.state? index = some b.states[index.toNat] := Array.getElem?_eq_getElem hk'
  have hindex : s.index = b.states[index.toNat].index :=
    (a.mem_of_state? hs).2.trans (b.mem_of_state? hs').2.symm
  refine ⟨_, hs', hindex, hpair.transitions_eq, fun x hx => ?_⟩
  obtain ⟨y, hy, heq⟩ := List.mem_map.mp ((rearranged_iff.mp hpair.items).1 x hx)
  exact ⟨y, hy, heq.symm⟩

theorem exists_tables_of (h : a.Rearranged b)
    (hb : ∃ tables, (ParseTables.build b g).tables = .ok tables) :
    ∃ tables, (ParseTables.build a g).tables = .ok tables := by
  rw [exists_tables_iff] at hb ⊢
  rintro ⟨s, x⟩ hmem
  obtain ⟨hs, hx⟩ := Automaton.mem_items_iff.mp hmem
  obtain ⟨s', hs', hindex, htransitions, hitems⟩ := h.exists_state (a.state?_index hs)
  obtain ⟨y, hy, hcore⟩ := hitems x hx
  obtain ⟨d, hd⟩ := hb (s', y) (Automaton.mem_items_iff.mpr ⟨(b.mem_of_state? hs').1, hy⟩)
  exact ⟨d, (State.demand_congr g hindex htransitions hcore).trans hd⟩

theorem mem_actionDemands_of (h : a.Rearranged b) {d : ActionDemand}
    (hd : d ∈ a.actionDemands g) : d ∈ b.actionDemands g := by
  rw [Automaton.mem_actionDemands_iff] at hd ⊢
  obtain ⟨s, hs, x, hx, hdemand⟩ := hd
  obtain ⟨s', hs', hindex, htransitions, hitems⟩ := h.exists_state hs
  obtain ⟨y, hy, hcore⟩ := hitems x hx
  refine ⟨s', hs', y, hy, ?_⟩
  rw [← State.actionDemand?_congr g hindex htransitions hcore, hdemand]

/-- The actions asked for in a cell do not depend on the arrangement. -/
theorem demandedActions_eq (h : a.Rearranged b) (g : Grammar) (s : StateIdx) (t : Terminal) :
    demandedActions (a.actionDemands g) s t = demandedActions (b.actionDemands g) s t := by
  ext action
  rw [mem_demandedActions_iff, mem_demandedActions_iff]
  exact ⟨h.mem_actionDemands_of, h.symm.mem_actionDemands_of⟩

theorem goto_eq_some_of (h : a.Rearranged b)
    (ha : (ParseTables.build a g).tables = .ok ta) (hb : (ParseTables.build b g).tables = .ok tb)
    {index target : StateIdx} {n : Nat} (hgoto : ta.goto.get? index n = some target) :
    tb.goto.get? index n = some target := by
  rw [goto_eq_some_iff ha] at hgoto
  rw [goto_eq_some_iff hb]
  obtain ⟨s, hs, ⟨x, hx, hnext⟩, htarget⟩ := hgoto
  obtain ⟨s', hs', -, htransitions, hitems⟩ := h.exists_state hs
  obtain ⟨y, hy, hcore⟩ := hitems x hx
  refine ⟨s', hs', ⟨y, hy, ?_⟩, ?_⟩
  · rw [← Item.next?_eq_of_core_eq hcore, hnext]
  · rw [← htransitions, htarget]

theorem goto_eq (h : a.Rearranged b)
    (ha : (ParseTables.build a g).tables = .ok ta) (hb : (ParseTables.build b g).tables = .ok tb) :
    ta.goto = tb.goto := by
  refine Std.ExtTreeMap.ext_getElem? fun cell => ?_
  show ta.goto.get? cell.state cell.column = tb.goto.get? cell.state cell.column
  ext target
  exact ⟨h.goto_eq_some_of ha hb, h.symm.goto_eq_some_of hb ha⟩

/-- Where there is no choice, the arrangement makes no difference to the actions. -/
theorem action_eq (h : a.Rearranged b)
    (ha : (ParseTables.build a g).tables = .ok ta) (hb : (ParseTables.build b g).tables = .ok tb)
    (hta : ta.isDeterministic = true) (htb : tb.isDeterministic = true) :
    ta.action = tb.action := by
  refine Std.ExtTreeMap.ext_getElem? fun cell => ?_
  show ta.action.get? cell.state cell.column = tb.action.get? cell.state cell.column
  ext action
  rw [action_eq_some_iff_of_isDeterministic ha hta, action_eq_some_iff_of_isDeterministic hb htb]
  exact ⟨h.mem_actionDemands_of, h.symm.mem_actionDemands_of⟩

end Automaton.Rearranged

/-! ## The tables of rearranged automata -/

/-- **Rearranging the items does not change what the tables are about.**  Either both automata have
tables or neither has.  If they have, the goto tables are equal, the same cells of the action tables
are filled, each cell has one conflict fewer than actions to choose from on both sides, so there are
equally many conflicts altogether, and if there are none, the action tables are equal too. -/
theorem rearranged_tables_agree {a b : Automaton} (h : a.Rearranged b) (g : Grammar) :
    ((∃ ta, (ParseTables.build a g).tables = .ok ta) ↔
        ∃ tb, (ParseTables.build b g).tables = .ok tb) ∧
      ∀ ta tb, (ParseTables.build a g).tables = .ok ta → (ParseTables.build b g).tables = .ok tb →
        ta.goto = tb.goto ∧
        (∀ s t, (ta.action.get? s t).isSome ↔ (tb.action.get? s t).isSome) ∧
        (∀ s t,
          (conflictsAt ta.conflicts.toList s t).length =
              (demandedActions (a.actionDemands g) s t).card - 1 ∧
            (conflictsAt tb.conflicts.toList s t).length =
              (demandedActions (b.actionDemands g) s t).card - 1 ∧
            demandedActions (a.actionDemands g) s t = demandedActions (b.actionDemands g) s t) ∧
        ta.conflicts.size = tb.conflicts.size ∧
        ta.isDeterministic = tb.isDeterministic ∧
        (ta.isDeterministic = true → ta.action = tb.action) := by
  refine ⟨⟨h.symm.exists_tables_of, h.exists_tables_of⟩, fun ta tb ha hb => ?_⟩
  have hactions := h.demandedActions_eq g
  have hcounts : ∀ s t, (conflictsAt ta.conflicts.toList s t).length =
      (conflictsAt tb.conflicts.toList s t).length := by
    intro s t
    rw [length_conflictsAt_of_build ha, length_conflictsAt_of_build hb, hactions]
  have hsize : ta.conflicts.size = tb.conflicts.size := by
    rw [← Array.length_toList, ← Array.length_toList]
    exact length_eq_of_length_conflictsAt hcounts
  have hdeterministicEq : ta.isDeterministic = tb.isDeterministic := by
    rw [Bool.eq_iff_iff, ParseTables.isDeterministic_iff, ParseTables.isDeterministic_iff,
      ← List.length_eq_zero_iff, ← List.length_eq_zero_iff, Array.length_toList,
      Array.length_toList, hsize]
  refine ⟨h.goto_eq ha hb, fun s t => ?_, fun s t => ?_, hsize, hdeterministicEq,
    fun hdeterministic => h.action_eq ha hb hdeterministic (hdeterministicEq ▸ hdeterministic)⟩
  · rw [isSome_action_iff ha, isSome_action_iff hb, hactions]
  · exact ⟨length_conflictsAt_of_build ha s t, length_conflictsAt_of_build hb s t, hactions s t⟩

/-! ### The automaton with clashes, backwards

Its items are listed backwards and then all of them again, with `a` for a lookahead wherever the
lookahead is not looked at.  State `0` then asks to reduce before it asks to shift. -/

/-- The states of the automaton with clashes, rearranged. -/
def clashingBackwardsStates : Array State :=
  let rearrange (items : List Item) : List Item := items.reverse ++ items.map fun x =>
    if x.Completed then x else { x with lookahead := letterA }
  (clashingStates.toList.map fun s => { s with items := rearrange s.items }).toArray

/-- The automaton of these states. -/
def clashingBackwards : Automaton where
  states := clashingBackwardsStates
  index_eq := Automaton.index_eq_of_misplaced? (by decide)
  transition_sound := Automaton.transition_sound_of_badTransition? (by decide)

theorem rearranged_clashingBackwards : clashing.Rearranged clashingBackwards := by
  unfold Automaton.Rearranged
  exact .cons ⟨rfl, by decide⟩ (.cons ⟨rfl, by decide⟩ .nil)

theorem rearranged_tables_agree_backwards :
    clashing.Rearranged clashingBackwards ∧
      ∃ ta tb, (ParseTables.build clashing optionalLetter).tables = .ok ta ∧
        (ParseTables.build clashingBackwards optionalLetter).tables = .ok tb ∧
        ta.action.get? ⟨0, by decide⟩ letterA = some (.shift ⟨1, by decide⟩) ∧
        tb.action.get? ⟨0, by decide⟩ letterA = some (.reduce 3) ∧
        (conflictsAt ta.conflicts.toList ⟨0, by decide⟩ letterA).length = 2 ∧
        (conflictsAt tb.conflicts.toList ⟨0, by decide⟩ letterA).length = 2 ∧
        ta.goto = tb.goto ∧ ta.conflicts.size = tb.conflicts.size := by
  obtain ⟨hexists, hagree⟩ := rearranged_tables_agree rearranged_clashingBackwards optionalLetter
  obtain ⟨ta, ha⟩ := exists_tables_clashing
  obtain ⟨tb, hb⟩ := hexists.mp ⟨ta, ha⟩
  obtain ⟨hgoto, -, hcounts, hsize, -, -⟩ := hagree ta tb ha hb
  obtain ⟨hta, htb, -⟩ := hcounts ⟨0, by decide⟩ letterA
  refine ⟨rearranged_clashingBackwards, ta, tb, ha, hb, ?_, ?_, ?_, ?_, hgoto, hsize⟩
  · rw [(answers_of_build ha).get?_eq]
    decide +kernel
  · rw [(answers_of_build hb).get?_eq]
    decide +kernel
  · rw [hta]
    decide +kernel
  · rw [htb]
    decide +kernel

end Parsing
end CompilerTables
