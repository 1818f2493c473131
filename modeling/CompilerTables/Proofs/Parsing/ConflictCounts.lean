import Mathlib.Data.Finset.Card
import CompilerTables.Proofs.Parsing.Filling

/-!
# How many conflicts a cell has

The first action of a cell stays and every other one is rejected once, so which conflicts are
recorded depends on the order of the demands, but how many does not: in each cell it is one fewer
than there are actions to choose from (`length_conflictsAt`).  A cell without a choice has none.

`demandedActions` is the set of actions that demands ask for in a cell.  The order of the demands
and their repetitions are gone from it, and it still tells whether the cell is filled, how many
conflicts it has, and, if it has none, what stands in it.
-/

namespace CompilerTables
namespace Parsing

/-! ## The actions of a cell -/

/-- The actions that are asked for in a cell. -/
def demandedActions (demands : List ActionDemand) (s : StateIdx) (t : Terminal) : Finset Action :=
  ((demands.filter fun d => d.state = s ∧ d.terminal = t).map ActionDemand.action).toFinset

section demandedActions

variable {demands : List ActionDemand} {s : StateIdx} {t : Terminal} {kept action : Action}

theorem mem_demandedActions_iff :
    action ∈ demandedActions demands s t ↔ ⟨s, t, action⟩ ∈ demands := by
  rw [demandedActions, List.mem_toFinset, List.mem_map]
  constructor
  · rintro ⟨d, hd, rfl⟩
    obtain ⟨hmem, hcell⟩ := List.mem_filter.mp hd
    obtain ⟨rfl, rfl⟩ := of_decide_eq_true hcell
    exact hmem
  · intro hmem
    exact ⟨⟨s, t, action⟩, List.mem_filter.mpr ⟨hmem, decide_eq_true ⟨rfl, rfl⟩⟩, rfl⟩

theorem firstAction_eq_none_iff_demandedActions :
    firstAction demands s t = none ↔ demandedActions demands s t = ∅ := by
  rw [firstAction_eq_none_iff, Finset.eq_empty_iff_forall_notMem]
  simp only [mem_demandedActions_iff]

theorem mem_demandedActions_of_firstAction (h : firstAction demands s t = some kept) :
    kept ∈ demandedActions demands s t :=
  mem_demandedActions_iff.mpr (mem_of_firstAction h)

/-- Where there is no choice, the first action is the only one. -/
theorem firstAction_eq_some_iff_of_card_le_one (h : (demandedActions demands s t).card ≤ 1) :
    firstAction demands s t = some action ↔ action ∈ demandedActions demands s t := by
  constructor
  · exact mem_demandedActions_of_firstAction
  · intro haction
    have hfilled : demandedActions demands s t ≠ ∅ := Finset.ne_empty_of_mem haction
    rw [ne_eq, ← firstAction_eq_none_iff_demandedActions] at hfilled
    obtain ⟨kept, hkept⟩ := Option.ne_none_iff_exists'.mp hfilled
    have hmem := mem_demandedActions_of_firstAction hkept
    rw [hkept, Finset.card_le_one.mp h kept hmem action haction]

end demandedActions

/-! ## The conflicts of a cell -/

/-- The conflicts that lie in a cell. -/
def conflictsAt (conflicts : List Conflict) (s : StateIdx) (t : Terminal) : List Conflict :=
  conflicts.filter fun c => c.state = s ∧ c.terminal = t

section conflictsAt

variable {demands : List ActionDemand} {s : StateIdx} {t : Terminal} {kept : Action} {c : Conflict}

theorem mem_conflictsAt_iff {conflicts : List Conflict} :
    c ∈ conflictsAt conflicts s t ↔ c ∈ conflicts ∧ c.state = s ∧ c.terminal = t := by
  rw [conflictsAt, List.mem_filter, decide_eq_true_eq]

/-- Within a cell no action is rejected twice. -/
theorem nodup_map_rejected_conflictsAt (demands : List ActionDemand) (s : StateIdx)
    (t : Terminal) :
    ((conflictsAt (recordedConflicts demands) s t).map Conflict.rejected).Nodup := by
  have hsub : (conflictsAt (recordedConflicts demands) s t).Sublist (recordedConflicts demands) :=
    List.filter_sublist
  have hdemands : ((conflictsAt (recordedConflicts demands) s t).map Conflict.demand).Nodup :=
    (nodup_map_demand_recordedConflicts demands).sublist (hsub.map _)
  have hcell : (conflictsAt (recordedConflicts demands) s t).map Conflict.demand =
      ((conflictsAt (recordedConflicts demands) s t).map Conflict.rejected).map
        fun action => ⟨s, t, action⟩ := by
    rw [List.map_map]
    refine List.map_congr_left fun c hc => ?_
    obtain ⟨-, rfl, rfl⟩ := mem_conflictsAt_iff.mp hc
    rfl
  rw [hcell] at hdemands
  exact hdemands.of_map _

/-- The actions that are rejected in a cell are all but the first. -/
theorem toFinset_map_rejected_conflictsAt (h : firstAction demands s t = some kept) :
    ((conflictsAt (recordedConflicts demands) s t).map Conflict.rejected).toFinset =
      (demandedActions demands s t).erase kept := by
  ext action
  rw [List.mem_toFinset, List.mem_map, Finset.mem_erase, mem_demandedActions_iff]
  constructor
  · rintro ⟨c, hc, rfl⟩
    obtain ⟨hrecorded, rfl, rfl⟩ := mem_conflictsAt_iff.mp hc
    obtain ⟨hfirst, hne, hmem⟩ := mem_recordedConflicts_iff.mp hrecorded
    rw [h, Option.some_inj] at hfirst
    exact ⟨fun heq => hne (hfirst.symm.trans heq.symm), hmem⟩
  · rintro ⟨hne, hmem⟩
    have hrecorded : (⟨s, t, kept, action⟩ : Conflict) ∈ recordedConflicts demands :=
      mem_recordedConflicts_iff.mpr ⟨h, hne.symm, hmem⟩
    exact ⟨⟨s, t, kept, action⟩, mem_conflictsAt_iff.mpr ⟨hrecorded, rfl, rfl⟩, rfl⟩

/-- **In each cell there is one conflict fewer than there are actions to choose from.** -/
theorem length_conflictsAt (demands : List ActionDemand) (s : StateIdx) (t : Terminal) :
    (conflictsAt (recordedConflicts demands) s t).length =
      (demandedActions demands s t).card - 1 := by
  have hlength : (conflictsAt (recordedConflicts demands) s t).length =
      ((conflictsAt (recordedConflicts demands) s t).map Conflict.rejected).toFinset.card := by
    rw [List.toFinset_card_of_nodup (nodup_map_rejected_conflictsAt demands s t), List.length_map]
  rw [hlength]
  cases hfirst : firstAction demands s t with
  | none =>
    -- a conflict of the cell would keep its first action
    have hnil : conflictsAt (recordedConflicts demands) s t = [] := by
      rw [List.eq_nil_iff_forall_not_mem]
      intro c hc
      obtain ⟨hrecorded, rfl, rfl⟩ := mem_conflictsAt_iff.mp hc
      have hkept := (mem_recordedConflicts_iff.mp hrecorded).1
      rw [hfirst] at hkept
      cases hkept
    rw [hnil, firstAction_eq_none_iff_demandedActions.mp hfirst]
    rfl
  | some kept =>
    rw [toFinset_map_rejected_conflictsAt hfirst,
      Finset.card_erase_of_mem (mem_demandedActions_of_firstAction hfirst)]

/-- The cell of a conflict. -/
def Conflict.cell (c : Conflict) : Cell Terminal :=
  ⟨c.state, c.terminal⟩

theorem count_map_cell (conflicts : List Conflict) (s : StateIdx) (t : Terminal) :
    (conflicts.map Conflict.cell).count ⟨s, t⟩ = (conflictsAt conflicts s t).length := by
  rw [List.count_eq_countP, List.countP_map, List.countP_eq_length_filter, conflictsAt]
  congr 2
  funext c
  rw [Bool.eq_iff_iff, Function.comp_apply, beq_iff_eq, decide_eq_true_eq, Conflict.cell,
    Cell.mk.injEq]

/-- Lists of conflicts with as many conflicts in each cell have as many altogether. -/
theorem length_eq_of_length_conflictsAt {conflicts conflicts' : List Conflict}
    (h : ∀ s t, (conflictsAt conflicts s t).length = (conflictsAt conflicts' s t).length) :
    conflicts.length = conflicts'.length := by
  have hperm : (conflicts.map Conflict.cell).Perm (conflicts'.map Conflict.cell) := by
    rw [List.perm_iff_count]
    intro cell
    rw [count_map_cell, count_map_cell, h]
  have hlength := hperm.length_eq
  rwa [List.length_map, List.length_map] at hlength

end conflictsAt

/-! ## Finished tables -/

section Build

variable {a : Automaton} {g : Grammar} {tables : ParseTables}

theorem length_conflictsAt_of_build (h : (ParseTables.build a g).tables = .ok tables)
    (s : StateIdx) (t : Terminal) :
    (conflictsAt tables.conflicts.toList s t).length =
      (demandedActions (a.actionDemands g) s t).card - 1 := by
  rw [(answers_of_build h).conflicts_eq]
  exact length_conflictsAt _ s t

theorem isSome_action_iff (h : (ParseTables.build a g).tables = .ok tables) (s : StateIdx)
    (t : Terminal) :
    (tables.action.get? s t).isSome ↔ (demandedActions (a.actionDemands g) s t).Nonempty := by
  rw [(answers_of_build h).get?_eq, Option.isSome_iff_ne_none, ne_eq,
    firstAction_eq_none_iff_demandedActions, Finset.nonempty_iff_ne_empty]

theorem ParseTables.isDeterministic_iff :
    tables.isDeterministic = true ↔ tables.conflicts.toList = [] := by
  rw [isDeterministic, Array.isEmpty_iff, Array.toList_eq_nil_iff]

/-- Deterministic tables leave no choice in any cell. -/
theorem card_demandedActions_le_one (h : (ParseTables.build a g).tables = .ok tables)
    (hdeterministic : tables.isDeterministic = true) (s : StateIdx) (t : Terminal) :
    (demandedActions (a.actionDemands g) s t).card ≤ 1 := by
  have hlength := length_conflictsAt_of_build h s t
  rw [ParseTables.isDeterministic_iff.mp hdeterministic] at hlength
  have hnone : (conflictsAt [] s t).length = 0 := rfl
  omega

/-- A cell of deterministic tables holds the action that is asked for there. -/
theorem action_eq_some_iff_of_isDeterministic (h : (ParseTables.build a g).tables = .ok tables)
    (hdeterministic : tables.isDeterministic = true) {s : StateIdx} {t : Terminal}
    {action : Action} :
    tables.action.get? s t = some action ↔ ⟨s, t, action⟩ ∈ a.actionDemands g := by
  rw [(answers_of_build h).get?_eq,
    firstAction_eq_some_iff_of_card_le_one (card_demandedActions_le_one h hdeterministic s t),
    mem_demandedActions_iff]

end Build

end Parsing
end CompilerTables
