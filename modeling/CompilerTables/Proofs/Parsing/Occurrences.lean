import CompilerTables.Proofs.Parsing.Closure
import CompilerTables.Proofs.Parsing.Numbering

/-!
# Which actions meet in a cell

An action occurs in a cell if it stands there or if a conflict of the cell keeps or rejects it.
What occurs in finished tables is what some item demanded (`occurs_iff_mem_actionDemands`), and so
the conflicts between actions are limited by what items can ask for in one state at one terminal.

* All items that want to shift want to go to the same state, since a symbol leads to one target
  (`target_eq_of_shift_mem`).
* To accept is demanded by the completed augmented production before the end of the input, and by
  nothing else (`accept_mem_actionDemands_iff`).
* That production is never reduced before the end of the input, since it is recognised by its
  position (`reduce_augmented_notMem`).

Nothing is assumed of the automaton: the end of the input may stand in the body of a production, and
there may be transitions on it.
-/

namespace CompilerTables
namespace Parsing

/-! ## Kinds of conflict -/

namespace Conflict

theorem kind_eq_accept_iff (c : Conflict) :
    c.kind = .accept ↔ c.kept = .accept ∨ c.rejected = .accept := by
  obtain ⟨index, t, kept, rejected⟩ := c
  cases kept <;> cases rejected <;> simp [kind]

theorem kind_eq_shiftShift_iff (c : Conflict) :
    c.kind = .shiftShift ↔ ∃ j j', c.kept = .shift j ∧ c.rejected = .shift j' := by
  obtain ⟨index, t, kept, rejected⟩ := c
  cases kept <;> cases rejected <;> simp [kind]

end Conflict

/-! ## What is demanded in one cell -/

section Demanded

variable {a : Automaton} {g : Grammar} {index : StateIdx} {t : Terminal}

theorem target_eq_of_shift_mem {j j' : StateIdx} (h : ⟨index, t, .shift j⟩ ∈ a.actionDemands g)
    (h' : ⟨index, t, .shift j'⟩ ∈ a.actionDemands g) : j = j' := by
  have hallows : a.Allows g index t (.shift j) := allows_of_mem_actionDemands h
  have hallows' : a.Allows g index t (.shift j') := allows_of_mem_actionDemands h'
  exact hallows.1.target_eq hallows'.1

/-- To accept is demanded at the end of the input, in the states in which the augmented production
is completed before it. -/
theorem accept_mem_actionDemands_iff :
    ⟨index, t, .accept⟩ ∈ a.actionDemands g ↔
      t = Terminal.endMarker ∧ ∃ s, a.state? index = some s ∧ ∃ item ∈ s.items,
        item.Completed ∧ item.production = g.augmentedProduction ∧
          item.lookahead = Terminal.endMarker := by
  rw [a.mem_actionDemands_iff]
  constructor
  · rintro ⟨s, hs, item, hitem, hdemand⟩
    rcases State.actionDemand?_eq_some_iff.mp hdemand with
      ⟨hcompleted, ⟨hend, haugmented⟩, heq⟩ | ⟨-, -, k, -, heq⟩ | ⟨t', j, -, -, heq⟩
    · cases heq
      exact ⟨rfl, s, hs, item, hitem, hcompleted, haugmented, hend⟩
    · cases heq
    · cases heq
  · rintro ⟨rfl, s, hs, item, hitem, hcompleted, haugmented, hend⟩
    obtain ⟨-, rfl⟩ := a.mem_of_state? hs
    exact ⟨s, hs, item, hitem,
      State.actionDemand?_eq_some_iff.mpr (.inl ⟨hcompleted, ⟨hend, haugmented⟩, rfl⟩)⟩

/-- Before the end of the input, the augmented production is not reduced. -/
theorem reduce_augmented_notMem :
    ⟨index, Terminal.endMarker, .reduce g.augmented⟩ ∉ a.actionDemands g := by
  rw [a.mem_actionDemands_iff]
  rintro ⟨s, -, item, -, hdemand⟩
  rcases State.actionDemand?_eq_some_iff.mp hdemand with
    ⟨-, -, heq⟩ | ⟨-, hother, k, hk, heq⟩ | ⟨t', j, -, -, heq⟩
  · cases heq
  · rw [ActionDemand.mk.injEq, Action.reduce.injEq] at heq
    obtain ⟨-, hend, rfl⟩ := heq
    have haugmented : item.production = g.augmentedProduction :=
      (Grammar.eq_augmentedProduction_iff (Grammar.indexOf?_eq_some_iff.mp hk)).mpr rfl
    exact hother ⟨hend.symm, haugmented⟩
  · cases heq

end Demanded

/-! ## What occurs in finished tables -/

/-- An action occurs in a cell: it stands there, or a conflict of the cell keeps or rejects it. -/
inductive ParseTables.Occurs (tables : ParseTables) (index : StateIdx) (t : Terminal)
    (action : Action) : Prop where
  | entry (h : tables.action.get? index t = some action)
  | kept (rejected : Action) (h : ⟨index, t, action, rejected⟩ ∈ tables.conflicts)
  | rejected (kept : Action) (h : ⟨index, t, kept, action⟩ ∈ tables.conflicts)

variable {a : Automaton} {g : Grammar} {tables : ParseTables} {index : StateIdx} {t : Terminal}

/-- What occurs is what is demanded: the first action of a cell stands there, and any other one is
rejected. -/
theorem occurs_iff_mem_actionDemands (h : (ParseTables.build a g).tables = .ok tables)
    {action : Action} :
    tables.Occurs index t action ↔ ⟨index, t, action⟩ ∈ a.actionDemands g := by
  constructor
  · intro hoccurs
    cases hoccurs with
    | entry hentry =>
      rw [(answers_of_build h).get?_eq] at hentry
      exact mem_of_firstAction hentry
    | kept rejected hc => exact mem_of_firstAction ((mem_conflicts_iff h).mp hc).1
    | rejected kept hc => exact ((mem_conflicts_iff h).mp hc).2.2
  · intro hdemand
    obtain ⟨kept, hkept⟩ := exists_firstAction_of_mem hdemand
    by_cases hsame : kept = action
    · refine .entry ?_
      rw [(answers_of_build h).get?_eq, hkept, hsame]
    · exact .rejected kept ((mem_conflicts_iff h).mpr ⟨hkept, hsame, hdemand⟩)

/-- **What cannot clash.**  In no cell are two different shifts demanded, so no two shifts are in
conflict.  To accept occurs only at the end of the input, in states in which the augmented
production is completed before it, and there this production is never reduced.  The two sides of a
conflict differ, and it is a conflict with accepting exactly when one of them is to accept. -/
theorem clashes_limited (h : (ParseTables.build a g).tables = .ok tables) :
    (∀ index t j j', ⟨index, t, .shift j⟩ ∈ a.actionDemands g →
        ⟨index, t, .shift j'⟩ ∈ a.actionDemands g → j = j') ∧
      (∀ index t, tables.Occurs index t .accept →
        t = Terminal.endMarker ∧ ∃ s, a.state? index = some s ∧ ∃ item ∈ s.items,
          item.Completed ∧ item.production = g.augmentedProduction ∧
            item.lookahead = Terminal.endMarker) ∧
      (∀ index, ¬ tables.Occurs index Terminal.endMarker (.reduce g.augmented)) ∧
      ∀ c ∈ tables.conflicts, c.kept ≠ c.rejected ∧ c.kind ≠ .shiftShift ∧
        (c.kind = .accept ↔ c.kept = .accept ∨ c.rejected = .accept) ∧
        (c.kind = .accept → c.terminal = Terminal.endMarker) := by
  have haccept : ∀ index t, tables.Occurs index t .accept → _ := fun index t hoccurs =>
    accept_mem_actionDemands_iff.mp ((occurs_iff_mem_actionDemands h).mp hoccurs)
  refine ⟨fun index t j j' => target_eq_of_shift_mem, haccept, fun index hoccurs => ?_,
    fun c hc => ?_⟩
  · exact reduce_augmented_notMem ((occurs_iff_mem_actionDemands h).mp hoccurs)
  · obtain ⟨hfirst, hne, hdemand⟩ := (mem_conflicts_iff h).mp hc
    refine ⟨hne, fun hkind => ?_, c.kind_eq_accept_iff, fun hkind => ?_⟩
    · obtain ⟨j, j', hkept, hrejected⟩ := c.kind_eq_shiftShift_iff.mp hkind
      rw [hkept] at hfirst
      rw [Conflict.demand, hrejected] at hdemand
      refine hne ?_
      rw [hkept, hrejected, target_eq_of_shift_mem (mem_of_firstAction hfirst) hdemand]
    · rcases c.kind_eq_accept_iff.mp hkind with hkept | hrejected
      · exact (haccept c.state c.terminal (.kept c.rejected (hkept ▸ hc))).1
      · exact (haccept c.state c.terminal (.rejected c.kept (hrejected ▸ hc))).1

/-- The second state with clashes accepts, and rejects to reduce. -/
theorem clashes_limited_clashing :
    ∃ tables, (ParseTables.build clashing optionalLetter).tables = .ok tables ∧
      ⟨initialState, letterA, .shift ⟨1, by decide⟩⟩ ∈ clashing.actionDemands optionalLetter ∧
      (∀ j, ⟨initialState, letterA, .shift j⟩ ∈ clashing.actionDemands optionalLetter →
        j = ⟨1, by decide⟩) ∧
      tables.Occurs ⟨1, by decide⟩ Terminal.endMarker .accept ∧
      (∃ s, clashing.state? ⟨1, by decide⟩ = some s ∧ ∃ item ∈ s.items,
        item.Completed ∧ item.production = optionalLetter.augmentedProduction ∧
          item.lookahead = Terminal.endMarker) ∧
      ¬ tables.Occurs ⟨1, by decide⟩ Terminal.endMarker (.reduce 0) ∧
      ∃ c ∈ tables.conflicts, c.kind = .accept ∧ c.kept = .accept ∧ c.kept ≠ c.rejected := by
  obtain ⟨tables, htables⟩ := exists_tables_clashing
  obtain ⟨hshift, haccept, hreduce, hconflicts⟩ := clashes_limited htables
  have hdemand : ⟨initialState, letterA, .shift ⟨1, by decide⟩⟩ ∈
      clashing.actionDemands optionalLetter := by
    decide +kernel
  have hconflict :
      ⟨⟨1, by decide⟩, Terminal.endMarker, .accept, .reduce 1⟩ ∈ tables.conflicts := by
    rw [← Array.mem_toList_iff, (answers_of_build htables).conflicts_eq]
    decide +kernel
  have hoccurs : tables.Occurs ⟨1, by decide⟩ Terminal.endMarker .accept := .kept _ hconflict
  exact ⟨tables, htables, hdemand, fun j hj => hshift _ _ _ _ hj hdemand, hoccurs,
    (haccept _ _ hoccurs).2, hreduce _, _, hconflict, rfl, rfl, (hconflicts _ hconflict).1⟩

end Parsing
end CompilerTables
