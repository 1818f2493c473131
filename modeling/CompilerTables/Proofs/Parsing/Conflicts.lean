import Mathlib.Data.List.Nodup
import CompilerTables.Proofs.Parsing.Demands

/-!
# The conflicts among a list of demands

Two demands for one cell are in conflict when their actions differ.  What is recorded of a list of
demands is not every pair of that kind: each demand is compared with the first one of its cell, and
a demand that was made before is passed over.  `recordedConflicts` is that list.

`mem_recordedConflicts_iff` says which conflicts it holds, `nodup_map_demand_recordedConflicts` that
no demand is rejected twice, and `recordedConflicts_append_singleton` what one more demand adds to
it, which is the step of the construction.
-/

namespace CompilerTables
namespace Parsing

/-! ## Removing repetitions -/

theorem eraseDups_append_singleton {α : Type} [DecidableEq α] (xs : List α) (x : α) :
    (xs ++ [x]).eraseDups = if x ∈ xs then xs.eraseDups else xs.eraseDups ++ [x] := by
  rw [List.eraseDups_append]
  by_cases h : x ∈ xs <;> simp [List.removeAll, h, List.eraseDups_cons]

theorem nodup_eraseDups {α : Type} [DecidableEq α] (xs : List α) : xs.eraseDups.Nodup := by
  induction xs using List.reverseRecOn with
  | nil => exact List.nodup_nil
  | append_singleton xs x ih =>
    rw [eraseDups_append_singleton]
    split
    · exact ih
    · next hx =>
      refine List.nodup_append.mpr ⟨ih, List.nodup_singleton x, ?_⟩
      intro y hy z hz
      rw [List.mem_singleton] at hz
      rw [hz]
      rintro rfl
      exact hx (List.mem_eraseDups.mp hy)

/-! ## Recorded conflicts -/

/-- The conflict of a demand with the first one of its cell. -/
def ActionDemand.conflict? (demands : List ActionDemand) (d : ActionDemand) : Option Conflict :=
  match firstAction demands d.state d.terminal with
  | some kept => if kept = d.action then none else some ⟨d.state, d.terminal, kept, d.action⟩
  | none => none

/-- The conflicts of all demands with the first ones of their cells, a demand that is made again
being passed over. -/
def recordedConflicts (demands : List ActionDemand) : List Conflict :=
  demands.eraseDups.filterMap (ActionDemand.conflict? demands)

/-- The demand that a conflict rejects. -/
def Conflict.demand (c : Conflict) : ActionDemand :=
  ⟨c.state, c.terminal, c.rejected⟩

variable {demands : List ActionDemand} {d : ActionDemand} {c : Conflict}

theorem conflict?_eq_some_iff :
    ActionDemand.conflict? demands d = some c ↔
      firstAction demands c.state c.terminal = some c.kept ∧ c.kept ≠ c.rejected ∧
        c.demand = d := by
  obtain ⟨s, t, kept, rejected⟩ := c
  obtain ⟨s', t', action⟩ := d
  simp only [ActionDemand.conflict?, Conflict.demand, ActionDemand.mk.injEq]
  constructor
  · intro h
    split at h
    · next first hfirst =>
      split at h
      · cases h
      · next hne =>
        cases h
        exact ⟨hfirst, hne, rfl, rfl, rfl⟩
    · cases h
  · rintro ⟨hfirst, hne, rfl, rfl, rfl⟩
    simp only [hfirst, if_neg hne]

/-- A demand that is appended does not change the conflicts of those before it. -/
theorem conflict?_append_of_mem (later : List ActionDemand) (h : d ∈ demands) :
    ActionDemand.conflict? (demands ++ later) d = ActionDemand.conflict? demands d := by
  obtain ⟨kept, hkept⟩ := exists_firstAction_of_mem h
  simp only [ActionDemand.conflict?, firstAction_append, hkept, Option.some_or]

theorem mem_recordedConflicts_iff :
    c ∈ recordedConflicts demands ↔
      firstAction demands c.state c.terminal = some c.kept ∧ c.kept ≠ c.rejected ∧
        c.demand ∈ demands := by
  rw [recordedConflicts, List.mem_filterMap]
  constructor
  · rintro ⟨d, hd, hconflict⟩
    obtain ⟨hfirst, hne, rfl⟩ := conflict?_eq_some_iff.mp hconflict
    exact ⟨hfirst, hne, List.mem_eraseDups.mp hd⟩
  · rintro ⟨hfirst, hne, hmem⟩
    exact ⟨c.demand, List.mem_eraseDups.mpr hmem, conflict?_eq_some_iff.mpr ⟨hfirst, hne, rfl⟩⟩

/-- The rejected demands are the demands that differ from the first ones of their cells. -/
theorem map_demand_recordedConflicts (demands : List ActionDemand) :
    (recordedConflicts demands).map Conflict.demand =
      demands.eraseDups.filter fun d =>
        firstAction demands d.state d.terminal ≠ some d.action := by
  rw [recordedConflicts, List.map_filterMap, ← List.filterMap_eq_filter]
  refine List.filterMap_congr fun d hd => ?_
  obtain ⟨kept, hkept⟩ := exists_firstAction_of_mem (List.mem_eraseDups.mp hd)
  by_cases h : kept = d.action <;>
    simp [ActionDemand.conflict?, hkept, h, Conflict.demand, Option.guard]

/-- No demand is rejected twice. -/
theorem nodup_map_demand_recordedConflicts (demands : List ActionDemand) :
    ((recordedConflicts demands).map Conflict.demand).Nodup := by
  rw [map_demand_recordedConflicts]
  exact (nodup_eraseDups demands).filter _

/-- Nothing is recorded exactly when all demands for one cell agree. -/
theorem recordedConflicts_eq_nil_iff :
    recordedConflicts demands = [] ↔
      ∀ d ∈ demands, ∀ e ∈ demands, d.state = e.state → d.terminal = e.terminal →
        d.action = e.action := by
  rw [List.eq_nil_iff_forall_not_mem]
  constructor
  · intro h
    have hfirst : ∀ d ∈ demands, firstAction demands d.state d.terminal = some d.action := by
      intro d hd
      obtain ⟨kept, hkept⟩ := exists_firstAction_of_mem hd
      refine Decidable.byContradiction fun hne => ?_
      rw [hkept, Option.some_inj] at hne
      exact h ⟨d.state, d.terminal, kept, d.action⟩
        (mem_recordedConflicts_iff.mpr ⟨hkept, hne, hd⟩)
    intro d hd e he hstate hterminal
    have hd' := hfirst d hd
    rw [hstate, hterminal, hfirst e he] at hd'
    exact (Option.some_inj.mp hd').symm
  · intro h c hc
    obtain ⟨hfirst, hne, hmem⟩ := mem_recordedConflicts_iff.mp hc
    exact hne (h _ (mem_of_firstAction hfirst) _ hmem rfl rfl)

/-- What one more demand records: nothing if its cell was empty, if it agrees with the first demand
of its cell, or if it was made before. -/
theorem recordedConflicts_append_singleton (demands : List ActionDemand) (d : ActionDemand) :
    recordedConflicts (demands ++ [d]) =
      recordedConflicts demands ++
        if d ∈ demands then [] else (ActionDemand.conflict? demands d).toList := by
  have hold : demands.eraseDups.filterMap (ActionDemand.conflict? (demands ++ [d])) =
      recordedConflicts demands :=
    List.filterMap_congr fun e he => conflict?_append_of_mem [d] (List.mem_eraseDups.mp he)
  rw [recordedConflicts, eraseDups_append_singleton]
  split
  · rw [hold, List.append_nil]
  · have hnew : ActionDemand.conflict? (demands ++ [d]) d = ActionDemand.conflict? demands d := by
      unfold ActionDemand.conflict?
      rw [firstAction_append, firstAction_singleton, if_pos ⟨rfl, rfl⟩]
      cases firstAction demands d.state d.terminal <;> simp
    rw [List.filterMap_append, hold, List.filterMap_cons, List.filterMap_nil, hnew]
    cases ActionDemand.conflict? demands d <;> rfl

/-- The first demand of a cell, and a demand that agrees with it, record nothing. -/
theorem recordedConflicts_append_of_agrees
    (h : ∀ kept, firstAction demands d.state d.terminal = some kept → kept = d.action) :
    recordedConflicts (demands ++ [d]) = recordedConflicts demands := by
  have hnone : ActionDemand.conflict? demands d = none := by
    unfold ActionDemand.conflict?
    split
    · next kept hkept => exact if_pos (h kept hkept)
    · rfl
  rw [recordedConflicts_append_singleton, hnone]
  split <;> exact List.append_nil _

/-- A demand that differs from the first one of its cell records its conflict, unless that conflict
is recorded already. -/
theorem recordedConflicts_append_of_differs {kept : Action}
    (h : firstAction demands d.state d.terminal = some kept) (hne : kept ≠ d.action) :
    recordedConflicts (demands ++ [d]) =
      if ⟨d.state, d.terminal, kept, d.action⟩ ∈ recordedConflicts demands then
        recordedConflicts demands
      else recordedConflicts demands ++ [⟨d.state, d.terminal, kept, d.action⟩] := by
  have hrecorded : (⟨d.state, d.terminal, kept, d.action⟩ : Conflict) ∈ recordedConflicts demands ↔
      d ∈ demands := by
    rw [mem_recordedConflicts_iff]
    exact ⟨fun hmem => hmem.2.2, fun hmem => ⟨h, hne, hmem⟩⟩
  have hconflict : ActionDemand.conflict? demands d =
      some ⟨d.state, d.terminal, kept, d.action⟩ :=
    conflict?_eq_some_iff.mpr ⟨h, hne, rfl⟩
  rw [recordedConflicts_append_singleton, hconflict]
  by_cases hmem : d ∈ demands
  · rw [if_pos hmem, if_pos (hrecorded.mpr hmem), List.append_nil]
  · rw [if_neg hmem, if_neg fun hrec => hmem (hrecorded.mp hrec), Option.toList_some]

end Parsing
end CompilerTables
