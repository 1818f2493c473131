import Mathlib.Data.Set.Card
import CompilerTables.Parsing.Construction
import CompilerTables.Proofs.FiniteMap

/-!
# The filled cells of a table

A table is looked up cell by cell, and it is listed by `Table.cells`.  The two views agree
(`mem_cells_iff`): each filled cell is listed once, with its entry, and nothing else is listed, so
the length of the list is the number of filled cells (`length_cells`, `ncard_filled`).
-/

namespace CompilerTables
namespace Parsing
namespace Table

variable {κ ν : Type} [Ord κ] [Std.TransOrd κ]

theorem length_cells (table : Table κ ν) : (cells table).length = table.size := by
  rw [cells, List.length_map]
  exact Std.ExtTreeMap.length_toList

/-- The place of a listed cell. -/
def place (filled : StateIdx × κ × ν) : Cell κ :=
  ⟨filled.1, filled.2.1⟩

/-- No cell is listed twice. -/
theorem nodup_map_place_cells (table : Table κ ν) : ((cells table).map place).Nodup := by
  have hplaces : (cells table).map place = (Std.ExtTreeMap.toList table).map Prod.fst := by
    rw [cells, List.map_map]
    rfl
  rw [hplaces]
  exact nodup_map_fst_toList table

theorem nodup_cells (table : Table κ ν) : (cells table).Nodup :=
  (nodup_map_place_cells table).of_map _

variable [Std.LawfulEqOrd κ]

theorem mem_cells_iff {table : Table κ ν} {s : StateIdx} {column : κ} {entry : ν} :
    (s, column, entry) ∈ cells table ↔
      (table : Std.ExtTreeMap (Cell κ) ν)[(⟨s, column⟩ : Cell κ)]? = some entry := by
  rw [cells, List.mem_map]
  constructor
  · rintro ⟨⟨⟨s', column'⟩, entry'⟩, hmem, heq⟩
    cases heq
    exact Std.ExtTreeMap.mem_toList_iff_getElem?_eq_some.mp hmem
  · intro h
    exact ⟨(⟨s, column⟩, entry), Std.ExtTreeMap.mem_toList_iff_getElem?_eq_some.mpr h, rfl⟩

/-- The size of a table is the number of its filled cells. -/
theorem ncard_filled [DecidableEq κ] (table : Table κ ν) :
    {cell : Cell κ | (table : Std.ExtTreeMap (Cell κ) ν)[cell]?.isSome}.ncard = table.size := by
  have hfilled : {cell : Cell κ | (table : Std.ExtTreeMap (Cell κ) ν)[cell]?.isSome} =
      (((cells table).map place).toFinset : Set (Cell κ)) := by
    ext cell
    rw [Set.mem_ofPred_eq, Finset.mem_coe, List.mem_toFinset, List.mem_map,
      Option.isSome_iff_exists]
    constructor
    · rintro ⟨entry, hentry⟩
      exact ⟨(cell.state, cell.column, entry), mem_cells_iff.mpr hentry, rfl⟩
    · rintro ⟨⟨s, column, entry⟩, hmem, rfl⟩
      exact ⟨entry, mem_cells_iff.mp hmem⟩
  rw [hfilled, Set.ncard_coe_finset, List.toFinset_card_of_nodup (nodup_map_place_cells table),
    List.length_map, length_cells]

end Table

namespace ParseTables

/-- The cells of the action table that hold an action. -/
def filledActions (tables : ParseTables) : Set (Cell Terminal) :=
  {cell | (tables.action.get? cell.state cell.column).isSome}

/-- The cells of the goto table that hold a target. -/
def filledGotos (tables : ParseTables) : Set (Cell Nat) :=
  {cell | (tables.goto.get? cell.state cell.column).isSome}

theorem ncard_filledActions (tables : ParseTables) :
    tables.filledActions.ncard = tables.action.size :=
  Table.ncard_filled tables.action

theorem ncard_filledGotos (tables : ParseTables) :
    tables.filledGotos.ncard = tables.goto.size :=
  Table.ncard_filled tables.goto

end ParseTables
end Parsing
end CompilerTables
