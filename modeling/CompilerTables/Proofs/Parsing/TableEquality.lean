import CompilerTables.Proofs.Parsing.Cells
import CompilerTables.Proofs.Parsing.Registration

/-!
# Tables are told by their cells

A table can be looked up, listed, read row by row and counted (`View`).  All of this is settled by
the look-up alone (`View.Coherent`), and for a store of rows it is so because no row of it is empty.
What is filled are the cells that were registered, be it with success, in conflict or twice
(`Registry.isSome_held?_reached`), so the size counts them, and only a table that nothing was ever
asked of is empty (`View.Coherent.records`).

Two tables that were registered are equal exactly if they answer every cell alike.  For the map on
cells this is extensionality; for a store of rows it is again that no row is left empty.
-/

namespace CompilerTables
namespace Parsing

theorem Cell.forall_iff {κ : Type} {p : Cell κ → Prop} : (∀ c, p c) ↔ ∀ s column, p ⟨s, column⟩ :=
  ⟨fun h s column => h ⟨s, column⟩, fun h c => h c.state c.column⟩

/-! ## What can be read off a table -/

/-- The ways to read a table. -/
structure View (κ ν : Type) where
  get? : Cell κ → Option ν
  cells : List (StateIdx × κ × ν)
  row? : StateIdx → Option (List (κ × ν))
  size : Nat
  isEmpty : Bool

/-- All ways to read a table say what the look-up says.  Each filled cell is listed once, a row is
there if it has a filled cell, and then it consists of these. -/
structure View.Coherent {κ ν : Type} (view : View κ ν) : Prop where
  mem_cells_iff : ∀ s column entry,
    (s, column, entry) ∈ view.cells ↔ view.get? ⟨s, column⟩ = some entry
  nodup_cells : (view.cells.map Table.place).Nodup
  isSome_row?_iff : ∀ s, (view.row? s).isSome ↔ ∃ column, (view.get? ⟨s, column⟩).isSome
  mem_row_iff : ∀ s row, view.row? s = some row →
    ∀ column entry, (column, entry) ∈ row ↔ view.get? ⟨s, column⟩ = some entry
  nodup_row : ∀ s row, view.row? s = some row → (row.map Prod.fst).Nodup
  size_eq : view.size = view.cells.length
  isEmpty_eq : view.isEmpty = (view.size == 0)

/-- A table reads as one in which certain cells, and no others, were registered, each of them once
or more often. -/
structure View.Records {κ ν : Type} [DecidableEq κ] (view : View κ ν) (registered : List (Cell κ)) :
    Prop extends view.Coherent where
  isSome_get?_iff : ∀ cell, (view.get? cell).isSome ↔ cell ∈ registered
  size_eq_card : view.size = registered.toFinset.card
  isEmpty_iff : view.isEmpty = true ↔ registered = []

/-- The cells that are listed are the filled ones. -/
theorem View.Coherent.mem_map_place_iff {κ ν : Type} {view : View κ ν} (h : view.Coherent)
    (cell : Cell κ) : cell ∈ view.cells.map Table.place ↔ (view.get? cell).isSome := by
  rw [List.mem_map, Option.isSome_iff_exists]
  constructor
  · rintro ⟨⟨s, column, entry⟩, hmem, rfl⟩
    exact ⟨entry, (h.mem_cells_iff s column entry).mp hmem⟩
  · rintro ⟨entry, hentry⟩
    exact ⟨(cell.state, cell.column, entry), (h.mem_cells_iff _ _ _).mpr hentry, rfl⟩

/-- With the filled cells known, so are their number and whether there are any. -/
theorem View.Coherent.records {κ ν : Type} [DecidableEq κ] {view : View κ ν} (h : view.Coherent)
    {registered : List (Cell κ)}
    (hregistered : ∀ cell, (view.get? cell).isSome ↔ cell ∈ registered) :
    view.Records registered := by
  have hcard : view.size = registered.toFinset.card := by
    have hsame : (view.cells.map Table.place).toFinset = registered.toFinset := by
      ext cell
      rw [List.mem_toFinset, List.mem_toFinset, h.mem_map_place_iff, hregistered]
    rw [h.size_eq, ← hsame, List.toFinset_card_of_nodup h.nodup_cells, List.length_map]
  refine { h with
    isSome_get?_iff := hregistered
    size_eq_card := hcard
    isEmpty_iff := ?_ }
  rw [h.isEmpty_eq, beq_iff_eq, hcard, Finset.card_eq_zero, List.toFinset_eq_empty_iff]

/-! ## A map on cells -/

namespace Table

variable {κ ν : Type} [Ord κ] [Std.TransOrd κ]

/-- How a map on cells is read. -/
def view (table : Table κ ν) : View κ ν where
  get? := table.held?
  cells := cells table
  row? := row? table
  size := table.size
  isEmpty := table.isEmpty

/-- The filled cells of one state. -/
def rowCells (table : Table κ ν) (s : StateIdx) : List (κ × ν) :=
  (cells table).filterMap fun (s', column, entry) => if s' = s then some (column, entry) else none

theorem row?_eq_some_iff {table : Table κ ν} {s : StateIdx} {row : List (κ × ν)} :
    row? table s = some row ↔ row = rowCells table s ∧ row ≠ [] := by
  unfold row?
  split
  · next hnone =>
    have hnil : rowCells table s = [] := hnone
    rw [hnil]
    exact iff_of_false nofun fun h => h.2 h.1
  · next hsome =>
    rw [Option.some_inj]
    constructor
    · rintro rfl
      exact ⟨rfl, hsome⟩
    · exact fun h => h.1.symm

theorem nodup_map_fst_rowCells (table : Table κ ν) (s : StateIdx) :
    ((rowCells table s).map Prod.fst).Nodup := by
  rw [List.Nodup, List.pairwise_map, rowCells, List.pairwise_filterMap]
  refine (List.pairwise_map.mp (nodup_map_place_cells table)).imp ?_
  rintro ⟨s₁, column₁, entry₁⟩ ⟨s₂, column₂, entry₂⟩ hne _ hfirst _ hsecond heq
  obtain ⟨rfl, ⟨⟩⟩ := Option.ite_none_right_eq_some.mp hfirst
  obtain ⟨rfl, ⟨⟩⟩ := Option.ite_none_right_eq_some.mp hsecond
  exact hne (congrArg (Cell.mk _) heq)

variable [Std.LawfulEqOrd κ]

theorem mem_rowCells_iff {table : Table κ ν} {s : StateIdx} {column : κ} {entry : ν} :
    (column, entry) ∈ rowCells table s ↔ table.held? ⟨s, column⟩ = some entry := by
  rw [rowCells, List.mem_filterMap, held?, ← mem_cells_iff]
  constructor
  · rintro ⟨⟨s', column', entry'⟩, hmem, hrow⟩
    obtain ⟨rfl, heq⟩ := Option.ite_none_right_eq_some.mp hrow
    cases heq
    exact hmem
  · intro hmem
    exact ⟨_, hmem, if_pos rfl⟩

/-- A map on cells reads coherently. -/
theorem coherent_view (table : Table κ ν) : (view table).Coherent where
  mem_cells_iff _ _ _ := mem_cells_iff
  nodup_cells := nodup_map_place_cells table
  isSome_row?_iff s := by
    constructor
    · intro hrow
      obtain ⟨row, hrow⟩ := Option.isSome_iff_exists.mp hrow
      obtain ⟨rfl, hne⟩ := row?_eq_some_iff.mp hrow
      obtain ⟨⟨column, entry⟩, hmem⟩ := List.exists_mem_of_ne_nil _ hne
      exact ⟨column, Option.isSome_iff_exists.mpr ⟨entry, mem_rowCells_iff.mp hmem⟩⟩
    · rintro ⟨column, hfilled⟩
      obtain ⟨entry, hentry⟩ := Option.isSome_iff_exists.mp hfilled
      have hne : rowCells table s ≠ [] := List.ne_nil_of_mem (mem_rowCells_iff.mpr hentry)
      exact Option.isSome_iff_exists.mpr ⟨_, row?_eq_some_iff.mpr ⟨rfl, hne⟩⟩
  mem_row_iff s row hrow column entry := by
    obtain ⟨rfl, -⟩ := row?_eq_some_iff.mp hrow
    exact mem_rowCells_iff
  nodup_row s row hrow := by
    obtain ⟨rfl, -⟩ := row?_eq_some_iff.mp hrow
    exact nodup_map_fst_rowCells table s
  size_eq := (length_cells table).symm
  isEmpty_eq := Std.ExtTreeMap.isEmpty_eq_size_beq_zero

end Table

/-! ## A store of rows -/

namespace RowStore

variable {κ ν : Type} [Ord κ] [Std.TransOrd κ] {store : RowStore κ ν}

/-- How a store of rows is read. -/
def view (store : RowStore κ ν) : View κ ν where
  get? := store.get?
  cells := store.cells
  row? s := (store.row? s).map Std.ExtTreeMap.toList
  size := store.size
  isEmpty := store.isEmpty

/-- The number of filled cells is the length of the list of them. -/
theorem length_cells (store : RowStore κ ν) : store.cells.length = store.size := by
  rw [cells, size, List.length_flatMap]
  simp only [List.length_map, Std.ExtTreeMap.length_toList]

/-- Where the filled cells are, row by row. -/
theorem map_place_cells (store : RowStore κ ν) :
    store.cells.map Table.place =
      store.rows.toList.flatMap fun p => (p.2.toList.map Prod.fst).map (Cell.mk p.1) := by
  rw [cells, List.map_flatMap]
  simp only [List.map_map]
  rfl

theorem nodup_map_place_cells (store : RowStore κ ν) : (store.cells.map Table.place).Nodup := by
  rw [map_place_cells, List.nodup_flatMap]
  constructor
  · intro p _
    exact (nodup_map_fst_toList p.2).map fun _ _ h => (Cell.mk.inj h).2
  · refine (List.pairwise_map.mp (nodup_map_fst_toList store.rows)).imp fun {p q} hne => ?_
    -- two rows are of different states, so no cell lies in both
    intro cell hp hq
    obtain ⟨_, -, rfl⟩ := List.mem_map.mp hp
    obtain ⟨_, -, heq⟩ := List.mem_map.mp hq
    exact hne (Cell.mk.inj heq).1.symm

variable [Std.LawfulEqOrd κ]

theorem mem_cells_iff {s : StateIdx} {column : κ} {entry : ν} :
    (s, column, entry) ∈ store.cells ↔ store.get? ⟨s, column⟩ = some entry := by
  rw [cells, List.mem_flatMap, get?, Option.bind_eq_some_iff]
  constructor
  · rintro ⟨⟨s', row⟩, hrow, hmem⟩
    obtain ⟨⟨column', entry'⟩, hentry, heq⟩ := List.mem_map.mp hmem
    cases heq
    exact ⟨row, Std.ExtTreeMap.mem_toList_iff_getElem?_eq_some.mp hrow,
      Std.ExtTreeMap.mem_toList_iff_getElem?_eq_some.mp hentry⟩
  · rintro ⟨row, hrow, hentry⟩
    exact ⟨(s, row), Std.ExtTreeMap.mem_toList_iff_getElem?_eq_some.mpr hrow,
      List.mem_map.mpr ⟨(column, entry), Std.ExtTreeMap.mem_toList_iff_getElem?_eq_some.mpr hentry,
        rfl⟩⟩

/-- A store without empty rows reads coherently. -/
theorem HasNoEmptyRow.coherent_view (h : store.HasNoEmptyRow) : store.view.Coherent where
  mem_cells_iff _ _ _ := mem_cells_iff
  nodup_cells := nodup_map_place_cells store
  isSome_row?_iff s := by
    show ((store.row? s).map Std.ExtTreeMap.toList).isSome ↔ _
    rw [Option.isSome_map]
    exact h.isSome_row?_iff
  mem_row_iff s row hrow column entry := by
    obtain ⟨columns, hcolumns, rfl⟩ := Option.map_eq_some_iff.mp hrow
    rw [Std.ExtTreeMap.mem_toList_iff_getElem?_eq_some, getElem?_of_row? hcolumns]
    rfl
  nodup_row s row hrow := by
    obtain ⟨row, -, rfl⟩ := Option.map_eq_some_iff.mp hrow
    exact nodup_map_fst_toList row
  size_eq := (length_cells store).symm
  isEmpty_eq := rfl

end RowStore

/-! ## Tables that were registered -/

namespace Registry

variable {κ ν α β : Type} [Ord κ] [Std.TransOrd κ] (r : Registry κ ν α β)

/-- The cells that were called for are filled, and no others. -/
theorem isSome_held?_reached (calls : List α) (c : Cell κ) :
    ((reached r.call ∅ calls).held? c).isSome ↔ c ∈ calls.map r.cell := by
  induction calls using List.reverseRecOn with
  | nil => exact iff_of_false nofun List.not_mem_nil
  | append_singleton calls a ih =>
    rw [reached_append_singleton, List.map_append, List.mem_append, ← ih, List.map_singleton,
      List.mem_singleton]
    by_cases hcell : r.cell a = c
    · subst hcell
      exact iff_of_true (r.isSome_held? _ a) (.inr rfl)
    · rw [r.held?_of_ne _ hcell]
      exact (or_iff_left (Ne.symm hcell)).symm

variable [Std.LawfulEqOrd κ]

/-- Two tables that were registered are equal if they answer every cell alike. -/
theorem reached_eq_iff (calls calls' : List α) :
    reached r.call ∅ calls = reached r.call ∅ calls' ↔
      ∀ c, (reached r.call ∅ calls).held? c = (reached r.call ∅ calls').held? c :=
  ⟨fun h _ => by rw [h], fun h => Std.ExtTreeMap.ext_getElem? h⟩

/-- So are two stores of rows. -/
theorem reached_rows_eq_iff (calls calls' : List α) :
    reached r.rowCall ⟨∅⟩ calls = reached r.rowCall ⟨∅⟩ calls' ↔
      ∀ c, (reached r.rowCall ⟨∅⟩ calls).get? c = (reached r.rowCall ⟨∅⟩ calls').get? c :=
  ⟨fun h _ => by rw [h], fun h =>
    (r.stores_reached calls).2.hasNoEmptyRow.eq_of_get?_eq
      (r.stores_reached calls').2.hasNoEmptyRow h⟩

variable [DecidableEq κ]

theorem records_reached (calls : List α) :
    (reached r.call ∅ calls).view.Records (calls.map r.cell) :=
  (Table.coherent_view _).records (r.isSome_held?_reached calls)

theorem records_reached_rows (calls : List α) :
    (reached r.rowCall ⟨∅⟩ calls).view.Records (calls.map r.cell) := by
  have hstores := (r.stores_reached calls).2
  refine hstores.hasNoEmptyRow.coherent_view.records fun c => ?_
  show ((reached r.rowCall ⟨∅⟩ calls).get? c).isSome ↔ _
  rw [hstores.get?_eq, r.isSome_held?_reached]

end Registry

/-- **Tables are told by their cells**, however they were registered.  Row by row they hold the same
cells, without an empty row.  Both read coherently and record the cells that were called for, and in
both, two tables are equal exactly if they answer every cell alike. -/
theorem tables_told_by_cells :
    (∀ calls : List ActionDemand,
      (reached RowStore.registerAction ⟨∅⟩ calls).Stores (reached ActionTable.call ∅ calls) ∧
      (reached ActionTable.call ∅ calls).view.Records
        (calls.map fun d => ⟨d.state, d.terminal⟩) ∧
      (reached RowStore.registerAction ⟨∅⟩ calls).view.Records
        (calls.map fun d => ⟨d.state, d.terminal⟩) ∧
      ∀ calls' : List ActionDemand,
        (reached ActionTable.call ∅ calls = reached ActionTable.call ∅ calls' ↔
          ∀ s t, ActionTable.get? (reached ActionTable.call ∅ calls) s t =
            ActionTable.get? (reached ActionTable.call ∅ calls') s t) ∧
        (reached RowStore.registerAction ⟨∅⟩ calls = reached RowStore.registerAction ⟨∅⟩ calls' ↔
          ∀ c, (reached RowStore.registerAction ⟨∅⟩ calls).get? c =
            (reached RowStore.registerAction ⟨∅⟩ calls').get? c)) ∧
    ∀ calls : List GotoDemand,
      (reached RowStore.registerGoto ⟨∅⟩ calls).Stores (reached GotoTable.call ∅ calls) ∧
      (reached GotoTable.call ∅ calls).view.Records
        (calls.map fun d => ⟨d.state, d.nonterminal⟩) ∧
      (reached RowStore.registerGoto ⟨∅⟩ calls).view.Records
        (calls.map fun d => ⟨d.state, d.nonterminal⟩) ∧
      ∀ calls' : List GotoDemand,
        (reached GotoTable.call ∅ calls = reached GotoTable.call ∅ calls' ↔
          ∀ s n, GotoTable.get? (reached GotoTable.call ∅ calls) s n =
            GotoTable.get? (reached GotoTable.call ∅ calls') s n) ∧
        (reached RowStore.registerGoto ⟨∅⟩ calls = reached RowStore.registerGoto ⟨∅⟩ calls' ↔
          ∀ c, (reached RowStore.registerGoto ⟨∅⟩ calls).get? c =
            (reached RowStore.registerGoto ⟨∅⟩ calls').get? c) := by
  constructor
  · intro calls
    let r := ActionTable.registry
    refine ⟨(r.stores_reached calls).2, r.records_reached calls, r.records_reached_rows calls,
      fun calls' => ⟨?_, r.reached_rows_eq_iff calls calls'⟩⟩
    exact (r.reached_eq_iff calls calls').trans Cell.forall_iff
  · intro calls
    let r := GotoTable.registry
    refine ⟨(r.stores_reached calls).2, r.records_reached calls, r.records_reached_rows calls,
      fun calls' => ⟨?_, r.reached_rows_eq_iff calls calls'⟩⟩
    exact (r.reached_eq_iff calls calls').trans Cell.forall_iff

end Parsing
end CompilerTables
