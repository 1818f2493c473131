import Mathlib.Algebra.GroupWithZero.Nat
import CompilerTables.Proofs.Parsing.Gotos

/-!
# Tables stored row by row

A table is a map on cells.  It may as well be stored in two levels: a map from states to rows, where
a row is a map from columns to entries.  To register something, such a store first opens the row of
the state, as an empty one if there is none, and only then decides whether to write into it.

An empty row would be seen.  It makes a store differ from one that answers every cell alike, and it
makes a row be there that holds nothing.  None is ever left behind: the row is written into, or it
held an entry already and was not new (`openRow_of_get?`).  `RowStore.Stores` says that a store
holds a given table and no empty row.  There is only one such store (`Stores.unique`), and to write
into a cell keeps it one (`Stores.write`).
-/

namespace CompilerTables
namespace Parsing

/-- The entry in a cell. -/
def Table.held? {κ ν : Type} [Ord κ] [Std.TransOrd κ] (table : Table κ ν) (cell : Cell κ) :
    Option ν :=
  (table : Std.ExtTreeMap (Cell κ) ν)[cell]?

/-- A table with columns in `κ` and entries in `ν`, stored in two levels. -/
@[ext]
structure RowStore (κ ν : Type) [Ord κ] where
  rows : Std.ExtTreeMap StateIdx (Std.ExtTreeMap κ ν)

namespace RowStore

section Definitions

variable {κ ν : Type} [Ord κ] [Std.TransOrd κ]

/-- The row of a state. -/
def row? (store : RowStore κ ν) (s : StateIdx) : Option (Std.ExtTreeMap κ ν) :=
  store.rows[s]?

/-- The entry in a cell. -/
def get? (store : RowStore κ ν) (cell : Cell κ) : Option ν :=
  (store.row? cell.state).bind fun row => row[cell.column]?

/-- The filled cells, row by row. -/
def cells (store : RowStore κ ν) : List (StateIdx × κ × ν) :=
  store.rows.toList.flatMap fun (s, row) => row.toList.map fun (column, entry) => (s, column, entry)

/-- The number of filled cells. -/
def size (store : RowStore κ ν) : Nat :=
  (store.rows.toList.map fun p => p.2.size).sum

/-- Whether no cell is filled. -/
def isEmpty (store : RowStore κ ν) : Bool :=
  store.size == 0

/-- The row of a state, which is put in as an empty one if it is not there, and the store with
it. -/
def openRow (store : RowStore κ ν) (s : StateIdx) : Std.ExtTreeMap κ ν × RowStore κ ν :=
  ((store.row? s).getD ∅, ⟨store.rows.insertIfNew s ∅⟩)

/-- Replaces the row of a state. -/
def setRow (store : RowStore κ ν) (s : StateIdx) (row : Std.ExtTreeMap κ ν) : RowStore κ ν :=
  ⟨store.rows.insert s row⟩

/-- Writes an entry into a cell, whatever the cell held. -/
def write (store : RowStore κ ν) (cell : Cell κ) (entry : ν) : RowStore κ ν :=
  let (row, opened) := store.openRow cell.state
  opened.setRow cell.state (row.insert cell.column entry)

/-- A store has no row that holds nothing. -/
def HasNoEmptyRow (store : RowStore κ ν) : Prop :=
  ∀ s, store.row? s ≠ some ∅

/-- A store holds a table, and no empty row. -/
structure Stores (store : RowStore κ ν) (table : Table κ ν) : Prop where
  get?_eq : ∀ cell, store.get? cell = table.held? cell
  hasNoEmptyRow : store.HasNoEmptyRow

theorem Stores.empty : (⟨∅⟩ : RowStore κ ν).Stores ∅ where
  get?_eq _ := rfl
  hasNoEmptyRow _ := nofun

end Definitions

/-- Asks for an action in a cell: opens the row of the state and writes only where the row holds
nothing. -/
def registerAction (store : RowStore Terminal Action) (d : ActionDemand) :
    Except Conflict Unit × RowStore Terminal Action :=
  let (row, opened) := store.openRow d.state
  match row[d.terminal]? with
  | some kept =>
      if kept = d.action then (.ok (), opened)
      else (.error ⟨d.state, d.terminal, kept, d.action⟩, opened)
  | none => (.ok (), opened.setRow d.state (row.insert d.terminal d.action))

/-- Puts a target into a cell, with the change that this makes to a cell that held another one. -/
def registerGoto (store : RowStore Nat StateIdx) (d : GotoDemand) :
    Option Overwrite × RowStore Nat StateIdx :=
  let (row, opened) := store.openRow d.state
  let overwrite := match row[d.nonterminal]? with
    | some previous =>
        if previous = d.target then none
        else some ⟨d.state, d.nonterminal, previous, d.target⟩
    | none => none
  (overwrite, opened.setRow d.state (row.insert d.nonterminal d.target))

/-! ## Rows -/

section Rows

variable {κ ν : Type} [Ord κ] [Std.TransOrd κ] {store store' : RowStore κ ν} {cell : Cell κ}
  {entry : ν}

/-- What an opened row holds is what the store holds in that row. -/
theorem getElem?_openRow (store : RowStore κ ν) (s : StateIdx) (column : κ) :
    (store.openRow s).1[column]? = store.get? ⟨s, column⟩ := by
  unfold openRow get?
  cases store.row? s with
  | none => exact Std.ExtTreeMap.getElem?_empty
  | some row => rfl

/-- A row that holds an entry was there before it was opened. -/
theorem openRow_of_get? (h : store.get? cell = some entry) :
    (store.openRow cell.state).2 = store := by
  obtain ⟨row, hrow, -⟩ := Option.bind_eq_some_iff.mp h
  have hold : cell.state ∈ store.rows := by
    rw [Std.ExtTreeMap.mem_iff_isSome_getElem?, ← row?, hrow]
    rfl
  refine RowStore.ext (Std.ExtTreeMap.ext_getElem? fun s => ?_)
  show (store.rows.insertIfNew cell.state ∅)[s]? = store.rows[s]?
  rw [Std.ExtTreeMap.getElem?_insertIfNew, if_neg fun hnew => hnew.2 hold]

/-- To write replaces one row. -/
theorem row?_write (store : RowStore κ ν) (cell : Cell κ) (entry : ν) (s : StateIdx) :
    (store.write cell entry).row? s =
      if cell.state = s then
        some (((store.row? cell.state).getD ∅).insert cell.column entry)
      else store.row? s := by
  show ((store.rows.insertIfNew cell.state ∅).insert cell.state _)[s]? = _
  rw [Std.ExtTreeMap.getElem?_insert, Std.ExtTreeMap.getElem?_insertIfNew]
  simp only [Std.LawfulEqCmp.compare_eq_iff_eq]
  split_ifs with hstate hnew
  · rfl
  · exact absurd hnew.1 hstate
  · rfl

/-- A row that is there is told by its cells. -/
theorem getElem?_of_row? {s : StateIdx} {row : Std.ExtTreeMap κ ν} (h : store.row? s = some row)
    (column : κ) : row[column]? = store.get? ⟨s, column⟩ := by
  rw [get?, h, Option.bind_some]

variable [Std.LawfulEqOrd κ]

theorem get?_write [DecidableEq κ] (store : RowStore κ ν) (cell : Cell κ) (entry : ν)
    (cell' : Cell κ) :
    (store.write cell entry).get? cell' =
      if cell = cell' then some entry else store.get? cell' := by
  obtain ⟨s, column⟩ := cell
  obtain ⟨s', column'⟩ := cell'
  unfold get?
  rw [row?_write]
  simp only [Cell.mk.injEq]
  by_cases hstate : s = s'
  · subst hstate
    rw [if_pos rfl, Option.bind_some, Std.ExtTreeMap.getElem?_insert]
    simp only [Std.LawfulEqCmp.compare_eq_iff_eq, true_and]
    cases store.row? s with
    | none => rw [Option.getD_none, Option.bind_none, Std.ExtTreeMap.getElem?_empty]
    | some row => rw [Option.getD_some, Option.bind_some]
  · rw [if_neg hstate, if_neg fun h => hstate h.1]

/-! ## Rows that hold something -/

theorem exists_getElem?_of_ne_empty {row : Std.ExtTreeMap κ ν} (h : row ≠ ∅) :
    ∃ (column : κ) (entry : ν), row[column]? = some entry := by
  by_contra hnone
  push Not at hnone
  refine h (Std.ExtTreeMap.ext_getElem? fun column => ?_)
  rw [Std.ExtTreeMap.getElem?_empty]
  exact Option.eq_none_iff_forall_ne_some.mpr (hnone column)

/-- A state has a row exactly if some cell of it is filled. -/
theorem HasNoEmptyRow.isSome_row?_iff (h : store.HasNoEmptyRow) {s : StateIdx} :
    (store.row? s).isSome ↔ ∃ column, (store.get? ⟨s, column⟩).isSome := by
  cases hrow : store.row? s with
  | none => simp [get?, hrow]
  | some row =>
    have hne : row ≠ ∅ := fun hempty => h s (hempty ▸ hrow)
    obtain ⟨column, entry, hentry⟩ := exists_getElem?_of_ne_empty hne
    refine iff_of_true rfl ⟨column, ?_⟩
    rw [← getElem?_of_row? hrow, hentry]
    rfl

/-- Without empty rows, a store is what its cells say. -/
theorem HasNoEmptyRow.eq_of_get?_eq (h : store.HasNoEmptyRow) (h' : store'.HasNoEmptyRow)
    (hcells : ∀ cell, store.get? cell = store'.get? cell) : store = store' := by
  refine RowStore.ext (Std.ExtTreeMap.ext_getElem? fun s => ?_)
  show store.row? s = store'.row? s
  have hrows : (store.row? s).isSome ↔ (store'.row? s).isSome := by
    simp only [h.isSome_row?_iff, h'.isSome_row?_iff, hcells]
  cases hrow : store.row? s with
  | none =>
    rw [hrow] at hrows
    exact (Option.not_isSome_iff_eq_none.mp (hrows.not.mp nofun)).symm
  | some row =>
    rw [hrow] at hrows
    obtain ⟨row', hrow'⟩ := Option.isSome_iff_exists.mp (hrows.mp rfl)
    rw [hrow']
    refine congrArg some (Std.ExtTreeMap.ext_getElem? fun column => ?_)
    rw [getElem?_of_row? hrow, getElem?_of_row? hrow', hcells]

/-! ## The table that is stored -/

namespace Stores

variable {table : Table κ ν}

/-- There is only one store for a table. -/
theorem unique (h : store.Stores table) (h' : store'.Stores table) : store = store' :=
  h.hasNoEmptyRow.eq_of_get?_eq h'.hasNoEmptyRow fun cell => by rw [h.get?_eq, h'.get?_eq]

/-- To write into a cell of the store is to write into that cell of the table. -/
theorem write [DecidableEq κ] (h : store.Stores table) (cell : Cell κ) (entry : ν) :
    (store.write cell entry).Stores (Std.ExtTreeMap.insert table cell entry) where
  get?_eq cell' := by
    rw [get?_write, h.get?_eq, Table.held?, Table.held?, Std.ExtTreeMap.getElem?_insert]
    simp only [Std.LawfulEqCmp.compare_eq_iff_eq]
  hasNoEmptyRow s := by
    rw [row?_write]
    split
    · intro hempty
      have hwritten := congrArg (fun row : Std.ExtTreeMap κ ν => row[cell.column]?)
        (Option.some_inj.mp hempty)
      simp at hwritten
    · exact h.hasNoEmptyRow s

end Stores

end Rows

/-! ## Registering -/

/-- An action is written into an empty cell; in all other cases the store is left as it was. -/
theorem registerAction_eq (store : RowStore Terminal Action) (d : ActionDemand) :
    store.registerAction d =
      match store.get? ⟨d.state, d.terminal⟩ with
      | some kept =>
          (if kept = d.action then .ok () else .error ⟨d.state, d.terminal, kept, d.action⟩, store)
      | none => (.ok (), store.write ⟨d.state, d.terminal⟩ d.action) := by
  unfold registerAction
  dsimp only
  rw [getElem?_openRow]
  cases hget : store.get? ⟨d.state, d.terminal⟩ with
  | none => rfl
  | some kept =>
    have hopen : (store.openRow d.state).2 = store := openRow_of_get? hget
    dsimp only
    rw [hopen]
    split_ifs <;> rfl

/-- A target is always written. -/
theorem registerGoto_eq (store : RowStore Nat StateIdx) (d : GotoDemand) :
    store.registerGoto d =
      (match store.get? ⟨d.state, d.nonterminal⟩ with
        | some previous =>
            if previous = d.target then none
            else some ⟨d.state, d.nonterminal, previous, d.target⟩
        | none => none,
        store.write ⟨d.state, d.nonterminal⟩ d.target) := by
  unfold registerGoto
  dsimp only
  rw [getElem?_openRow]
  rfl

end RowStore
end Parsing
end CompilerTables
