import CompilerTables.Log
import CompilerTables.Parsing.Automaton

/-!
# The two parse tables

The action table tells a parser what to do in a state when it sees a terminal; a cell that is not
filled is a syntax error.  The goto table tells it where to go after it has reduced to a
nonterminal.  Both are finite maps on cells, a cell being a state and a column, so two tables are
equal exactly when they answer every cell alike, and a row is the part of the map that lies in one
state.

## Two policies for a cell that is filled already

In the action table the first action stays, and a different one is reported as a conflict.  In the
goto table the last target stays, and a change is only logged, because a sound automaton never asks
for two targets.
-/

namespace CompilerTables
namespace Parsing

/-! ## Cells -/

/-- A place in a table: a state and a column. -/
structure Cell (κ : Type) where
  state : StateIdx
  column : κ
  deriving DecidableEq

namespace Cell

variable {κ : Type}

/-- Cells are ordered row by row. -/
instance [Ord κ] : Ord (Cell κ) :=
  ⟨compareLex (compareOn state) (compareOn column)⟩

instance [Ord κ] [Std.TransOrd κ] : Std.TransOrd (Cell κ) :=
  inferInstanceAs (Std.TransCmp (compareLex (compareOn state) (compareOn column)))

instance [Ord κ] [Std.LawfulEqOrd κ] : Std.LawfulEqOrd (Cell κ) where
  compare_self {c} := by
    have hself : compare c.state c.state = .eq ∧ compare c.column c.column = .eq :=
      ⟨Std.ReflCmp.compare_self, Std.ReflCmp.compare_self⟩
    exact Ordering.then_eq_eq.mpr hself
  eq_of_compare {c d} h := by
    have hparts : compare c.state d.state = .eq ∧ compare c.column d.column = .eq :=
      Ordering.then_eq_eq.mp h
    cases c
    cases d
    rw [Cell.mk.injEq]
    exact ⟨Std.LawfulEqCmp.eq_of_compare hparts.1, Std.LawfulEqCmp.eq_of_compare hparts.2⟩

end Cell

/-- A table with columns in `κ` and entries in `ν`. -/
abbrev Table (κ ν : Type) [Ord κ] := Std.ExtTreeMap (Cell κ) ν

namespace Table

variable {κ ν : Type} [Ord κ] [Std.TransOrd κ]

/-- The filled cells of a table, row by row. -/
def cells (table : Table κ ν) : List (StateIdx × κ × ν) :=
  table.toList.map fun (cell, entry) => (cell.state, cell.column, entry)

/-- The filled cells of one state, which has a row only if it has a filled cell. -/
def row? (table : Table κ ν) (state : StateIdx) : Option (List (κ × ν)) :=
  match table.cells.filterMap fun (s, column, entry) =>
      if s = state then some (column, entry) else none with
  | [] => none
  | row => some row

end Table

/-! ## Actions and conflicts -/

/-- What a parser does when it sees a terminal. -/
inductive Action where
  | shift (target : StateIdx)
  | reduce (production : Nat)
  | accept
  deriving DecidableEq

/-- An action in words. -/
def Action.text : Action → String
  | shift target => s!"shift {target.toNat}"
  | reduce production => s!"reduce {production}"
  | accept => "accept"

/-- The sorts of conflict between two actions. -/
inductive ConflictKind where
  | shiftReduce
  | reduceReduce
  | shiftShift
  | accept
  deriving DecidableEq

/-- The name of a sort of conflict. -/
def ConflictKind.name : ConflictKind → String
  | shiftReduce => "ShiftReduce"
  | reduceReduce => "ReduceReduce"
  | shiftShift => "ShiftShift"
  | accept => "Accept"

/-- Two different actions for one cell, of which the first stays in the table. -/
structure Conflict where
  state : StateIdx
  terminal : Terminal
  kept : Action
  rejected : Action
  deriving DecidableEq

namespace Conflict

/-- The sort of a conflict; to accept collides with anything. -/
def kind (c : Conflict) : ConflictKind :=
  match c.kept, c.rejected with
  | .accept, _ => .accept
  | _, .accept => .accept
  | .shift _, .shift _ => .shiftShift
  | .reduce _, .reduce _ => .reduceReduce
  | .shift _, .reduce _ => .shiftReduce
  | .reduce _, .shift _ => .shiftReduce

/-- A conflict in words. -/
def message (c : Conflict) : String :=
  s!"conflict in action table: state {c.state.toNat}, terminal {c.terminal.text}: " ++
    s!"[{c.kept.text}] vs [{c.rejected.text}]"

end Conflict

/-! ## The action table -/

/-- What to do in each state at each terminal. -/
abbrev ActionTable := Table Terminal Action

namespace ActionTable

/-- The action in a cell. -/
def get? (table : ActionTable) (state : StateIdx) (terminal : Terminal) : Option Action :=
  (table : Std.ExtTreeMap (Cell Terminal) Action)[(⟨state, terminal⟩ : Cell Terminal)]?

/-- Asks for an action in a cell.  The first action of a cell stays; asking for it again is fine,
and asking for a different one is a conflict. -/
def register (table : ActionTable) (state : StateIdx) (terminal : Terminal) (action : Action) :
    Except Conflict ActionTable :=
  match table.get? state terminal with
  | none => .ok (Std.ExtTreeMap.insert table ⟨state, terminal⟩ action)
  | some kept => if kept = action then .ok table else .error ⟨state, terminal, kept, action⟩

end ActionTable

/-! ## The goto table -/

/-- Where to go from each state after a reduction to each nonterminal. -/
abbrev GotoTable := Table Nat StateIdx

/-- A target of the goto table gave way to a different one. -/
structure Overwrite where
  state : StateIdx
  nonterminal : Nat
  previous : StateIdx
  target : StateIdx
  deriving DecidableEq

/-- The words for a change of target. -/
def Overwrite.message (o : Overwrite) : String :=
  s!"goto table: state {o.state.toNat}, nonterminal {o.nonterminal} overwritten " ++
    s!"{o.previous.toNat} -> {o.target.toNat}"

namespace GotoTable

/-- The target in a cell. -/
def get? (table : GotoTable) (state : StateIdx) (nonterminal : Nat) : Option StateIdx :=
  (table : Std.ExtTreeMap (Cell Nat) StateIdx)[(⟨state, nonterminal⟩ : Cell Nat)]?

/-- Puts a target into a cell, whatever the cell held. -/
def register (table : GotoTable) (state : StateIdx) (nonterminal : Nat) (target : StateIdx) :
    GotoTable :=
  Std.ExtTreeMap.insert table ⟨state, nonterminal⟩ target

/-- The change that `register` makes to a cell that held a different target. -/
def overwrite? (table : GotoTable) (state : StateIdx) (nonterminal : Nat) (target : StateIdx) :
    Option Overwrite :=
  match table.get? state nonterminal with
  | some previous =>
      if previous = target then none else some ⟨state, nonterminal, previous, target⟩
  | none => none

end GotoTable
end Parsing
end CompilerTables
