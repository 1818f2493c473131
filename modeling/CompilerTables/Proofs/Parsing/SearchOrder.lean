import Mathlib.Data.List.Nodup
import CompilerTables.Proofs.Parsing.Reachability

/-!
# Searches in any order

The transitions of a state form a map, and nothing says in which order a search comes upon their
targets.  `Search.Run` is the search without that decision: each round takes a state off the work
list and visits its targets in some order.  A run also keeps the list of all states that were ever
put on the work list.

Whatever the order, a run puts no state on the list twice (`Run.nodup_pushed`), looks at nothing but
states (`Run.lt_size_of_mem_pushed`), and ends after as many rounds as there are states at most
(`Run.rounds_add_pending`).  When it ends, the states that it has not marked are the unreachable
ones (`Run.filter_unmarked_eq`), and so the order makes no difference.  The search that
`Automaton.explore` carries out is one of these runs (`Run.exists_explore`).
-/

namespace CompilerTables
namespace Parsing
namespace Search

variable {a : Automaton} {search : Search} {rounds : Nat} {pushed : List Nat}

/-- A search after so many rounds, and the states that it has put on its work list so far, the
latest first.  Each round visits the targets of a state in an order of its own. -/
inductive Run (a : Automaton) : Nat → List Nat → Search → Prop where
  | start (h : 0 < a.size) : Run a 0 [0] (Search.start a.size)
  | round {rounds k : Nat} {pushed rest targets new : List Nat} {marked : Array Bool}
      (hrun : Run a rounds pushed ⟨marked, k :: rest⟩) (horder : targets.Perm (a.targets k))
      (hnew : (targets.foldl visit ⟨marked, rest⟩).work = new ++ rest) :
      Run a (rounds + 1) (new ++ pushed) (targets.foldl visit ⟨marked, rest⟩)

/-! ## What is put on the work list -/

/-- To visit states puts each of them on the work list that was unmarked, once. -/
theorem exists_work_visits_eq (targets : List Nat) (search : Search) :
    ∃ new, (targets.foldl visit search).work = new ++ search.work ∧ new.Nodup ∧
      ∀ j, j ∈ new ↔ j ∈ targets ∧ search.Unmarked j := by
  induction targets generalizing search with
  | nil => exact ⟨[], rfl, List.nodup_nil, fun j => by simp⟩
  | cons k rest ih =>
    obtain ⟨new, hwork, hnodup, hnew⟩ := ih (search.visit k)
    rw [List.foldl_cons, hwork]
    by_cases hk : search.Unmarked k
    · have hvisit : (search.visit k).work = k :: search.work := by
        unfold visit
        rw [if_pos (show search.marked[k]? = some false from hk)]
      have habsent : k ∉ new := fun hmem =>
        (unmarked_visit_iff.mp ((hnew k).mp hmem).2).2 rfl
      refine ⟨new ++ [k], by rw [hvisit, List.append_assoc]; rfl, ?_, fun j => ?_⟩
      · rw [List.nodup_append_comm]
        exact List.nodup_cons.mpr ⟨habsent, hnodup⟩
      · rw [List.mem_append, List.mem_singleton, hnew, unmarked_visit_iff, List.mem_cons]
        by_cases hjk : j = k
        · simp [hjk, hk]
        · simp [hjk]
    · have hvisit : search.visit k = search := if_neg hk
      rw [hvisit] at hnew ⊢
      refine ⟨new, rfl, hnodup, fun j => ?_⟩
      rw [hnew, List.mem_cons]
      by_cases hjk : j = k
      · simp [hjk, hk]
      · simp [hjk]

theorem size_marked_visit (search : Search) (k : Nat) :
    (search.visit k).marked.size = search.marked.size := by
  unfold visit
  split
  · exact Array.size_setIfInBounds
  · rfl

theorem size_marked_visits (targets : List Nat) (search : Search) :
    (targets.foldl visit search).marked.size = search.marked.size := by
  induction targets generalizing search with
  | nil => rfl
  | cons k rest ih => rw [List.foldl_cons, ih, size_marked_visit]

namespace Run

theorem size_pos (h : Run a rounds pushed search) : 0 < a.size := by
  induction h with
  | start h => exact h
  | round _ _ _ ih => exact ih

theorem explores (h : Run a rounds pushed search) : search.Explores a := by
  induction h with
  | start => exact Explores.start
  | round _ horder _ ih => exact ih.round horder

/-- Each round takes one state off, so the rounds are counted by what is left to do. -/
theorem rounds_add_pending (h : Run a rounds pushed search) :
    rounds + search.pending = a.size := by
  induction h with
  | start h => rw [pending_start h, Nat.zero_add]
  | @round rounds k pushed rest targets new marked _ horder hnew ih =>
    rw [pending_visits]
    have htaken : (⟨marked, k :: rest⟩ : Search).pending =
        (⟨marked, rest⟩ : Search).pending + 1 := rfl
    omega

theorem size_marked (h : Run a rounds pushed search) : search.marked.size = a.size := by
  induction h with
  | start => simp [Search.start]
  | round _ _ _ ih => rw [size_marked_visits, ih]

/-- What is still on the work list was put there. -/
theorem work_subset_pushed (h : Run a rounds pushed search) : search.work ⊆ pushed := by
  induction h with
  | start => exact List.Subset.refl _
  | round _ _ hnew ih =>
    rw [hnew]
    exact List.append_subset.mpr ⟨List.subset_append_left _ _, fun j hj =>
      List.mem_append_right _ (ih (List.mem_cons_of_mem _ hj))⟩

/-- In a round, the states that are put on the work list are the unmarked targets, each once. -/
theorem new_of_round {k : Nat} {rest targets new : List Nat} {marked : Array Bool}
    (hnew : (targets.foldl visit ⟨marked, rest⟩).work = new ++ rest) :
    new.Nodup ∧ ∀ j, j ∈ new ↔ j ∈ targets ∧ (⟨marked, k :: rest⟩ : Search).Unmarked j := by
  obtain ⟨new', hwork, hnodup, hmem⟩ := exists_work_visits_eq targets ⟨marked, rest⟩
  rw [hnew, List.append_cancel_right_eq] at hwork
  rw [hwork]
  exact ⟨hnodup, hmem⟩

/-- The states that were put on the work list are the marked ones. -/
theorem mem_pushed_iff (h : Run a rounds pushed search) (j : Nat) :
    j ∈ pushed ↔ j < a.size ∧ ¬ search.Unmarked j := by
  induction h with
  | start h =>
    rw [List.mem_singleton, unmarked_start_iff]
    omega
  | @round rounds k pushed rest targets new marked _ horder hnew ih =>
    have htargets : j ∈ targets → j < a.size := fun hj =>
      Automaton.lt_size_of_mem_targets (horder.mem_iff.mp hj)
    have hsame : (⟨marked, k :: rest⟩ : Search).Unmarked j ↔
        (⟨marked, rest⟩ : Search).Unmarked j := Iff.rfl
    rw [List.mem_append, (new_of_round (k := k) hnew).2, ih, unmarked_visits_iff, hsame]
    tauto

/-- Whatever is put on the work list is the position of a state. -/
theorem lt_size_of_mem_pushed (h : Run a rounds pushed search) {j : Nat} (hj : j ∈ pushed) :
    j < a.size :=
  ((h.mem_pushed_iff j).mp hj).1

/-- No state is put on the work list twice. -/
theorem nodup_pushed (h : Run a rounds pushed search) : pushed.Nodup := by
  induction h with
  | start => exact List.nodup_singleton 0
  | @round rounds k pushed rest targets new marked hrun horder hnew ih =>
    obtain ⟨hnodup, hmem⟩ := new_of_round (k := k) hnew
    refine List.nodup_append'.mpr ⟨hnodup, ih, fun j hjnew hjpushed => ?_⟩
    -- a state that is new was unmarked, and what was put on the list before is marked
    exact ((hrun.mem_pushed_iff j).mp hjpushed).2 ((hmem j).mp hjnew).2

/-! ## The end of a run -/

/-- As long as something is on the work list there is a next round, for every order of the
targets. -/
theorem exists_round {k : Nat} {rest : List Nat} {marked : Array Bool}
    (h : Run a rounds pushed ⟨marked, k :: rest⟩) {targets : List Nat}
    (horder : targets.Perm (a.targets k)) :
    ∃ new, Run a (rounds + 1) (new ++ pushed) (targets.foldl visit ⟨marked, rest⟩) := by
  obtain ⟨new, hnew, -⟩ := exists_work_visits_eq targets ⟨marked, rest⟩
  exact ⟨new, h.round horder hnew⟩

/-- A run that has come to its end has marked the states that can be reached. -/
theorem filter_unmarked_eq (h : Run a rounds pushed search) (hwork : search.work = []) :
    (List.range a.size).filter (fun k => search.marked[k]? = some false) =
      a.unreachableStates := by
  unfold Automaton.unreachableStates
  refine List.filter_congr fun k hk => ?_
  have hsize := h.size_pos
  have hend := work_explore_eq_nil a (Nat.le_of_eq (pending_start hsize))
  rw [decide_eq_decide]
  exact (h.explores.unmarked_iff hwork (List.mem_range.mp hk)).trans
    ((Explores.start.explore a.size).unmarked_iff hend (List.mem_range.mp hk)).symm

/-- The search that is carried out goes on from any point of a run. -/
theorem exists_explore (h : Run a rounds pushed search) (more : Nat) :
    ∃ rounds pushed, Run a rounds pushed (a.explore more search) := by
  induction more generalizing rounds pushed search with
  | zero => exact ⟨rounds, pushed, h⟩
  | succ more ih =>
    obtain ⟨marked, work⟩ := search
    cases work with
    | nil => exact ⟨rounds, pushed, h⟩
    | cons k rest =>
      obtain ⟨new, hnext⟩ := h.exists_round (List.Perm.refl _)
      exact ih hnext

end Run

/-- What holds of a search at every point of a run: no state was put on the work list twice, nothing
but states was put there or will be marked next, the rounds are no more than the states, there is a
next round in every order as long as there is work, and at the end the unmarked states are the
unreachable ones. -/
structure Proceeds (a : Automaton) (rounds : Nat) (pushed : List Nat) (search : Search) : Prop where
  nodup_pushed : pushed.Nodup
  work_subset : search.work ⊆ pushed
  pushed_lt : ∀ k ∈ pushed, k < a.size
  size_marked : search.marked.size = a.size
  rounds_le : rounds ≤ a.size
  next_round : ∀ (k : Nat) (rest targets : List Nat), search.work = k :: rest →
    targets.Perm (a.targets k) → (∀ l ∈ targets, l < search.marked.size) ∧
      ∃ new, Run a (rounds + 1) (new ++ pushed) (targets.foldl visit ⟨search.marked, rest⟩)
  unmarked_eq : search.work = [] →
    (List.range a.size).filter (fun k => search.marked[k]? = some false) = a.unreachableStates

theorem Run.proceeds (h : Run a rounds pushed search) : search.Proceeds a rounds pushed where
  nodup_pushed := h.nodup_pushed
  work_subset := h.work_subset_pushed
  pushed_lt _ := h.lt_size_of_mem_pushed
  size_marked := h.size_marked
  rounds_le := by
    rw [← h.rounds_add_pending]
    exact Nat.le_add_right _ _
  next_round k rest targets hwork horder := by
    refine ⟨fun l hl => ?_, ?_⟩
    · rw [h.size_marked]
      exact Automaton.lt_size_of_mem_targets (horder.mem_iff.mp hl)
    · obtain ⟨marked, work⟩ := search
      cases hwork
      exact h.exists_round horder
  unmarked_eq := h.filter_unmarked_eq

end Search

/-- **Every search finds the same unreachable states.**  They are listed in ascending order, without
state `0`, and are those that no path of transitions reaches from there.  A search may visit the
targets of a state in any order.  It puts no state on its work list twice and nothing else than
states, it ends after as many rounds as there are states at most, and then what it has not marked is
that list.  The search that is carried out is one of these and comes to its end. -/
theorem unreachable_by_any_search (a : Automaton) :
    a.unreachableStates.Pairwise (· < ·) ∧
      (∀ k, k ∈ a.unreachableStates ↔ k < a.size ∧ ¬ a.Reaches 0 k) ∧
      (a.size = 0 → a.unreachableStates = []) ∧ 0 ∉ a.unreachableStates ∧
      (∀ rounds pushed search, Search.Run a rounds pushed search →
        search.Proceeds a rounds pushed) ∧
      (0 < a.size → (a.explore a.size (Search.start a.size)).work = [] ∧
        ∃ rounds pushed, Search.Run a rounds pushed (a.explore a.size (Search.start a.size))) := by
  refine ⟨?_, fun k => mem_unreachableStates_iff, fun hsize => ?_, fun hzero => ?_,
    fun rounds pushed search hrun => hrun.proceeds, fun hsize => ⟨?_, ?_⟩⟩
  · exact List.pairwise_lt_range.filter _
  · rw [List.eq_nil_iff_forall_not_mem]
    intro k hk
    have hlt := (mem_unreachableStates_iff.mp hk).1
    omega
  · exact (mem_unreachableStates_iff.mp hzero).2 Relation.ReflTransGen.refl
  · exact Search.work_explore_eq_nil a (Nat.le_of_eq (Search.pending_start hsize))
  · exact (Search.Run.start hsize).exists_explore a.size

/-! ## A search with a cycle -/

/-- One of four states, without items, whose transitions lead to these states. -/
def circlingState (k : Nat) (targets : List Nat) : State :=
  let index (k : Nat) : StateIdx := ⟨k % 4, by omega⟩
  { index := index k
    items := []
    transitions := targets.zipIdx.foldl (fun transitions (target, n) =>
      transitions.insert (.nonterminal n) (index target)) ∅ }

/-- States `0` and `1` lead to each other and `1` to itself; `0` also leads to `2`, and nothing
leads to `3` but `3`. -/
def circling : Automaton where
  states := #[circlingState 0 [1, 2], circlingState 1 [1, 0], circlingState 2 [],
    circlingState 3 [3, 1]]
  index_eq := Automaton.index_eq_of_misplaced? (by decide)
  transition_sound := Automaton.transition_sound_of_badTransition? (by decide)

/-- A run that visits the targets of state `0` in the other order than the search that is carried
out comes to the same result. -/
theorem unreachable_by_any_search_circling :
    Search.Run circling 3 [1, 2, 0] ⟨#[true, true, true, false], []⟩ ∧
      (circling.explore 4 (Search.start 4)).work = [] ∧
      [1, 2, 0].Nodup ∧ circling.unreachableStates = [3] := by
  have htargets : [2, 1].Perm (circling.targets 0) ∧ [0, 1].Perm (circling.targets 1) ∧
      [].Perm (circling.targets 2) := by decide +kernel
  have hfirst : Search.Run circling 1 ([1, 2] ++ [0]) ⟨#[true, true, true, false], [1, 2]⟩ :=
    .round (.start (by decide)) htargets.1 rfl
  have hsecond : Search.Run circling 2 ([] ++ [1, 2, 0]) ⟨#[true, true, true, false], [2]⟩ :=
    .round hfirst htargets.2.1 rfl
  have hrun : Search.Run circling 3 ([] ++ [1, 2, 0]) ⟨#[true, true, true, false], []⟩ :=
    .round hsecond htargets.2.2 rfl
  obtain ⟨-, -, -, -, hproceeds, hends⟩ := unreachable_by_any_search circling
  have hfound := (hproceeds _ _ _ hrun).unmarked_eq rfl
  exact ⟨hrun, (hends (by decide)).1, (hproceeds _ _ _ hrun).nodup_pushed,
    hfound.symm.trans (by decide)⟩

end Parsing
end CompilerTables
