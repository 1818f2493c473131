import Mathlib.Logic.Basic
import Mathlib.Logic.Relation
import Mathlib.Tactic.ByContra
import CompilerTables.Proofs.Parsing.Transitions

/-!
# The search for reachable states

The states that `Automaton.unreachableStates` lists are those that no path of transitions from state
`0` reaches (`mem_unreachableStates_iff`).

All that is said of a search is said of its unmarked states.  To visit a list of states takes them
off the unmarked ones, and puts those that were unmarked on the work list (`unmarked_visits_iff`,
`mem_work_visits_iff`).  Two facts follow.

* A round keeps the invariant `Search.Explores`: whatever is marked can be reached, and it is either
  still on the work list or has no unmarked target.
* The number of unmarked states plus the length of the work list is not changed by a visit and goes
  down by one when a state is taken off the list.  It is the number of states at the start, so the
  list is empty after that many rounds (`work_explore_eq_nil`).

With an empty work list the marked states are closed under transitions.
-/

namespace CompilerTables
namespace Parsing

/-! ## Paths -/

namespace Automaton

/-- Some path of transitions leads from one state to another. -/
def Reaches (a : Automaton) : Nat → Nat → Prop :=
  Relation.ReflTransGen fun k l => l ∈ a.targets k

theorem mem_targets_iff {a : Automaton} {k l : Nat} :
    l ∈ a.targets k ↔
      ∃ s, a.states[k]? = some s ∧
        ∃ (symbol : Symbol) (target : StateIdx), s.transitions[symbol]? = some target ∧
          target.toNat = l := by
  unfold targets
  constructor
  · intro h
    split at h
    · next s hs =>
      obtain ⟨⟨symbol, target⟩, hmem, rfl⟩ := List.mem_map.mp h
      exact ⟨s, hs, symbol, target, Std.ExtTreeMap.mem_toList_iff_getElem?_eq_some.mp hmem, rfl⟩
    · exact absurd h List.not_mem_nil
  · rintro ⟨s, hs, symbol, target, htarget, rfl⟩
    rw [hs]
    exact List.mem_map.mpr
      ⟨(symbol, target), Std.ExtTreeMap.mem_toList_iff_getElem?_eq_some.mpr htarget, rfl⟩

/-- Transitions do not leave the automaton. -/
theorem lt_size_of_mem_targets {a : Automaton} {k l : Nat} (h : l ∈ a.targets k) : l < a.size := by
  obtain ⟨s, hs, symbol, target, htarget, rfl⟩ := mem_targets_iff.mp h
  exact (a.transition_sound s (Array.mem_of_getElem? hs) symbol target htarget).2

theorem HasTransition.mem_targets {a : Automaton} {index target : StateIdx} {symbol : Symbol}
    (h : a.HasTransition index symbol target) : target.toNat ∈ a.targets index.toNat := by
  obtain ⟨s, hs, htarget⟩ := h
  exact mem_targets_iff.mpr ⟨s, hs, symbol, target, htarget, rfl⟩

end Automaton

/-! ## Visits -/

namespace Search

variable {search : Search} {targets : List Nat} {k j : Nat}

/-- A state that the search has not come upon yet. -/
def Unmarked (search : Search) (k : Nat) : Prop :=
  search.marked[k]? = some false

/-- What is left to do: the unmarked states may still be put on the work list, and those on the list
have to be taken off. -/
def pending (search : Search) : Nat :=
  search.marked.count false + search.work.length

theorem unmarked_visit_iff :
    (search.visit k).Unmarked j ↔ search.Unmarked j ∧ j ≠ k := by
  unfold visit Unmarked
  split
  · next hk =>
    rw [Array.getElem?_setIfInBounds]
    by_cases hjk : k = j
    · subst hjk
      simp
    · rw [if_neg hjk]
      exact ⟨fun h => ⟨h, fun heq => hjk heq.symm⟩, fun h => h.1⟩
  · next hk =>
    constructor
    · intro h
      refine ⟨h, ?_⟩
      rintro rfl
      exact hk h
    · exact fun h => h.1

theorem mem_work_visit_iff :
    j ∈ (search.visit k).work ↔ j ∈ search.work ∨ (j = k ∧ search.Unmarked j) := by
  unfold visit Unmarked
  split
  · next hk =>
    rw [List.mem_cons]
    constructor
    · rintro (rfl | hj)
      · exact Or.inr ⟨rfl, hk⟩
      · exact Or.inl hj
    · rintro (hj | ⟨rfl, -⟩)
      · exact Or.inr hj
      · exact Or.inl rfl
  · next hk =>
    constructor
    · exact Or.inl
    · rintro (hj | ⟨rfl, hj⟩)
      · exact hj
      · exact absurd hj hk

theorem pending_visit : (search.visit k).pending = search.pending := by
  unfold visit pending
  split
  · next hk =>
    obtain ⟨hlt, hget⟩ := Array.getElem?_eq_some_iff.mp hk
    have hcount : 0 < search.marked.count false := by
      rw [Array.count_pos_iff, ← hget]
      exact Array.getElem_mem hlt
    rw [Array.setIfInBounds_def, dif_pos hlt, Array.count_set, hget, List.length_cons]
    simp
    omega
  · rfl

/-- To visit states marks them and no other. -/
theorem unmarked_visits_iff :
    (targets.foldl visit search).Unmarked j ↔ search.Unmarked j ∧ j ∉ targets := by
  induction targets generalizing search with
  | nil => simp
  | cons k rest ih =>
    rw [List.foldl_cons, ih, unmarked_visit_iff, List.mem_cons, not_or, and_assoc]

/-- To visit states puts those on the work list that were unmarked. -/
theorem mem_work_visits_iff :
    j ∈ (targets.foldl visit search).work ↔
      j ∈ search.work ∨ (j ∈ targets ∧ search.Unmarked j) := by
  induction targets generalizing search with
  | nil => simp
  | cons k rest ih =>
    rw [List.foldl_cons, ih, mem_work_visit_iff, unmarked_visit_iff, List.mem_cons]
    by_cases hjk : j = k
    · simp [hjk]
    · simp [hjk]

/-- To visit states leaves as much to do as before. -/
theorem pending_visits : (targets.foldl visit search).pending = search.pending := by
  induction targets generalizing search with
  | nil => rfl
  | cons k rest ih => rw [List.foldl_cons, ih, pending_visit]

theorem unmarked_start_iff {size : Nat} : (start size).Unmarked j ↔ j < size ∧ j ≠ 0 := by
  unfold start Unmarked
  rw [Array.getElem?_setIfInBounds, Array.getElem?_replicate]
  by_cases hj : 0 = j
  · subst hj
    simp
  · rw [if_neg hj]
    by_cases hlt : j < size
    · simp [hlt]
      omega
    · simp [hlt]

theorem pending_start {size : Nat} (h : 0 < size) : (start size).pending = size := by
  have hlt : 0 < (Array.replicate size false).size := by
    rw [Array.size_replicate]
    exact h
  unfold start pending
  rw [Array.setIfInBounds_def, dif_pos hlt, Array.count_set, Array.count_replicate_self]
  simp
  omega

/-! ## The search as a whole -/

/-- What every round of a search from state `0` keeps: the marked states and those on the work list
can be reached, and no unmarked state is a target of a marked one that is off the list. -/
structure Explores (a : Automaton) (search : Search) : Prop where
  start_marked : ¬ search.Unmarked 0
  reached : ∀ k, k < a.size → ¬ search.Unmarked k → a.Reaches 0 k
  work_reached : ∀ k ∈ search.work, a.Reaches 0 k
  closed : ∀ k, k < a.size → ¬ search.Unmarked k → k ∉ search.work →
    ∀ l ∈ a.targets k, ¬ search.Unmarked l

namespace Explores

variable {a : Automaton}

theorem start : (Search.start a.size).Explores a where
  start_marked h := (unmarked_start_iff.mp h).2 rfl
  reached k hk h := by
    have hzero : k = 0 := by
      by_contra hne
      exact h (unmarked_start_iff.mpr ⟨hk, hne⟩)
    rw [hzero]
    exact Relation.ReflTransGen.refl
  work_reached k hk := by
    rw [List.mem_singleton.mp hk]
    exact Relation.ReflTransGen.refl
  closed k hk h hwork := by
    -- the only marked state is the one on the list
    refine absurd (unmarked_start_iff.mpr ⟨hk, ?_⟩) h
    rintro rfl
    exact hwork (List.mem_singleton_self 0)

/-- A round takes a state off the work list and visits its targets, in any order. -/
theorem round {marked : Array Bool} {rest : List Nat}
    (h : (⟨marked, k :: rest⟩ : Search).Explores a) (horder : targets.Perm (a.targets k)) :
    (targets.foldl visit ⟨marked, rest⟩).Explores a := by
  have hk : a.Reaches 0 k := h.work_reached k List.mem_cons_self
  have htargets : ∀ l ∈ targets, a.Reaches 0 l := fun l hl =>
    Relation.ReflTransGen.tail hk (horder.mem_iff.mp hl)
  refine {
    start_marked := fun hzero => h.start_marked (unmarked_visits_iff.mp hzero).1
    reached := fun j hj hmarked => ?_
    work_reached := fun j hj => ?_
    closed := fun j hj hmarked hwork l hl => ?_ }
  · rw [unmarked_visits_iff, not_and_not_right] at hmarked
    by_cases hold : (⟨marked, rest⟩ : Search).Unmarked j
    · exact htargets j (hmarked hold)
    · exact h.reached j hj hold
  · rcases mem_work_visits_iff.mp hj with hrest | ⟨htarget, -⟩
    · exact h.work_reached j (List.mem_cons_of_mem k hrest)
    · exact htargets j htarget
  · rw [mem_work_visits_iff, not_or, not_and] at hwork
    rw [unmarked_visits_iff, not_and_not_right] at hmarked ⊢
    intro hunmarked
    -- the state was marked before, for otherwise it would have been put on the list
    have hold : ¬ (⟨marked, rest⟩ : Search).Unmarked j := fun hold =>
      hwork.2 (hmarked hold) hold
    by_cases hjk : j = k
    · rw [horder.mem_iff, ← hjk]
      exact hl
    · have hoff : j ∉ k :: rest := by
        rw [List.mem_cons, not_or]
        exact ⟨hjk, hwork.1⟩
      exact absurd hunmarked (h.closed j hj hold hoff l hl)

theorem explore (h : search.Explores a) (rounds : Nat) :
    (a.explore rounds search).Explores a := by
  induction rounds generalizing search with
  | zero => exact h
  | succ rounds ih =>
    obtain ⟨marked, work⟩ := search
    cases work with
    | nil => exact h
    | cons k rest => exact ih (h.round (List.Perm.refl _))

/-- With an empty work list, whatever can be reached is marked. -/
theorem not_unmarked_of_reaches (h : search.Explores a) (hwork : search.work = [])
    (hsize : 0 < a.size) (hreaches : a.Reaches 0 k) : k < a.size ∧ ¬ search.Unmarked k := by
  induction hreaches with
  | refl => exact ⟨hsize, h.start_marked⟩
  | tail _ hstep ih =>
    refine ⟨Automaton.lt_size_of_mem_targets hstep, h.closed _ ih.1 ih.2 ?_ _ hstep⟩
    rw [hwork]
    exact List.not_mem_nil

/-- With an empty work list, the unmarked states are those that cannot be reached. -/
theorem unmarked_iff (h : search.Explores a) (hwork : search.work = []) (hk : k < a.size) :
    search.Unmarked k ↔ ¬ a.Reaches 0 k := by
  constructor
  · intro hunmarked hreaches
    exact (h.not_unmarked_of_reaches hwork (Nat.zero_lt_of_lt hk) hreaches).2 hunmarked
  · intro hreaches
    by_contra hmarked
    exact hreaches (h.reached k hk hmarked)

end Explores

/-- As many rounds as there is work to do are enough. -/
theorem work_explore_eq_nil (a : Automaton) {rounds : Nat} (h : search.pending ≤ rounds) :
    (a.explore rounds search).work = [] := by
  induction rounds generalizing search with
  | zero =>
    have hlength : search.work.length = 0 := by
      unfold pending at h
      omega
    exact List.length_eq_zero_iff.mp hlength
  | succ rounds ih =>
    obtain ⟨marked, work⟩ := search
    cases work with
    | nil => rfl
    | cons k rest =>
      refine ih ?_
      have hpending : (⟨marked, k :: rest⟩ : Search).pending =
          (⟨marked, rest⟩ : Search).pending + 1 := rfl
      rw [pending_visits]
      show (⟨marked, rest⟩ : Search).pending ≤ rounds
      omega

end Search

/-- Whatever a search puts on its work list is the position of a state. -/
theorem Search.lt_size_of_mem_work {a : Automaton} (hsize : 0 < a.size) {rounds k : Nat}
    (hk : k ∈ (a.explore rounds (Search.start a.size)).work) : k < a.size := by
  cases (Search.Explores.start.explore rounds).work_reached k hk with
  | refl => exact hsize
  | tail _ hstep => exact Automaton.lt_size_of_mem_targets hstep

/-- **The unreachable states are those that no path from state `0` reaches.** -/
theorem mem_unreachableStates_iff {a : Automaton} {k : Nat} :
    k ∈ a.unreachableStates ↔ k < a.size ∧ ¬ a.Reaches 0 k := by
  unfold Automaton.unreachableStates
  rw [List.mem_filter, List.mem_range, decide_eq_true_eq]
  refine and_congr_right fun hk => ?_
  have hsize : 0 < a.size := Nat.zero_lt_of_lt hk
  have hwork := Search.work_explore_eq_nil a (Nat.le_of_eq (Search.pending_start hsize))
  exact (Search.Explores.start.explore a.size).unmarked_iff hwork hk

end Parsing
end CompilerTables
