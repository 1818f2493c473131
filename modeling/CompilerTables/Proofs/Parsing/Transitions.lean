import CompilerTables.Parsing.Reachability
import CompilerTables.Proofs.FiniteMap

/-!
# The transitions of an automaton

Each state keeps its own transitions, as a map from symbols to targets.  `Automaton.HasTransition`
looks one up by the index of its state, and `Automaton.transitionsOn` lists those of all states that
are on symbols of one sort.  Each of them is listed once (`nodup_transitionsOn`), since states have
different indices and a symbol leads to one target, so the length of the list is their number.
-/

namespace CompilerTables
namespace Parsing

namespace Symbol

/-- The terminal that a symbol is. -/
def terminal? : Symbol → Option Terminal
  | terminal t => some t
  | _ => none

/-- The nonterminal that a symbol is. -/
def nonterminal? : Symbol → Option Nat
  | nonterminal n => some n
  | _ => none

theorem terminal?_eq_some_iff {symbol : Symbol} {t : Terminal} :
    symbol.terminal? = some t ↔ symbol = .terminal t := by
  cases symbol <;> simp [terminal?]

theorem nonterminal?_eq_some_iff {symbol : Symbol} {n : Nat} :
    symbol.nonterminal? = some n ↔ symbol = .nonterminal n := by
  cases symbol <;> simp [nonterminal?]

end Symbol

namespace Automaton

variable {a : Automaton} {index target : StateIdx} {symbol : Symbol}

/-- The state with an index has a transition on a symbol to a target. -/
def HasTransition (a : Automaton) (index : StateIdx) (symbol : Symbol) (target : StateIdx) : Prop :=
  ∃ s, a.state? index = some s ∧ s.transitions[symbol]? = some target

/-- A state of an automaton is found at its own index. -/
theorem state?_index (a : Automaton) {s : State} (hs : s ∈ a.states) :
    a.state? s.index = some s := by
  obtain ⟨k, hk, rfl⟩ := Array.mem_iff_getElem.mp hs
  rw [state?, a.index_eq k hk]
  exact Array.getElem?_eq_getElem hk

/-- A state that is found at an index is a state of the automaton and carries that index. -/
theorem mem_of_state? (a : Automaton) {index : StateIdx} {s : State}
    (h : a.state? index = some s) : s ∈ a.states ∧ s.index = index := by
  obtain ⟨hlt, rfl⟩ := Array.getElem?_eq_some_iff.mp h
  exact ⟨Array.getElem_mem hlt, Index.ext (a.index_eq index.toNat hlt)⟩

/-- Transitions do not leave the automaton. -/
theorem HasTransition.lt_size (h : a.HasTransition index symbol target) :
    target.toNat < a.size := by
  obtain ⟨s, hs, htarget⟩ := h
  exact (a.transition_sound s (a.mem_of_state? hs).1 symbol target htarget).2

/-- A symbol leads a state to one target. -/
theorem HasTransition.target_eq {target' : StateIdx} (h : a.HasTransition index symbol target)
    (h' : a.HasTransition index symbol target') : target = target' := by
  obtain ⟨s, hs, htarget⟩ := h
  obtain ⟨s', hs', htarget'⟩ := h'
  cases hs.symm.trans hs'
  exact Option.some_inj.mp (htarget.symm.trans htarget')

/-- No two states have the same index. -/
theorem pairwise_index_ne (a : Automaton) :
    a.states.toList.Pairwise fun s s' => s.index ≠ s'.index := by
  rw [List.pairwise_iff_getElem]
  intro i j hi hj hij heq
  have hnumber := congrArg Index.toNat heq
  rw [Array.getElem_toList, Array.getElem_toList, a.index_eq i (by simpa using hi),
    a.index_eq j (by simpa using hj)] at hnumber
  omega

/-- The transitions on symbols of some sort, with their states, their columns in that sort, and
their targets. -/
def transitionsOn {κ : Type} (a : Automaton) (column? : Symbol → Option κ) :
    List (StateIdx × κ × StateIdx) :=
  a.states.toList.flatMap fun s => s.transitions.toList.filterMap fun (symbol, target) =>
    (column? symbol).map fun column => (s.index, column, target)

/-- The transitions on terminals. -/
def terminalTransitions (a : Automaton) : List (StateIdx × Terminal × StateIdx) :=
  a.transitionsOn Symbol.terminal?

/-- The transitions on nonterminals. -/
def nonterminalTransitions (a : Automaton) : List (StateIdx × Nat × StateIdx) :=
  a.transitionsOn Symbol.nonterminal?

variable {κ : Type} {column? : Symbol → Option κ} {column : κ}

theorem mem_transitionsOn_iff :
    (index, column, target) ∈ a.transitionsOn column? ↔
      ∃ symbol, column? symbol = some column ∧ a.HasTransition index symbol target := by
  rw [transitionsOn, List.mem_flatMap]
  constructor
  · rintro ⟨s, hs, hmem⟩
    obtain ⟨⟨symbol, target'⟩, htransition, hlisted⟩ := List.mem_filterMap.mp hmem
    obtain ⟨column', hcolumn, heq⟩ := Option.map_eq_some_iff.mp hlisted
    cases heq
    exact ⟨symbol, hcolumn, s, a.state?_index (Array.mem_toList_iff.mp hs),
      Std.ExtTreeMap.mem_toList_iff_getElem?_eq_some.mp htransition⟩
  · rintro ⟨symbol, hcolumn, s, hs, htarget⟩
    obtain ⟨hmem, rfl⟩ := a.mem_of_state? hs
    refine ⟨s, Array.mem_toList_iff.mpr hmem, List.mem_filterMap.mpr ⟨(symbol, target), ?_, ?_⟩⟩
    · exact Std.ExtTreeMap.mem_toList_iff_getElem?_eq_some.mpr htarget
    · exact Option.map_eq_some_iff.mpr ⟨column, hcolumn, rfl⟩

theorem mem_terminalTransitions_iff {t : Terminal} :
    (index, t, target) ∈ a.terminalTransitions ↔ a.HasTransition index (.terminal t) target := by
  simp only [terminalTransitions, mem_transitionsOn_iff, Symbol.terminal?_eq_some_iff,
    exists_eq_left]

theorem mem_nonterminalTransitions_iff {n : Nat} :
    (index, n, target) ∈ a.nonterminalTransitions ↔
      a.HasTransition index (.nonterminal n) target := by
  simp only [nonterminalTransitions, mem_transitionsOn_iff, Symbol.nonterminal?_eq_some_iff,
    exists_eq_left]

/-- Within a sort no transition is listed twice. -/
theorem nodup_transitionsOn
    (hcolumn : ∀ x y column, column? x = some column → column? y = some column → x = y) :
    (a.transitionsOn column?).Nodup := by
  rw [transitionsOn, List.nodup_flatMap]
  constructor
  · intro s _
    refine List.Nodup.filterMap ?_ (nodup_toList s.transitions)
    rintro ⟨x, i⟩ ⟨y, j⟩ listed hx hy
    obtain ⟨c, hc, rfl⟩ := Option.map_eq_some_iff.mp hx
    obtain ⟨d, hd, heq⟩ := Option.map_eq_some_iff.mp hy
    obtain ⟨-, rfl, rfl⟩ : s.index = s.index ∧ d = c ∧ j = i := by simpa using heq
    rw [hcolumn x y d hc hd]
  · refine a.pairwise_index_ne.imp fun {s s'} hne => ?_
    intro listed hs hs'
    obtain ⟨_, -, hlisted⟩ := List.mem_filterMap.mp hs
    obtain ⟨_, -, hlisted'⟩ := List.mem_filterMap.mp hs'
    obtain ⟨c, -, rfl⟩ := Option.map_eq_some_iff.mp hlisted
    obtain ⟨d, -, heq⟩ := Option.map_eq_some_iff.mp hlisted'
    exact hne (congrArg Prod.fst heq).symm

theorem nodup_terminalTransitions (a : Automaton) : a.terminalTransitions.Nodup := by
  refine nodup_transitionsOn fun x y t hx hy => ?_
  rw [Symbol.terminal?_eq_some_iff.mp hx, Symbol.terminal?_eq_some_iff.mp hy]

theorem nodup_nonterminalTransitions (a : Automaton) : a.nonterminalTransitions.Nodup := by
  refine nodup_transitionsOn fun x y n hx hy => ?_
  rw [Symbol.nonterminal?_eq_some_iff.mp hx, Symbol.nonterminal?_eq_some_iff.mp hy]

end Automaton
end Parsing
end CompilerTables
