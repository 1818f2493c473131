import CompilerTables.Index
import CompilerTables.Parsing.Production

/-!
# The automaton of item sets

A state of the canonical collection holds items, which are productions with a dot and a lookahead
terminal, and transitions, which form a finite map from symbols to states.  State `0` is the initial
state.

An `Automaton` is sound by its type: the state at each position carries that position as its index,
no transition is labelled `epsilon`, and every transition ends in a state of the automaton.
`Automaton.ofStates` checks a list of states and reports a fault: a misplaced state before any bad
transition, and among bad transitions one of the first state that has one.
-/

namespace CompilerTables
namespace Parsing

/-- A position in the states of an automaton. -/
abbrev StateIdx := Index "StateIdx"

/-- A production with a dot in its body and a lookahead terminal. -/
structure Item where
  production : Production
  dot : Nat
  lookahead : Terminal
  deriving DecidableEq

namespace Item

/-- The symbol right after the dot; there is none once the dot is at or past the end. -/
def next? (item : Item) : Option Symbol :=
  item.production.body[item.dot]?

/-- An item is completed when nothing is left to read: the dot is at the end or before `epsilon`. -/
def isCompleted (item : Item) : Bool :=
  match item.next? with
  | none => true
  | some s => s = .epsilon

end Item

/-- The transitions of a state. -/
abbrev Transitions := Std.ExtTreeMap Symbol StateIdx

/-- A state of the canonical collection. -/
structure State where
  index : StateIdx
  items : List Item
  transitions : Transitions
  deriving DecidableEq

/-- The state that a symbol leads to. -/
def State.successor? (s : State) (symbol : Symbol) : Option StateIdx :=
  s.transitions[symbol]?

/-- Why a list of states is no automaton. -/
inductive AutomatonError where
  | misplacedState (position : Nat) (index : StateIdx)
  | danglingTransition (state target : StateIdx)
  | epsilonTransition (state : StateIdx)
  deriving DecidableEq

/-- The words for each fault of an automaton. -/
def AutomatonError.message : AutomatonError → String
  | misplacedState position index =>
      s!"state at position {position} carries index {index.toNat}"
  | danglingTransition state target =>
      s!"state {state.toNat} has a transition to missing state {target.toNat}"
  | epsilonTransition state => s!"state {state.toNat} has a transition on epsilon"

/-- The states of a canonical collection with sound indices and transitions. -/
structure Automaton where
  states : Array State
  index_eq : ∀ (k : Nat) (h : k < states.size), states[k].index.toNat = k
  transition_sound : ∀ s ∈ states, ∀ (symbol : Symbol) (target : StateIdx),
    s.transitions[symbol]? = some target →
    symbol ≠ .epsilon ∧ target.toNat < states.size

namespace Automaton

/-- The first state that does not carry its position as its index. -/
def misplaced? (states : Array State) : Option AutomatonError :=
  states.toList.zipIdx.findSome? fun (s, position) =>
    if s.index.toNat = position then none else some (.misplacedState position s.index)

/-- What is wrong with one transition in an automaton of `size` states. -/
def transitionFault (size : Nat) (state : StateIdx) (symbol : Symbol) (target : StateIdx) :
    Option AutomatonError :=
  if symbol = .epsilon then some (.epsilonTransition state)
  else if target.toNat < size then none
  else some (.danglingTransition state target)

/-- A fault among the transitions of a state. -/
def stateFault (size : Nat) (s : State) : Option AutomatonError :=
  s.transitions.toList.findSome? fun (symbol, target) => transitionFault size s.index symbol target

/-- A fault among all transitions, of the first state that has one. -/
def badTransition? (states : Array State) : Option AutomatonError :=
  states.toList.findSome? (stateFault states.size)

theorem index_eq_of_misplaced? {states : Array State} (h : misplaced? states = none) :
    ∀ (k : Nat) (hk : k < states.size), states[k].index.toNat = k := by
  intro k hk
  have hmem : (states[k], k) ∈ states.toList.zipIdx := by
    simp [List.mem_zipIdx_iff_getElem?, hk]
  have hnone := List.findSome?_eq_none_iff.mp h _ hmem
  refine Decidable.byContradiction fun hne => ?_
  simp [hne] at hnone

theorem transition_sound_of_badTransition? {states : Array State}
    (h : badTransition? states = none) :
    ∀ s ∈ states, ∀ (symbol : Symbol) (target : StateIdx),
      s.transitions[symbol]? = some target →
        symbol ≠ .epsilon ∧ target.toNat < states.size := by
  intro s hs symbol target htarget
  have hstate : stateFault states.size s = none :=
    List.findSome?_eq_none_iff.mp h s (by simpa using hs)
  have hmem : (symbol, target) ∈ s.transitions.toList :=
    Std.ExtTreeMap.mem_toList_iff_getElem?_eq_some.mpr htarget
  have hfault : transitionFault states.size s.index symbol target = none :=
    List.findSome?_eq_none_iff.mp hstate _ hmem
  unfold transitionFault at hfault
  split at hfault
  · cases hfault
  · next hsymbol =>
    split at hfault
    · next htarget => exact ⟨hsymbol, htarget⟩
    · cases hfault

/-- The automaton with these states, or a reason why there is none. -/
def ofStates (states : Array State) : Except AutomatonError Automaton :=
  match hmisplaced : misplaced? states with
  | some fault => .error fault
  | none => match hbad : badTransition? states with
    | some fault => .error fault
    | none => .ok {
        states
        index_eq := index_eq_of_misplaced? hmisplaced
        transition_sound := transition_sound_of_badTransition? hbad }

/-- An automaton consists of the states that it was made from. -/
theorem states_of_ofStates {states : Array State} {a : Automaton}
    (h : ofStates states = .ok a) : a.states = states := by
  unfold ofStates at h
  split at h
  · cases h
  · split at h
    · cases h
    · cases h
      rfl

/-- The number of states. -/
def size (a : Automaton) : Nat := a.states.size

/-- The state with an index. -/
def state? (a : Automaton) (index : StateIdx) : Option State :=
  a.states[index.toNat]?

end Automaton
end Parsing
end CompilerTables
