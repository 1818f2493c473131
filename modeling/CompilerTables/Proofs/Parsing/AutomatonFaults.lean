import Mathlib.Data.List.Nodup
import Mathlib.Order.Bounds.Basic
import CompilerTables.Parsing.Automaton
import CompilerTables.Proofs.Outcome

/-!
# The first fault of a list of states

Which states make an automaton, and what the refusal says of those that do not.  A state out of its
place is reported before any bad transition, and of each sort the first one is reported: the least
position with a state out of place, or the least position with a bad transition.

A state may have several bad transitions, and then it depends on the check which of them is
reported, because the transitions of a state form a map and nothing says in which order a check
comes upon them.  `VisitOrder` is that decision, and `faultIn` the check that follows it.  The order
is chosen state by state; it only matters once every state carries its position, and then no two
states are the same.  Whether there is a fault does not depend on the order (`faultIn_eq_none_iff`),
and `FaultOf` describes the faults that some order leads to (`exists_faultIn_eq_some_iff`).  The
check that is carried out takes the transitions in the order of their symbols
(`ofStates_eq_error_iff`).
-/

namespace CompilerTables
namespace Parsing
namespace Automaton

variable {states : Array State} {s : State} {index target : StateIdx} {symbol : Symbol}
  {size position : Nat} {fault : AutomatonError}

/-! ## Faulty positions -/

/-- The state at a position carries another index. -/
def IsMisplaced (states : Array State) (position : Nat) : Prop :=
  ∃ s, states[position]? = some s ∧ s.index.toNat ≠ position

/-- A state has a transition on `epsilon` or one that ends in no state. -/
def IsBad (size : Nat) (s : State) : Prop :=
  ∃ (symbol : Symbol) (target : StateIdx), s.transitions[symbol]? = some target ∧
    (symbol = .epsilon ∨ size ≤ target.toNat)

/-- The state at a position has a bad transition. -/
def IsBadAt (states : Array State) (position : Nat) : Prop :=
  ∃ s, states[position]? = some s ∧ IsBad states.size s

/-- What may be reported of states: the first one out of place, or else, of the first state that has
a bad transition, that it has one on `epsilon`, or the end of another one that ends in no state. -/
inductive FaultOf (states : Array State) : AutomatonError → Prop where
  | misplaced {position : Nat} {s : State} (hs : states[position]? = some s)
      (hleast : IsLeast {place | IsMisplaced states place} position) :
      FaultOf states (.misplacedState position s.index)
  | epsilon {position : Nat} {s : State} {target : StateIdx} (hs : states[position]? = some s)
      (hplaced : ∀ place, ¬ IsMisplaced states place)
      (hleast : IsLeast {place | IsBadAt states place} position)
      (htarget : s.transitions[Symbol.epsilon]? = some target) :
      FaultOf states (.epsilonTransition s.index)
  | dangling {position : Nat} {s : State} {symbol : Symbol} {target : StateIdx}
      (hs : states[position]? = some s) (hplaced : ∀ place, ¬ IsMisplaced states place)
      (hleast : IsLeast {place | IsBadAt states place} position)
      (htarget : s.transitions[symbol]? = some target) (hsymbol : symbol ≠ .epsilon)
      (hsize : states.size ≤ target.toNat) :
      FaultOf states (.danglingTransition s.index target)

/-! ## Checks in any order -/

/-- An order in which a check comes upon the transitions of each state. -/
structure VisitOrder where
  visits : State → List (Symbol × StateIdx)
  perm : ∀ s, (visits s).Perm s.transitions.toList

namespace VisitOrder

/-- The transitions by their symbols. -/
def bySymbol : VisitOrder where
  visits s := s.transitions.toList
  perm _ := .refl _

/-- One transition before all others, in the states that have it. -/
def startingWith (first : Symbol × StateIdx) : VisitOrder where
  visits s :=
    if first ∈ s.transitions.toList then first :: s.transitions.toList.erase first
    else s.transitions.toList
  perm s := by
    split
    · next hmem => exact (List.perm_cons_erase hmem).symm
    · exact .refl _

/-- A fault among the transitions of a state, the first that the check comes upon. -/
def stateFault (order : VisitOrder) (size : Nat) (s : State) : Option AutomatonError :=
  (order.visits s).findSome? fun (symbol, target) => transitionFault size s.index symbol target

theorem mem_visits_iff (order : VisitOrder) :
    (symbol, target) ∈ order.visits s ↔ s.transitions[symbol]? = some target :=
  (order.perm s).mem_iff.trans Std.ExtTreeMap.mem_toList_iff_getElem?_eq_some

theorem findSome?_visits_startingWith {f : Symbol × StateIdx → Option AutomatonError}
    (htarget : s.transitions[symbol]? = some target) (hf : f (symbol, target) = some fault) :
    ((startingWith (symbol, target)).visits s).findSome? f = some fault := by
  have hmem : (symbol, target) ∈ s.transitions.toList :=
    Std.ExtTreeMap.mem_toList_iff_getElem?_eq_some.mpr htarget
  have hvisits : (startingWith (symbol, target)).visits s =
      (symbol, target) :: s.transitions.toList.erase (symbol, target) := if_pos hmem
  rw [hvisits, List.findSome?_cons, hf]

end VisitOrder

/-- The fault that a check finds: a state out of place, or else a bad transition. -/
def faultIn (order : VisitOrder) (states : Array State) : Option AutomatonError :=
  (misplaced? states).or (states.toList.findSome? (order.stateFault states.size))

/-! ## One transition and one state -/

theorem transitionFault_eq_none_iff :
    transitionFault size index symbol target = none ↔
      ¬ (symbol = .epsilon ∨ size ≤ target.toNat) := by
  unfold transitionFault
  by_cases hsymbol : symbol = .epsilon
  · simp [hsymbol]
  · by_cases htarget : target.toNat < size <;> simp [hsymbol, htarget]

theorem transitionFault_eq_some_iff :
    transitionFault size index symbol target = some fault ↔
      (symbol = .epsilon ∧ fault = .epsilonTransition index) ∨
        symbol ≠ .epsilon ∧ size ≤ target.toNat ∧ fault = .danglingTransition index target := by
  unfold transitionFault
  by_cases hsymbol : symbol = .epsilon
  · rw [if_pos hsymbol, Option.some_inj, eq_comm]
    simp only [hsymbol, true_and, ne_eq, not_true_eq_false, false_and, or_false]
  · rw [if_neg hsymbol, Option.ite_none_left_eq_some, Nat.not_lt, Option.some_inj]
    simp only [hsymbol, false_and, ne_eq, not_false_eq_true, true_and, false_or, eq_comm]

/-- Whether a state is faulty does not depend on the order. -/
theorem stateFault_eq_none_iff (order : VisitOrder) :
    order.stateFault size s = none ↔ ¬ IsBad size s := by
  rw [VisitOrder.stateFault, List.findSome?_eq_none_iff]
  simp only [Prod.forall, order.mem_visits_iff, transitionFault_eq_none_iff, IsBad, not_exists,
    not_and]

/-- Every bad transition of a state is reported by a check that begins with it. -/
theorem exists_stateFault_eq_some_iff :
    (∃ order : VisitOrder, order.stateFault size s = some fault) ↔
      ∃ symbol target, s.transitions[symbol]? = some target ∧
        transitionFault size s.index symbol target = some fault := by
  constructor
  · rintro ⟨order, hfault⟩
    obtain ⟨⟨symbol, target⟩, hmem, hfault⟩ := List.exists_of_findSome?_eq_some hfault
    exact ⟨symbol, target, order.mem_visits_iff.mp hmem, hfault⟩
  · rintro ⟨symbol, target, htarget, hfault⟩
    exact ⟨.startingWith (symbol, target),
      VisitOrder.findSome?_visits_startingWith htarget hfault⟩

/-! ## All states -/

theorem isMisplaced_iff :
    IsMisplaced states position ↔
      ∃ s, states.toList[position]? = some s ∧
        (if s.index.toNat = position then none
          else some (AutomatonError.misplacedState position s.index)) ≠ none := by
  simp only [IsMisplaced, Array.getElem?_toList, ne_eq, ite_eq_left_iff, reduceCtorEq, imp_false,
    not_not]

theorem isBadAt_iff (order : VisitOrder) :
    IsBadAt states position ↔
      ∃ s, states.toList[position]? = some s ∧ order.stateFault states.size s ≠ none := by
  simp only [IsBadAt, Array.getElem?_toList, ne_eq, stateFault_eq_none_iff, not_not]

theorem misplaced?_eq_none_iff :
    misplaced? states = none ↔ ∀ position, ¬ IsMisplaced states position :=
  findSome?_zipIdx_eq_none_iff_forall_not fun _ => isMisplaced_iff

theorem misplaced?_eq_some_iff :
    misplaced? states = some fault ↔
      ∃ position s, states[position]? = some s ∧
        IsLeast {place | IsMisplaced states place} position ∧
        fault = .misplacedState position s.index := by
  rw [misplaced?, findSome?_zipIdx_eq_some_iff_isLeast fun _ => isMisplaced_iff]
  simp only [Array.getElem?_toList]
  refine exists_congr fun position => exists_congr fun s => and_congr_right fun hs =>
    and_congr_right fun hleast => ?_
  obtain ⟨s', hs', hne⟩ := hleast.1
  cases hs.symm.trans hs'
  rw [if_neg hne, Option.some_inj, eq_comm]

/-- A check comes upon a bad transition exactly when there is one. -/
theorem findSome?_stateFault_eq_none_iff (order : VisitOrder) :
    states.toList.findSome? (order.stateFault states.size) = none ↔
      ∀ position, ¬ IsBadAt states position :=
  findSome?_eq_none_iff_forall_not fun _ => isBadAt_iff order

theorem findSome?_stateFault_eq_some_iff (order : VisitOrder) :
    states.toList.findSome? (order.stateFault states.size) = some fault ↔
      ∃ position s, states[position]? = some s ∧
        IsLeast {place | IsBadAt states place} position ∧
        order.stateFault states.size s = some fault := by
  rw [findSome?_eq_some_iff_isLeast fun _ => isBadAt_iff order]
  simp only [Array.getElem?_toList]

theorem faultIn_eq_none_iff (order : VisitOrder) :
    faultIn order states = none ↔
      (∀ position, ¬ IsMisplaced states position) ∧ ∀ position, ¬ IsBadAt states position := by
  rw [faultIn, Option.or_eq_none_iff, misplaced?_eq_none_iff, findSome?_stateFault_eq_none_iff]

/-- The faults that a check in some order finds. -/
theorem exists_faultIn_eq_some_iff :
    (∃ order, faultIn order states = some fault) ↔ FaultOf states fault := by
  simp only [faultIn, Option.or_eq_some_iff, misplaced?_eq_some_iff, misplaced?_eq_none_iff,
    findSome?_stateFault_eq_some_iff]
  constructor
  · rintro ⟨order, ⟨position, s, hs, hleast, rfl⟩ | ⟨hplaced, position, s, hs, hleast, hfault⟩⟩
    · exact .misplaced hs hleast
    · obtain ⟨symbol, target, htarget, hfault⟩ := exists_stateFault_eq_some_iff.mp ⟨order, hfault⟩
      rcases transitionFault_eq_some_iff.mp hfault with ⟨rfl, rfl⟩ | ⟨hsymbol, hsize, rfl⟩
      · exact .epsilon hs hplaced hleast htarget
      · exact .dangling hs hplaced hleast htarget hsymbol hsize
  · intro hfault
    cases hfault with
    | misplaced hs hleast => exact ⟨.bySymbol, .inl ⟨_, _, hs, hleast, rfl⟩⟩
    | epsilon hs hplaced hleast htarget =>
      obtain ⟨order, hfault⟩ := exists_stateFault_eq_some_iff.mpr
        ⟨_, _, htarget, transitionFault_eq_some_iff.mpr (.inl ⟨rfl, rfl⟩)⟩
      exact ⟨order, .inr ⟨hplaced, _, _, hs, hleast, hfault⟩⟩
    | dangling hs hplaced hleast htarget hsymbol hsize =>
      obtain ⟨order, hfault⟩ := exists_stateFault_eq_some_iff.mpr
        ⟨_, _, htarget, transitionFault_eq_some_iff.mpr (.inr ⟨hsymbol, hsize, rfl⟩)⟩
      exact ⟨order, .inr ⟨hplaced, _, _, hs, hleast, hfault⟩⟩

/-! ## The check that is carried out -/

/-- States are refused for the fault that is found when transitions are taken by their symbols. -/
theorem ofStates_eq_error_iff :
    ofStates states = .error fault ↔ faultIn .bySymbol states = some fault := by
  have hfaultIn : faultIn .bySymbol states =
      (misplaced? states).or (badTransition? states) := rfl
  unfold ofStates
  split
  · next first hfirst =>
    rw [hfaultIn, hfirst, Option.some_or, Except.error.injEq, Option.some_inj]
  · next hplaced =>
    rw [hplaced, Option.none_or] at hfaultIn
    rw [hfaultIn]
    split
    · next first hfirst => rw [hfirst, Except.error.injEq, Option.some_inj]
    · next hsound =>
      refine iff_of_false nofun fun hfault => ?_
      cases hsound.symm.trans hfault

theorem exists_ofStates_iff_faultIn :
    (∃ a, ofStates states = .ok a) ↔ faultIn .bySymbol states = none := by
  rw [Option.eq_none_iff_forall_ne_some]
  simp only [ne_eq, ← ofStates_eq_error_iff]
  cases ofStates states with
  | ok a => exact iff_of_true ⟨a, rfl⟩ nofun
  | error fault => exact iff_of_false not_exists_error_eq_ok fun h => h fault rfl

theorem faultOf_of_ofStates (h : ofStates states = .error fault) : FaultOf states fault :=
  exists_faultIn_eq_some_iff.mp ⟨.bySymbol, ofStates_eq_error_iff.mp h⟩

theorem forall_not_isMisplaced_iff :
    (∀ position, ¬ IsMisplaced states position) ↔
      ∀ (k : Nat) (hk : k < states.size), states[k].index.toNat = k := by
  constructor
  · intro hplaced k hk
    by_contra hne
    exact hplaced k ⟨_, Array.getElem?_eq_getElem hk, hne⟩
  · rintro hindex position ⟨s, hs, hne⟩
    obtain ⟨hlt, rfl⟩ := Array.getElem?_eq_some_iff.mp hs
    exact hne (hindex position hlt)

theorem forall_not_isBadAt_iff :
    (∀ position, ¬ IsBadAt states position) ↔
      ∀ s ∈ states, s.transitions[Symbol.epsilon]? = none ∧
        ∀ (symbol : Symbol) (target : StateIdx),
          s.transitions[symbol]? = some target → target.toNat < states.size := by
  constructor
  · intro hnone s hs
    obtain ⟨position, hs⟩ := Array.mem_iff_getElem?.mp hs
    have hsound : ¬ IsBad states.size s := fun hbad => hnone position ⟨s, hs, hbad⟩
    refine ⟨?_, fun symbol target htarget => ?_⟩
    · rw [Option.eq_none_iff_forall_ne_some]
      exact fun target htarget => hsound ⟨_, target, htarget, .inl rfl⟩
    · exact Nat.lt_of_not_le fun hle => hsound ⟨symbol, target, htarget, .inr hle⟩
  · rintro hsound position ⟨s, hs, symbol, target, htarget, hbad⟩
    obtain ⟨hepsilon, htargets⟩ := hsound s (Array.mem_of_getElem? hs)
    rcases hbad with rfl | hle
    · cases hepsilon.symm.trans htarget
    · exact Nat.not_le_of_lt (htargets symbol target htarget) hle

/-- States make an automaton exactly when each of them carries its position, none has a transition
on `epsilon`, and every transition ends in one of them. -/
theorem exists_ofStates_iff_sound :
    (∃ a, ofStates states = .ok a) ↔
      (∀ (k : Nat) (hk : k < states.size), states[k].index.toNat = k) ∧
        ∀ s ∈ states, s.transitions[Symbol.epsilon]? = none ∧
          ∀ (symbol : Symbol) (target : StateIdx),
            s.transitions[symbol]? = some target → target.toNat < states.size := by
  rw [exists_ofStates_iff_faultIn, faultIn_eq_none_iff, forall_not_isMisplaced_iff,
    forall_not_isBadAt_iff]

/-- **States are refused for their first fault.**  They make an automaton exactly when each of them
carries its position, none has a transition on `epsilon`, and every transition ends in one of them.
Otherwise the refusal is about the first state out of place, or else about a bad transition of the
first state that has one.  Which of its bad transitions that is depends on the order in which they
are taken, and every one of them can be the one; nothing else depends on the order. -/
theorem ofStates_names_first_fault (states : Array State) :
    ((∃ a, ofStates states = .ok a) ↔
      (∀ (k : Nat) (hk : k < states.size), states[k].index.toNat = k) ∧
        ∀ s ∈ states, s.transitions[Symbol.epsilon]? = none ∧
          ∀ (symbol : Symbol) (target : StateIdx),
            s.transitions[symbol]? = some target → target.toNat < states.size) ∧
      (∀ fault, ofStates states = .error fault → FaultOf states fault) ∧
      (∀ fault, ofStates states = .error fault ↔ faultIn .bySymbol states = some fault) ∧
      (∀ order, faultIn order states = none ↔ ∃ a, ofStates states = .ok a) ∧
      ∀ fault, (∃ order, faultIn order states = some fault) ↔ FaultOf states fault := by
  refine ⟨exists_ofStates_iff_sound, fun fault => faultOf_of_ofStates,
    fun fault => ofStates_eq_error_iff, fun order => ?_, fun fault => exists_faultIn_eq_some_iff⟩
  rw [exists_ofStates_iff_faultIn, faultIn_eq_none_iff, faultIn_eq_none_iff]

/-! ### A state with two bad transitions -/

/-- Two states, the second with a transition on `epsilon` and one that ends in no state. -/
def twofoldStates : Array State := #[
  { index := ⟨0, Nat.two_pow_pos 32⟩, items := [], transitions := ∅ },
  { index := ⟨1, Nat.one_lt_two_pow (Nat.succ_ne_zero 31)⟩
    items := []
    transitions := ((∅ : Transitions).insert .epsilon ⟨0, Nat.two_pow_pos 32⟩).insert
      (.nonterminal 0) ⟨5, Nat.le_add_left 6 _⟩ }]

/-- The states are refused for the transition that leaves them, and another order leads to the
transition on `epsilon`. -/
theorem ofStates_names_first_fault_twofold :
    ofStates twofoldStates = .error (.danglingTransition ⟨1, by decide⟩ ⟨5, by decide⟩) ∧
      FaultOf twofoldStates (.danglingTransition ⟨1, by decide⟩ ⟨5, by decide⟩) ∧
      FaultOf twofoldStates (.epsilonTransition ⟨1, by decide⟩) := by
  obtain ⟨-, hfault, hbySymbol, -, horder⟩ := ofStates_names_first_fault twofoldStates
  have hrefused := (hbySymbol (.danglingTransition ⟨1, by decide⟩ ⟨5, by decide⟩)).mpr
    (by decide +kernel)
  have hepsilon : faultIn (.startingWith (.epsilon, ⟨0, by decide⟩)) twofoldStates =
      some (.epsilonTransition ⟨1, by decide⟩) := by
    decide +kernel
  exact ⟨hrefused, hfault _ hrefused, (horder _).mp ⟨_, hepsilon⟩⟩

end Automaton
end Parsing
end CompilerTables
