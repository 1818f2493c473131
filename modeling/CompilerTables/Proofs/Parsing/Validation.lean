import CompilerTables.Proofs.Parsing.AutomatonFaults
import CompilerTables.Proofs.Parsing.GrammarFaults

/-!
# What grammars and automata ask of their parts

A grammar and an automaton check the parts that they are made from.  Some of what they check is
settled for parts that were made by resolving names: their symbols are declared, their states carry
their positions, and no name stands for `epsilon`.  For such parts the checks come down to little.
A grammar asks that the augmented production exists and that no production is listed twice
(`Grammar.exists_ofParts_iff`), an automaton that every transition ends in one of its states
(`Automaton.exists_ofStates_iff`), and a refusal names one of these faults and nothing else.
-/

namespace CompilerTables
namespace Parsing

/-! ## Grammars -/

namespace Grammar

variable {nonterminalNames terminalNames : Array String} {productions : Array Production}
  {augmented : Nat}

/-- With all symbols declared, parts are refused only because the augmented production does not
exist or because a production is listed twice. -/
theorem fault_of_ofParts
    (hdeclared : ∀ p ∈ productions, ∀ s ∈ p.symbols,
      s.Declared nonterminalNames.size terminalNames.size) {e : GrammarError}
    (h : ofParts nonterminalNames terminalNames productions augmented = .error e) :
    (e = .missingAugmented augmented ∧ productions.size ≤ augmented) ∨
      ∃ index first, e = .duplicateProduction index first ∧ first < index ∧
        index < productions.size ∧ productions[first]? = productions[index]? := by
  simp only [forall_symbols_declared_iff] at hdeclared
  refine (ofParts_eq_error_iff.mp h).imp (fun h => ⟨h.2, h.1⟩) fun ⟨_, hfound⟩ => ?_
  obtain ⟨index, -, hfault⟩ := firstFault?_eq_some_iff.mp hfound
  cases hfault with
  | lhs hp hlhs =>
    exact absurd (hdeclared _ (Array.mem_of_getElem? hp)).1 (Nat.not_lt_of_le hlhs)
  | nonterminal hp hlhs hbody hbefore hn =>
    have hsymbol := (hdeclared _ (Array.mem_of_getElem? hp)).2 _
      (by rw [hbody]; exact List.mem_append_right _ List.mem_cons_self)
    exact absurd hsymbol (Nat.not_lt_of_le hn)
  | terminal hp hlhs hbody hbefore ht hterminals =>
    have hsymbol := (hdeclared _ (Array.mem_of_getElem? hp)).2 _
      (by rw [hbody]; exact List.mem_append_right _ List.mem_cons_self)
    exact absurd (hsymbol.resolve_left ht) (Nat.not_lt_of_le hterminals)
  | duplicate hp hlhs hbody hlt hfirst honly =>
    exact ⟨index, _, rfl, hlt, (Array.getElem?_eq_some_iff.mp hp).1, hfirst.trans hp.symm⟩

/-- Parts with declared symbols make a grammar exactly when the augmented production exists and no
production is listed twice. -/
theorem exists_ofParts_iff
    (hdeclared : ∀ p ∈ productions, ∀ s ∈ p.symbols,
      s.Declared nonterminalNames.size terminalNames.size) :
    (∃ g, ofParts nonterminalNames terminalNames productions augmented = .ok g) ↔
      augmented < productions.size ∧ productions.toList.Nodup := by
  simp only [forall_symbols_declared_iff] at hdeclared
  rw [exists_ofParts_iff_sound, and_iff_right hdeclared]

end Grammar

/-! ## Automata -/

namespace Automaton

variable {states : Array State}

/-- With states in their places and no transition on `epsilon`, states are refused only because a
transition leaves them. -/
theorem fault_of_ofStates
    (hindex : ∀ k (hk : k < states.size), states[k].index.toNat = k)
    (hepsilon : ∀ s ∈ states, s.transitions[Symbol.epsilon]? = none) {e : AutomatonError}
    (h : ofStates states = .error e) :
    ∃ s ∈ states, ∃ (symbol : Symbol) (target : StateIdx),
      s.transitions[symbol]? = some target ∧ states.size ≤ target.toNat ∧
        e = .danglingTransition s.index target := by
  cases faultOf_of_ofStates h with
  | misplaced hs hleast =>
    exact absurd hleast.1 (forall_not_isMisplaced_iff.mpr hindex _)
  | epsilon hs hplaced hleast htarget =>
    cases (hepsilon _ (Array.mem_of_getElem? hs)).symm.trans htarget
  | dangling hs hplaced hleast htarget hsymbol hsize =>
    exact ⟨_, Array.mem_of_getElem? hs, _, _, htarget, hsize, rfl⟩

/-- States in their places with no transition on `epsilon` make an automaton exactly when every
transition ends in one of them. -/
theorem exists_ofStates_iff
    (hindex : ∀ k (hk : k < states.size), states[k].index.toNat = k)
    (hepsilon : ∀ s ∈ states, s.transitions[Symbol.epsilon]? = none) :
    (∃ a, ofStates states = .ok a) ↔
      ∀ s ∈ states, ∀ (symbol : Symbol) (target : StateIdx),
        s.transitions[symbol]? = some target → target.toNat < states.size := by
  rw [exists_ofStates_iff_sound, and_iff_right hindex]
  exact forall₂_congr fun s hs => and_iff_right (hepsilon s hs)

end Automaton
end Parsing
end CompilerTables
