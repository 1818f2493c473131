import Std.Data.ExtHashMap
import CompilerTables.Proofs.Parsing.GrammarFaults
import CompilerTables.Proofs.Parsing.Numbering

/-!
# The index of productions

A grammar searches its list for the position of a production.  The positions may as well be stored,
each under the production that stands there, while the parts of the grammar are checked: the
productions are taken in order, and one that is stored already is listed twice.  So the map that
answers for the grammar afterwards decides, half filled, whether there is to be a grammar.

Both rest on what a half filled index holds: the productions that have been taken, each with its
position, and nothing else (`IsIndexOf`).  To take a production keeps it so
(`IsIndexOf.of_indexProduction`), and a production is refused for the same reason as in a search
through the whole list (`fault?_indexProduction`), because what is stored of a production is the
first place where it is listed.  Hence parts are refused alike with and without an index
(`indexParts_eq_error_iff`), and the index answers as the search does
(`IsIndexOf.getElem?_eq_indexOf?`).  How productions are hashed makes no difference.

The main statement is that positions and productions are inverse to each other
(`positions_inverse_to_productions`), and that this is what the index holds.
-/

namespace CompilerTables
namespace Parsing
namespace Grammar

/-- Positions, each stored under the production that stands there. -/
abbrev ProductionIndex [Hashable Production] : Type :=
  Std.ExtHashMap Production Nat

section Definitions

variable [Hashable Production]

/-- Checks the production at a position and stores it.  A symbol that is not declared is reported,
from left to right, or else that the production is stored already. -/
def indexProduction (nonterminals terminals : Nat) (stored : ProductionIndex) (p : Production)
    (position : Nat) : Except GrammarError ProductionIndex :=
  match p.symbols.findSome? (symbolFault nonterminals terminals position) with
  | some fault => .error fault
  | none => match stored[p]? with
    | some first => .error (.duplicateProduction position first)
    | none => .ok (stored.insert p position)

/-- Checks and stores productions one after the other, from a position on. -/
def indexProductions (nonterminals terminals : Nat) (stored : ProductionIndex) (position : Nat) :
    List Production → Except GrammarError ProductionIndex
  | [] => .ok stored
  | p :: rest => do
      let stored ← indexProduction nonterminals terminals stored p position
      indexProductions nonterminals terminals stored (position + 1) rest

/-- The index of the productions of a grammar with these parts, or the first reason why there is no
such grammar. -/
def indexParts (nonterminalNames terminalNames : Array String) (productions : Array Production)
    (augmented : Nat) : Except GrammarError ProductionIndex :=
  if augmented < productions.size then
    indexProductions nonterminalNames.size terminalNames.size ∅ 0 productions.toList
  else .error (.missingAugmented augmented)

/-- The index holds these productions, each with its position, and nothing else. -/
def IsIndexOf (stored : ProductionIndex) (taken : Array Production) : Prop :=
  ∀ (p : Production) (position : Nat), stored[p]? = some position ↔ taken[position]? = some p

end Definitions

section Index

variable [Hashable Production] {nonterminals terminals : Nat} {productions taken : Array Production}
  {rest : List Production} {stored stored' : ProductionIndex} {p : Production}

/-! ## One production -/

theorem isIndexOf_empty : IsIndexOf ∅ #[] := by
  intro p position
  rw [Std.ExtHashMap.getElem?_empty, Array.getElem?_empty]
  exact iff_of_false nofun nofun

/-- A new production is stored with the number of those before it. -/
theorem IsIndexOf.insert (h : IsIndexOf stored taken) (hnew : stored[p]? = none) :
    IsIndexOf (stored.insert p taken.size) (taken.push p) := by
  intro q position
  rw [Std.ExtHashMap.getElem?_insert, Array.getElem?_push]
  have hold := h q position
  by_cases hposition : position = taken.size
  · -- nothing has been stored with the new position
    have hafter : taken[position]? = none := Array.getElem?_eq_none (Nat.le_of_eq hposition.symm)
    rw [hafter] at hold
    by_cases hq : p = q
    · simp [hposition, hq]
    · rw [if_neg (by simpa using hq), if_pos hposition, hold]
      simp [hq]
  · by_cases hq : p = q
    · subst hq
      rw [if_pos (beq_self_eq_true p), if_neg hposition, ← hold, hnew]
      simp [Ne.symm hposition]
    · rw [if_neg (by simpa using hq), if_neg hposition, hold]

/-- A production that is taken is stored with its position. -/
theorem IsIndexOf.of_indexProduction (h : IsIndexOf stored taken)
    (hstep : indexProduction nonterminals terminals stored p taken.size = .ok stored') :
    IsIndexOf stored' (taken.push p) := by
  unfold indexProduction at hstep
  split at hstep
  · cases hstep
  · split at hstep
    · cases hstep
    · next hnew =>
      cases hstep
      exact h.insert hnew

/-- What is stored of the next production is the first place where it is listed, if that is before
its own. -/
theorem IsIndexOf.getElem?_next (h : IsIndexOf stored taken)
    (hparts : productions.toList = taken.toList ++ p :: rest) {first : Nat} :
    stored[p]? = some first ↔ productions.idxOf? p = some first ∧ first < taken.size := by
  have htaken : ∀ position < taken.size, taken[position]? = productions[position]? := by
    intro position hlt
    rw [← Array.getElem?_toList, ← Array.getElem?_toList, hparts,
      List.getElem?_append_left (by rwa [Array.length_toList])]
  constructor
  · intro hstored
    have hposition := (h p first).mp hstored
    have hlt := (Array.getElem?_eq_some_iff.mp hposition).1
    rw [htaken first hlt] at hposition
    -- the first place of the whole list is stored too, and nothing is stored with two places
    obtain ⟨place, hle, hplace, hsame, -⟩ := exists_idxOf?_eq_some hposition
    rw [← htaken place (Nat.lt_of_le_of_lt hle hlt), ← h, hstored, Option.some_inj] at hsame
    rw [hsame]
    exact ⟨hplace, hsame ▸ hlt⟩
  · rintro ⟨hfirst, hlt⟩
    rw [h, htaken first hlt]
    exact (idxOf?_eq_some_iff_getElem?.mp hfirst).1

/-- A half filled index reports what a search through the whole list does. -/
theorem fault?_indexProduction (h : IsIndexOf stored taken)
    (hparts : productions.toList = taken.toList ++ p :: rest) :
    fault? (indexProduction nonterminals terminals stored p taken.size) =
      productionFault nonterminals terminals productions p taken.size := by
  unfold indexProduction productionFault
  cases p.symbols.findSome? (symbolFault nonterminals terminals taken.size) with
  | some fault => rfl
  | none =>
    cases hstored : stored[p]? with
    | some first =>
      obtain ⟨hfirst, hlt⟩ := (h.getElem?_next hparts).mp hstored
      rw [hfirst]
      exact (if_pos hlt).symm
    | none =>
      cases hfirst : productions.idxOf? p with
      | none => rfl
      | some first =>
        refine (if_neg fun hlt => ?_).symm
        have hbefore := (h.getElem?_next hparts).mpr ⟨hfirst, hlt⟩
        rw [hstored] at hbefore
        cases hbefore

/-! ## All productions -/

/-- Productions that are taken are stored with those before them. -/
theorem IsIndexOf.of_indexProductions (h : IsIndexOf stored taken)
    (hparts : productions.toList = taken.toList ++ rest)
    (hrun : indexProductions nonterminals terminals stored taken.size rest = .ok stored') :
    IsIndexOf stored' productions := by
  induction rest generalizing taken stored with
  | nil =>
    cases hrun
    rw [List.append_nil, Array.toList_inj] at hparts
    rwa [hparts]
  | cons p rest ih =>
    obtain ⟨next, hstep, hrest⟩ := bind_eq_ok_iff.mp hrun
    refine ih (h.of_indexProduction hstep) ?_ ?_
    · rw [hparts, Array.toList_push, ← List.append_cons]
    · rwa [Array.size_push]

/-- With an index that is filled step by step, the first fault is found as in a search through the
whole list. -/
theorem fault?_indexProductions (h : IsIndexOf stored taken)
    (hparts : productions.toList = taken.toList ++ rest) :
    fault? (indexProductions nonterminals terminals stored taken.size rest) =
      (rest.zipIdx taken.size).findSome? fun (p, position) =>
        productionFault nonterminals terminals productions p position := by
  induction rest generalizing taken stored with
  | nil => rfl
  | cons p rest ih =>
    rw [indexProductions, List.zipIdx_cons, List.findSome?_cons]
    dsimp only
    rw [← fault?_indexProduction h hparts]
    cases hstep : indexProduction nonterminals terminals stored p taken.size with
    | error fault => rfl
    | ok next =>
      have hrest := ih (h.of_indexProduction hstep)
        (by rw [hparts, Array.toList_push, ← List.append_cons])
      rwa [Array.size_push] at hrest

theorem fault?_indexProductions_eq_firstFault? :
    fault? (indexProductions nonterminals terminals ∅ 0 productions.toList) =
      firstFault? nonterminals terminals productions :=
  fault?_indexProductions isIndexOf_empty rfl

/-! ## Parts of a grammar -/

variable {nonterminalNames terminalNames : Array String} {augmented : Nat} {g : Grammar}
  {fault : GrammarError}

/-- Parts are refused alike with and without an index. -/
theorem indexParts_eq_error_iff :
    indexParts nonterminalNames terminalNames productions augmented = .error fault ↔
      ofParts nonterminalNames terminalNames productions augmented = .error fault := by
  rw [ofParts_eq_error_iff, ← fault?_indexProductions_eq_firstFault?, fault?_eq_some_iff]
  unfold indexParts
  split
  · next haugmented =>
    rw [or_iff_right fun h => Nat.not_lt_of_le h.1 haugmented, and_iff_right haugmented]
  · next haugmented =>
    rw [or_iff_left fun h => haugmented h.1, and_iff_right (Nat.le_of_not_lt haugmented),
      Except.error.injEq, eq_comm]

/-- The index of a grammar answers as the search through its list does. -/
theorem IsIndexOf.getElem?_eq_indexOf? (h : IsIndexOf stored g.productions) (p : Production) :
    stored[p]? = g.indexOf? p := by
  refine Option.ext fun position => ?_
  rw [h, indexOf?_eq_some_iff, production?]

/-- Every grammar has an index. -/
theorem exists_indexParts
    (h : ofParts nonterminalNames terminalNames productions augmented = .ok g) :
    ∃ stored, indexParts nonterminalNames terminalNames productions augmented = .ok stored ∧
      ∀ p, stored[p]? = g.indexOf? p := by
  obtain ⟨-, -, rfl, rfl⟩ := fields_of_ofParts h
  cases hindex : indexParts nonterminalNames terminalNames g.productions g.augmented with
  | error fault =>
    rw [indexParts_eq_error_iff, h] at hindex
    cases hindex
  | ok stored =>
    rw [indexParts, if_pos g.augmented_lt] at hindex
    exact ⟨stored, rfl, (isIndexOf_empty.of_indexProductions rfl hindex).getElem?_eq_indexOf?⟩

end Index

/-- **Positions and productions are inverse to each other.**  In a grammar that is made from parts,
every position leads to a production that leads back to it, and every production that leads to a
position is found there; the productions that lead nowhere are those that are not listed.  So the
augmented production is the only one with its position, and the rule without any symbol in its body
is never taken for the rule with `epsilon` there: the two get the same answer only if neither is
listed.  The index that is filled while the parts are checked gives the same answers. -/
theorem positions_inverse_to_productions {nonterminalNames terminalNames : Array String}
    {productions : Array Production} {augmented : Nat} {g : Grammar}
    (h : ofParts nonterminalNames terminalNames productions augmented = .ok g) :
    (∀ (position : Nat) (hlt : position < productions.size),
      g.production? position = some productions[position] ∧
        g.indexOf? productions[position] = some position) ∧
    (∀ p position, g.indexOf? p = some position → g.production? position = some p) ∧
    (∀ p, g.indexOf? p = none ↔ p ∉ productions) ∧
    (∀ p, g.indexOf? p = some g.augmented ↔ p = g.augmentedProduction) ∧
    (∀ lhs, g.indexOf? ⟨lhs, []⟩ = g.indexOf? (.empty lhs) ↔
      ⟨lhs, []⟩ ∉ productions ∧ .empty lhs ∉ productions) ∧
    ∀ [Hashable Production], ∃ stored,
      indexParts nonterminalNames terminalNames productions augmented = .ok stored ∧
        ∀ p, stored[p]? = g.indexOf? p := by
  obtain ⟨-, -, hproductions, -⟩ := fields_of_ofParts h
  rw [← hproductions] at h ⊢
  refine ⟨fun position hlt => ?_, fun p position => indexOf?_eq_some_iff.mp,
    fun p => indexOf?_eq_none_iff, fun p => indexOf?_eq_some_augmented_iff, fun lhs => ?_,
    exists_indexParts h⟩
  · have hposition : g.production? position = some g.productions[position] :=
      Array.getElem?_eq_getElem hlt
    exact ⟨hposition, indexOf?_eq_some_iff.mpr hposition⟩
  · rw [indexOf?_eq_indexOf?_iff, or_iff_right]
    nofun

/-- Rules that derive the empty word in both ways of writing it. -/
def emptyTwice : Array Production :=
  #[⟨0, [.nonterminal 1]⟩, ⟨1, []⟩, .empty 1]

theorem positions_inverse_to_productions_emptyTwice :
    ∃ g, ofParts #["S'", "S"] #[] emptyTwice 0 = .ok g ∧
      (g.production? 1 = some ⟨1, []⟩ ∧ g.indexOf? ⟨1, []⟩ = some 1) ∧
      (g.production? 2 = some (.empty 1) ∧ g.indexOf? (.empty 1) = some 2) ∧
      g.indexOf? ⟨1, []⟩ ≠ g.indexOf? (.empty 1) ∧
      g.indexOf? (.empty 0) = none ∧
      g.augmentedProduction = ⟨0, [.nonterminal 1]⟩ ∧
      ∀ [Hashable Production], ∃ stored,
        indexParts #["S'", "S"] #[] emptyTwice 0 = .ok stored ∧
          stored[Production.empty 1]? = some 2 := by
  obtain ⟨g, hg⟩ : ∃ g, ofParts #["S'", "S"] #[] emptyTwice 0 = .ok g :=
    exists_ofParts_iff_sound.mpr (by decide)
  obtain ⟨-, -, -, haugmented⟩ := fields_of_ofParts hg
  obtain ⟨hpositions, hback, hlisted, honly, hempty, hindex⟩ := positions_inverse_to_productions hg
  have hstart : g.indexOf? ⟨0, [.nonterminal 1]⟩ = some g.augmented := by
    rw [haugmented]
    exact (hpositions 0 (by decide)).2
  have hbare : g.indexOf? ⟨1, []⟩ = some 1 := (hpositions 1 (by decide)).2
  have hmarked : g.indexOf? (.empty 1) = some 2 := (hpositions 2 (by decide)).2
  refine ⟨g, hg, ⟨hback _ _ hbare, hbare⟩, ⟨hback _ _ hmarked, hmarked⟩, ?_,
    (hlisted _).mpr (by decide +kernel), ((honly _).mp hstart).symm, ?_⟩
  · rw [Ne, hempty]
    decide +kernel
  · intro _
    obtain ⟨stored, hstored, hanswers⟩ := hindex
    exact ⟨stored, hstored, (hanswers _).trans hmarked⟩

end Grammar
end Parsing
end CompilerTables
