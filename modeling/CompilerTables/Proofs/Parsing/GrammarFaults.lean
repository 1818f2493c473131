import Mathlib.Data.List.Nodup
import Mathlib.Order.Bounds.Basic
import CompilerTables.Parsing.Grammar
import CompilerTables.Proofs.Outcome

/-!
# The first fault of a grammar

Which parts make a grammar, and what the refusal says of those that do not.  A production is faulty
(`Grammar.IsFaulty`) when it uses a symbol that is not declared or when it is listed before.  Parts
are refused for their augmented production or for the first faulty one
(`ofParts_names_first_fault`), and `Grammar.FaultAt` says which of its faults is reported: an
undeclared symbol before a repetition, and of the undeclared symbols the first, from left to right.

What is said of one production is said of its place in the list.  A production that is listed before
may be listed before more than once; the report is about the first place, and at the first faulty
production that place is the only one, since the productions before it differ from each other.
-/

namespace CompilerTables
namespace Parsing
namespace Grammar

variable {nonterminals terminals index : Nat} {productions : Array Production}
  {p : Production} {s : Symbol} {fault : GrammarError}

/-- The production at a position uses a symbol that is not declared, or it is listed before. -/
def IsFaulty (nonterminals terminals : Nat) (productions : Array Production) (index : Nat) :
    Prop :=
  ∃ p, productions[index]? = some p ∧
    (nonterminals ≤ p.lhs ∨ (∃ s ∈ p.body, ¬ s.Declared nonterminals terminals) ∨
      ∃ first < index, productions[first]? = some p)

/-- What is reported of the production at a position: its left-hand side is not declared, or else
the first symbol of its body that is not declared, or else the one place before it where the same
production is listed. -/
inductive FaultAt (nonterminals terminals : Nat) (productions : Array Production) (index : Nat) :
    GrammarError → Prop where
  | lhs {p : Production} (hp : productions[index]? = some p) (hlhs : nonterminals ≤ p.lhs) :
      FaultAt nonterminals terminals productions index (.undeclaredNonterminal index p.lhs)
  | nonterminal {p : Production} {n : Nat} {before after : List Symbol}
      (hp : productions[index]? = some p) (hlhs : p.lhs < nonterminals)
      (hbody : p.body = before ++ .nonterminal n :: after)
      (hbefore : ∀ s ∈ before, s.Declared nonterminals terminals) (hn : nonterminals ≤ n) :
      FaultAt nonterminals terminals productions index (.undeclaredNonterminal index n)
  | terminal {p : Production} {t : Terminal} {before after : List Symbol}
      (hp : productions[index]? = some p) (hlhs : p.lhs < nonterminals)
      (hbody : p.body = before ++ .terminal t :: after)
      (hbefore : ∀ s ∈ before, s.Declared nonterminals terminals)
      (ht : t ≠ Terminal.endMarker) (hterminals : terminals ≤ t.toNat) :
      FaultAt nonterminals terminals productions index (.undeclaredTerminal index t)
  | duplicate {p : Production} {first : Nat} (hp : productions[index]? = some p)
      (hlhs : p.lhs < nonterminals) (hbody : ∀ s ∈ p.body, s.Declared nonterminals terminals)
      (hlt : first < index) (hfirst : productions[first]? = some p)
      (honly : ∀ earlier < index, productions[earlier]? = some p → earlier = first) :
      FaultAt nonterminals terminals productions index (.duplicateProduction index first)

/-! ## Symbols -/

theorem symbolFault_eq_none_iff :
    symbolFault nonterminals terminals index s = none ↔ s.Declared nonterminals terminals :=
  ⟨declared_of_symbolFault, fun h => if_pos h⟩

/-- An undeclared symbol is a nonterminal or a terminal, and the fault says which. -/
theorem symbolFault_eq_some_iff :
    symbolFault nonterminals terminals index s = some fault ↔
      (∃ n, s = .nonterminal n ∧ nonterminals ≤ n ∧ fault = .undeclaredNonterminal index n) ∨
        ∃ t, s = .terminal t ∧ t ≠ Terminal.endMarker ∧ terminals ≤ t.toNat ∧
          fault = .undeclaredTerminal index t := by
  unfold symbolFault
  rw [Option.ite_none_left_eq_some]
  cases s with
  | epsilon => simp
  | nonterminal n => simp [Symbol.Declared, @eq_comm _ fault]
  | terminal t => simp [Symbol.Declared, @eq_comm _ fault, and_assoc]

/-- The symbols of a production are its left-hand side and those of its body. -/
theorem forall_symbols_declared_iff :
    (∀ s ∈ p.symbols, s.Declared nonterminals terminals) ↔
      p.lhs < nonterminals ∧ ∀ s ∈ p.body, s.Declared nonterminals terminals :=
  List.forall_mem_cons

/-- No symbol of a production is at fault when its left-hand side and its body are declared. -/
theorem findSome?_symbols_eq_none_iff :
    p.symbols.findSome? (symbolFault nonterminals terminals index) = none ↔
      p.lhs < nonterminals ∧ ∀ s ∈ p.body, s.Declared nonterminals terminals := by
  rw [List.findSome?_eq_none_iff, ← forall_symbols_declared_iff]
  simp only [symbolFault_eq_none_iff]

/-- The first symbol at fault is the left-hand side, or else it stands in the body behind declared
symbols. -/
theorem findSome?_symbols_eq_some_iff :
    p.symbols.findSome? (symbolFault nonterminals terminals index) = some fault ↔
      (nonterminals ≤ p.lhs ∧ fault = .undeclaredNonterminal index p.lhs) ∨
        p.lhs < nonterminals ∧ ∃ before s after, p.body = before ++ s :: after ∧
          (∀ s ∈ before, s.Declared nonterminals terminals) ∧
            symbolFault nonterminals terminals index s = some fault := by
  rw [Production.symbols, List.findSome?_cons]
  by_cases hlhs : p.lhs < nonterminals
  · have hnone : symbolFault nonterminals terminals index (.nonterminal p.lhs) = none :=
      symbolFault_eq_none_iff.mpr hlhs
    rw [hnone]
    dsimp only
    rw [List.findSome?_eq_some_iff, or_iff_right fun h => Nat.not_lt_of_le h.1 hlhs,
      and_iff_right hlhs]
    simp only [symbolFault_eq_none_iff]
    grind
  · have hsome : symbolFault nonterminals terminals index (.nonterminal p.lhs) =
        some (.undeclaredNonterminal index p.lhs) := if_neg hlhs
    rw [hsome, or_iff_left fun h => hlhs h.1, and_iff_right (Nat.le_of_not_lt hlhs),
      Option.some_inj, eq_comm]

/-! ## One production -/

/-- The search for a production stops at the first position where it stands. -/
theorem idxOf?_eq_some_iff_getElem? {first : Nat} :
    productions.idxOf? p = some first ↔
      productions[first]? = some p ∧ ∀ earlier < first, productions[earlier]? ≠ some p := by
  rw [idxOf?_eq_some_iff]
  constructor
  · rintro ⟨hlt, hsame, hmin⟩
    refine ⟨Array.getElem?_eq_some_iff.mpr ⟨hlt, hsame⟩, fun earlier hearlier hequal => ?_⟩
    exact hmin earlier hearlier (Array.getElem?_eq_some_iff.mp hequal).2
  · rintro ⟨hfirst, hmin⟩
    obtain ⟨hlt, hsame⟩ := Array.getElem?_eq_some_iff.mp hfirst
    refine ⟨hlt, hsame, fun earlier hearlier hequal => hmin earlier hearlier ?_⟩
    exact Array.getElem?_eq_some_iff.mpr ⟨Nat.lt_trans hearlier hlt, hequal⟩

/-- A production is at fault for a symbol, or else for the first place where it is listed, if that
is before its own. -/
theorem productionFault_eq_some_iff :
    productionFault nonterminals terminals productions p index = some fault ↔
      p.symbols.findSome? (symbolFault nonterminals terminals index) = some fault ∨
        (p.lhs < nonterminals ∧ ∀ s ∈ p.body, s.Declared nonterminals terminals) ∧
          ∃ first < index, fault = .duplicateProduction index first ∧
            productions[first]? = some p ∧ ∀ earlier < first, productions[earlier]? ≠ some p := by
  rw [← @findSome?_symbols_eq_none_iff nonterminals terminals index]
  simp only [← idxOf?_eq_some_iff_getElem?]
  unfold productionFault
  cases p.symbols.findSome? (symbolFault nonterminals terminals index) with
  | some symbol => simp
  | none =>
    rw [or_iff_right nofun, and_iff_right rfl]
    cases productions.idxOf? p with
    | none => simp
    | some first =>
      dsimp only
      rw [Option.ite_none_right_eq_some, Option.some_inj]
      constructor
      · rintro ⟨hlt, rfl⟩
        exact ⟨first, hlt, rfl, rfl⟩
      · rintro ⟨_, hlt, rfl, ⟨⟩⟩
        exact ⟨hlt, rfl⟩

section Place

variable (hp : productions[index]? = some p)
include hp

/-- The search for a production that stands at a position stops there or before. -/
theorem exists_idxOf?_eq_some :
    ∃ first ≤ index, productions.idxOf? p = some first ∧ productions[first]? = some p ∧
      ∀ earlier < first, productions[earlier]? ≠ some p := by
  cases hfirst : productions.idxOf? p with
  | none => exact absurd (Array.mem_of_getElem? hp) (Array.idxOf?_eq_none_iff.mp hfirst)
  | some first =>
    obtain ⟨hsame, hmin⟩ := idxOf?_eq_some_iff_getElem?.mp hfirst
    exact ⟨first, Nat.le_of_not_lt fun hbefore => hmin index hbefore hp, rfl, hsame, hmin⟩

theorem not_isFaulty_iff :
    ¬ IsFaulty nonterminals terminals productions index ↔
      (p.lhs < nonterminals ∧ ∀ s ∈ p.body, s.Declared nonterminals terminals) ∧
        ∀ first < index, productions[first]? ≠ some p := by
  unfold IsFaulty
  simp only [hp, Option.some_inj, exists_eq_left']
  simp only [not_or, not_exists, not_and, not_not, Nat.not_le, and_assoc]

/-- A production has nothing to report exactly when it is not faulty. -/
theorem productionFault_eq_none_iff :
    productionFault nonterminals terminals productions p index = none ↔
      ¬ IsFaulty nonterminals terminals productions index := by
  obtain ⟨first, hle, hfirst, hsame, hmin⟩ := exists_idxOf?_eq_some hp
  rw [not_isFaulty_iff hp, ← @findSome?_symbols_eq_none_iff nonterminals terminals index]
  unfold productionFault
  rw [hfirst]
  cases p.symbols.findSome? (symbolFault nonterminals terminals index) with
  | some symbol => exact iff_of_false nofun nofun
  | none =>
    rw [and_iff_right rfl]
    constructor
    · intro hnone earlier hearlier hequal
      have hnot : ¬ first < index := fun hlt => by simp [hlt] at hnone
      exact hmin earlier (by omega) hequal
    · intro hnew
      exact if_neg fun hlt => hnew first hlt hsame

/-- What the first faulty production has to report. -/
theorem productionFault_eq_some_iff_faultAt
    (hearlier : ∀ earlier < index, ¬ IsFaulty nonterminals terminals productions earlier) :
    productionFault nonterminals terminals productions p index = some fault ↔
      FaultAt nonterminals terminals productions index fault := by
  rw [productionFault_eq_some_iff, findSome?_symbols_eq_some_iff]
  constructor
  · rintro ((⟨hlhs, rfl⟩ | ⟨hlhs, before, s, after, hbody, hbefore, hs⟩) |
      ⟨⟨hlhs, hbody⟩, first, hlt, rfl, hfirst, hmin⟩)
    · exact .lhs hp hlhs
    · rcases symbolFault_eq_some_iff.mp hs with ⟨n, rfl, hn, rfl⟩ | ⟨t, rfl, ht, hterminals, rfl⟩
      · exact .nonterminal hp hlhs hbody hbefore hn
      · exact .terminal hp hlhs hbody hbefore ht hterminals
    · refine .duplicate hp hlhs hbody hlt hfirst fun earlier hearlier' hequal => ?_
      -- a second place before this one would be faulty itself
      rcases Nat.lt_trichotomy earlier first with hbefore | hequal | hafter
      · exact absurd hequal (hmin earlier hbefore)
      · exact hequal
      · exact absurd ⟨p, hequal, .inr (.inr ⟨first, hafter, hfirst⟩)⟩ (hearlier earlier hearlier')
  · intro h
    cases h with
    | lhs hp' hlhs =>
      cases hp.symm.trans hp'
      exact .inl (.inl ⟨hlhs, rfl⟩)
    | nonterminal hp' hlhs hbody hbefore hn =>
      cases hp.symm.trans hp'
      exact .inl (.inr ⟨hlhs, _, _, _, hbody, hbefore,
        symbolFault_eq_some_iff.mpr (.inl ⟨_, rfl, hn, rfl⟩)⟩)
    | terminal hp' hlhs hbody hbefore ht hterminals =>
      cases hp.symm.trans hp'
      exact .inl (.inr ⟨hlhs, _, _, _, hbody, hbefore,
        symbolFault_eq_some_iff.mpr (.inr ⟨_, rfl, ht, hterminals, rfl⟩)⟩)
    | duplicate hp' hlhs hbody hlt hfirst honly =>
      cases hp.symm.trans hp'
      refine .inr ⟨⟨hlhs, hbody⟩, _, hlt, rfl, hfirst, fun earlier hbefore hequal => ?_⟩
      exact absurd (honly earlier (by omega) hequal) (Nat.ne_of_lt hbefore)

end Place

/-! ## All productions -/

theorem isFaulty_iff :
    IsFaulty nonterminals terminals productions index ↔
      ∃ p, productions.toList[index]? = some p ∧
        productionFault nonterminals terminals productions p index ≠ none := by
  rw [Array.getElem?_toList]
  constructor
  · intro hfaulty
    obtain ⟨p, hp, -⟩ := id hfaulty
    exact ⟨p, hp, fun hnone => (productionFault_eq_none_iff hp).mp hnone hfaulty⟩
  · rintro ⟨p, hp, hfault⟩
    by_contra hsound
    exact hfault ((productionFault_eq_none_iff hp).mpr hsound)

theorem firstFault?_eq_none_iff :
    firstFault? nonterminals terminals productions = none ↔
      ∀ index, ¬ IsFaulty nonterminals terminals productions index :=
  findSome?_zipIdx_eq_none_iff_forall_not fun _ => isFaulty_iff

theorem firstFault?_eq_some_iff :
    firstFault? nonterminals terminals productions = some fault ↔
      ∃ index, IsLeast {place | IsFaulty nonterminals terminals productions place} index ∧
        FaultAt nonterminals terminals productions index fault := by
  rw [firstFault?, findSome?_zipIdx_eq_some_iff_isLeast fun _ => isFaulty_iff]
  simp only [Array.getElem?_toList]
  refine exists_congr fun index => ?_
  have hearlier : IsLeast {place | IsFaulty nonterminals terminals productions place} index →
      ∀ earlier < index, ¬ IsFaulty nonterminals terminals productions earlier :=
    fun hleast earlier hlt hfaulty => Nat.not_le_of_lt hlt (hleast.2 hfaulty)
  constructor
  · rintro ⟨p, hp, hleast, hfault⟩
    exact ⟨hleast, (productionFault_eq_some_iff_faultAt hp (hearlier hleast)).mp hfault⟩
  · rintro ⟨hleast, hfault⟩
    obtain ⟨p, hp, -⟩ := hleast.1
    exact ⟨p, hp, hleast, (productionFault_eq_some_iff_faultAt hp (hearlier hleast)).mpr hfault⟩

variable {nonterminalNames terminalNames : Array String} {augmented : Nat}

theorem ofParts_eq_error_iff :
    ofParts nonterminalNames terminalNames productions augmented = .error fault ↔
      (productions.size ≤ augmented ∧ fault = .missingAugmented augmented) ∨
        augmented < productions.size ∧
          firstFault? nonterminalNames.size terminalNames.size productions = some fault := by
  unfold ofParts
  split
  · next haugmented =>
    rw [or_iff_right fun h => Nat.not_lt_of_le h.1 haugmented, and_iff_right haugmented]
    split
    · next first hfirst => rw [hfirst, Except.error.injEq, Option.some_inj]
    · next hnone =>
      constructor
      · intro h
        cases h
      · intro hsome
        rw [hnone] at hsome
        cases hsome
  · next haugmented =>
    rw [or_iff_left fun h => haugmented h.1, and_iff_right (Nat.le_of_not_lt haugmented),
      Except.error.injEq, eq_comm]

/-- No production is faulty when every symbol is declared and no two productions are the same. -/
theorem forall_not_isFaulty_iff :
    (∀ index, ¬ IsFaulty nonterminals terminals productions index) ↔
      (∀ p ∈ productions, p.lhs < nonterminals ∧ ∀ s ∈ p.body, s.Declared nonterminals terminals) ∧
        productions.toList.Nodup := by
  rw [List.nodup_iff_getElem?_ne_getElem?]
  simp only [Array.getElem?_toList, Array.length_toList]
  constructor
  · intro hsound
    refine ⟨fun p hp => ?_, fun first index hlt hindex hequal => ?_⟩
    · obtain ⟨index, hp⟩ := Array.mem_iff_getElem?.mp hp
      exact ((not_isFaulty_iff hp).mp (hsound index)).1
    · have hp := Array.getElem?_eq_getElem hindex
      exact ((not_isFaulty_iff hp).mp (hsound index)).2 first hlt (hequal.trans hp)
  · rintro ⟨hdeclared, hnew⟩ index hfaulty
    obtain ⟨p, hp, -⟩ := id hfaulty
    refine (not_isFaulty_iff hp).mpr ⟨hdeclared p (Array.mem_of_getElem? hp), ?_⟩ hfaulty
    intro first hlt hequal
    exact hnew first index hlt (Array.getElem?_eq_some_iff.mp hp).1 (hequal.trans hp.symm)

/-- Parts make a grammar exactly when the augmented production exists, every symbol is declared and
no two productions are the same. -/
theorem exists_ofParts_iff_sound :
    (∃ g, ofParts nonterminalNames terminalNames productions augmented = .ok g) ↔
      augmented < productions.size ∧
        (∀ p ∈ productions, p.lhs < nonterminalNames.size ∧
          ∀ s ∈ p.body, s.Declared nonterminalNames.size terminalNames.size) ∧
        productions.toList.Nodup := by
  cases hparts : ofParts nonterminalNames terminalNames productions augmented with
  | ok g =>
    obtain ⟨rfl, rfl, rfl, rfl⟩ := fields_of_ofParts hparts
    exact iff_of_true ⟨g, rfl⟩
      ⟨g.augmented_lt, fun p hp => forall_symbols_declared_iff.mp (g.declared p hp), g.nodup⟩
  | error fault =>
    rw [← forall_not_isFaulty_iff, ← firstFault?_eq_none_iff]
    refine iff_of_false not_exists_error_eq_ok fun ⟨haugmented, hnone⟩ => ?_
    rcases ofParts_eq_error_iff.mp hparts with ⟨hle, -⟩ | ⟨-, hsome⟩
    · exact Nat.not_lt_of_le hle haugmented
    · rw [hnone] at hsome
      cases hsome

/-- **Parts are refused for their first fault.**  They make a grammar exactly when the augmented
production exists, every symbol is declared and no two productions are the same.  Otherwise the
refusal is about the augmented production if that does not exist, and else about the first faulty
production. -/
theorem ofParts_names_first_fault (nonterminalNames terminalNames : Array String)
    (productions : Array Production) (augmented : Nat) :
    ((∃ g, ofParts nonterminalNames terminalNames productions augmented = .ok g) ↔
      augmented < productions.size ∧
        (∀ p ∈ productions, p.lhs < nonterminalNames.size ∧
          ∀ s ∈ p.body, s.Declared nonterminalNames.size terminalNames.size) ∧
        productions.toList.Nodup) ∧
      ∀ fault, ofParts nonterminalNames terminalNames productions augmented = .error fault ↔
        (productions.size ≤ augmented ∧ fault = .missingAugmented augmented) ∨
          augmented < productions.size ∧ ∃ index,
            IsLeast {place | IsFaulty nonterminalNames.size terminalNames.size productions place}
              index ∧
            FaultAt nonterminalNames.size terminalNames.size productions index fault := by
  refine ⟨exists_ofParts_iff_sound, fun fault => ?_⟩
  rw [ofParts_eq_error_iff, firstFault?_eq_some_iff]

end Grammar
end Parsing
end CompilerTables
