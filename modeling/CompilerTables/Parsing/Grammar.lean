import CompilerTables.Parsing.Production

/-!
# Grammars

A grammar names its nonterminals and terminals, lists its productions, and singles out the
augmented production, the one that is accepted instead of reduced.  A `Grammar` is sound by its
type: the augmented production exists, every symbol in use has a name, and no production is listed
twice.  `Grammar.ofParts` checks raw parts and reports the first fault.

A production is referred to by its position in the list.  Since no production is listed twice,
`Grammar.indexOf?` and `Grammar.production?` are inverse to each other.
-/

namespace CompilerTables
namespace Parsing

/-- Why raw parts do not make a grammar. -/
inductive GrammarError where
  | missingAugmented (index : Nat)
  | duplicateProduction (index first : Nat)
  | undeclaredNonterminal (index : Nat) (n : Nat)
  | undeclaredTerminal (index : Nat) (t : Terminal)
  deriving DecidableEq

/-- The words for each fault of a grammar. -/
def GrammarError.message : GrammarError → String
  | missingAugmented index => s!"augmented production index {index} is out of range"
  | duplicateProduction index first => s!"production {index} duplicates production {first}"
  | undeclaredNonterminal index n =>
      s!"production {index} refers to undeclared nonterminal {n}"
  | undeclaredTerminal index t =>
      s!"production {index} refers to undeclared terminal {t.text}"

/-- A symbol is declared when it is numbered below the names of its sort.  The end of the input
and `epsilon` need no name. -/
def Symbol.Declared (nonterminals terminals : Nat) : Symbol → Prop
  | .nonterminal n => n < nonterminals
  | .terminal t => t = Terminal.endMarker ∨ t.toNat < terminals
  | .epsilon => True

instance (nonterminals terminals : Nat) (s : Symbol) :
    Decidable (s.Declared nonterminals terminals) := by
  cases s <;> unfold Symbol.Declared <;> infer_instance

/-- The symbols that a production uses, its left-hand side first. -/
def Production.symbols (p : Production) : List Symbol :=
  .nonterminal p.lhs :: p.body

/-- A context-free grammar with its symbols' names. -/
structure Grammar where
  nonterminalNames : Array String
  terminalNames : Array String
  productions : Array Production
  augmented : Nat
  augmented_lt : augmented < productions.size
  declared : ∀ p ∈ productions, ∀ s ∈ p.symbols,
    s.Declared nonterminalNames.size terminalNames.size
  nodup : productions.toList.Nodup

namespace Grammar

/-! ## Checking raw parts -/

/-- The fault of a symbol used by the production at `index`. -/
def symbolFault (nonterminals terminals index : Nat) (s : Symbol) : Option GrammarError :=
  if s.Declared nonterminals terminals then none
  else match s with
    | .nonterminal n => some (.undeclaredNonterminal index n)
    | .terminal t => some (.undeclaredTerminal index t)
    | .epsilon => none

/-- The fault of the production `p` at `index`: an undeclared symbol, from left to right, or else an
equal production before it. -/
def productionFault (nonterminals terminals : Nat) (productions : Array Production)
    (p : Production) (index : Nat) : Option GrammarError :=
  match p.symbols.findSome? (symbolFault nonterminals terminals index) with
  | some fault => some fault
  | none => match productions.idxOf? p with
    | some first => if first < index then some (.duplicateProduction index first) else none
    | none => none

/-- The first fault of a list of productions. -/
def firstFault? (nonterminals terminals : Nat) (productions : Array Production) :
    Option GrammarError :=
  productions.toList.zipIdx.findSome? fun (p, index) =>
    productionFault nonterminals terminals productions p index

theorem declared_of_symbolFault {nonterminals terminals index : Nat} {s : Symbol}
    (h : symbolFault nonterminals terminals index s = none) :
    s.Declared nonterminals terminals := by
  unfold symbolFault at h
  split at h
  · assumption
  · cases s with
    | epsilon => trivial
    | terminal t => cases h
    | nonterminal n => cases h

theorem productionFault_of_firstFault? {nonterminals terminals : Nat}
    {productions : Array Production} (h : firstFault? nonterminals terminals productions = none)
    {index : Nat} (hindex : index < productions.size) :
    productionFault nonterminals terminals productions productions[index] index = none := by
  have hmem : (productions[index], index) ∈ productions.toList.zipIdx := by
    simp [List.mem_zipIdx_iff_getElem?, hindex]
  exact List.findSome?_eq_none_iff.mp h _ hmem

theorem declared_of_firstFault? {nonterminals terminals : Nat} {productions : Array Production}
    (h : firstFault? nonterminals terminals productions = none) :
    ∀ p ∈ productions, ∀ s ∈ p.symbols, s.Declared nonterminals terminals := by
  intro p hp s hs
  obtain ⟨index, hindex, rfl⟩ := Array.mem_iff_getElem.mp hp
  have hfault := productionFault_of_firstFault? h hindex
  unfold productionFault at hfault
  split at hfault
  · cases hfault
  · next hsymbols =>
    exact declared_of_symbolFault (List.findSome?_eq_none_iff.mp hsymbols s hs)

/-- The search for an element of an array stops at its first place. -/
theorem idxOf?_eq_some_iff {α : Type} [BEq α] [LawfulBEq α] {xs : Array α} {x : α} {i : Nat} :
    xs.idxOf? x = some i ↔ ∃ h : i < xs.size, xs[i] = x ∧ ∀ j (hj : j < i), xs[j] ≠ x := by
  cases xs with
  | mk l =>
    rw [List.idxOf?_toArray, List.idxOf?_eq_some_iff]
    simp

theorem nodup_of_firstFault? {nonterminals terminals : Nat} {productions : Array Production}
    (h : firstFault? nonterminals terminals productions = none) :
    productions.toList.Nodup := by
  rw [List.nodup_iff_pairwise_ne, List.pairwise_iff_getElem]
  intro i j hi hj hij heq
  have hsize : j < productions.size := by simpa using hj
  have hfault := productionFault_of_firstFault? h hsize
  have hsmaller : i < productions.size := by omega
  have hequal : productions[i] = productions[j] := by simpa using heq
  unfold productionFault at hfault
  split at hfault
  · cases hfault
  · cases hfirst : productions.idxOf? productions[j] with
    | none => simp at hfirst
    | some first =>
      obtain ⟨_, -, hmin⟩ := idxOf?_eq_some_iff.mp hfirst
      have hle : first ≤ i := Nat.le_of_not_lt fun hlt => hmin i hlt hequal
      have hlt : first < j := by omega
      rw [hfirst] at hfault
      simp [hlt] at hfault

/-- The grammar with these parts, or the first reason why there is none: the augmented production
has to exist, and then each production in turn has to use declared symbols and be new. -/
def ofParts (nonterminalNames terminalNames : Array String) (productions : Array Production)
    (augmented : Nat) : Except GrammarError Grammar :=
  if haugmented : augmented < productions.size then
    match h : firstFault? nonterminalNames.size terminalNames.size productions with
    | some fault => .error fault
    | none => .ok {
        nonterminalNames, terminalNames, productions, augmented
        augmented_lt := haugmented
        declared := declared_of_firstFault? h
        nodup := nodup_of_firstFault? h }
  else .error (.missingAugmented augmented)

/-- A grammar consists of the parts that it was made from. -/
theorem fields_of_ofParts {nonterminalNames terminalNames : Array String}
    {productions : Array Production} {augmented : Nat} {g : Grammar}
    (h : ofParts nonterminalNames terminalNames productions augmented = .ok g) :
    g.nonterminalNames = nonterminalNames ∧ g.terminalNames = terminalNames ∧
      g.productions = productions ∧ g.augmented = augmented := by
  unfold ofParts at h
  split at h
  · split at h
    · cases h
    · cases h
      exact ⟨rfl, rfl, rfl, rfl⟩
  · cases h

/-! ## Productions by position -/

/-- The production at a position. -/
def production? (g : Grammar) (index : Nat) : Option Production :=
  g.productions[index]?

/-- The position of a production. -/
def indexOf? (g : Grammar) (p : Production) : Option Nat :=
  g.productions.idxOf? p

/-- The production that is accepted instead of reduced. -/
def augmentedProduction (g : Grammar) : Production :=
  have h := g.augmented_lt
  g.productions[g.augmented]

/-! ## Names -/

/-- A nonterminal that the grammar has declared. -/
def isNonterminal (g : Grammar) : Symbol → Bool
  | .nonterminal n => n < g.nonterminalNames.size
  | _ => false

/-- The name of a terminal: a dollar sign for the end of the input, and its number if it was never
declared. -/
def terminalName (g : Grammar) (t : Terminal) : String :=
  if t = Terminal.endMarker then "$" else g.terminalNames[t.toNat]?.getD t.text

/-- The name of a nonterminal, with a stand-in if it was never declared. -/
def nonterminalName (g : Grammar) (n : Nat) : String :=
  g.nonterminalNames[n]?.getD s!"<nt {n}>"

/-- The name of a symbol. -/
def symbolName (g : Grammar) : Symbol → String
  | .terminal t => g.terminalName t
  | .nonterminal n => g.nonterminalName n
  | .epsilon => "ε"

/-- A production by its symbols' names. -/
def productionText (g : Grammar) (p : Production) : String :=
  let body := " ".intercalate (p.body.map g.symbolName)
  s!"{g.nonterminalName p.lhs} -> {body}"

end Grammar
end Parsing
end CompilerTables
