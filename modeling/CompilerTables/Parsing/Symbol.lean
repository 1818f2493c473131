import CompilerTables.Index

/-!
# Grammar symbols

Terminals and nonterminals are numbers; their names belong to the grammar.  The largest terminal
number is reserved for the end of the input.  `Symbol` adds the mark `epsilon`, which stands in the
body of a rule that derives the empty word and is never shifted.

## Order

Symbols are ordered with the terminals first, by number and therefore with the end of the input
last among them, then the nonterminals by number, then `epsilon`.  The order is lawful for
equality, so maps keyed by symbols are equal as soon as they answer every symbol alike.
-/

namespace CompilerTables
namespace Parsing

/-- A terminal, by its position among the names of terminals. -/
abbrev Terminal := Index "Terminal"

namespace Terminal

/-- The end of the input, the largest terminal. -/
def endMarker : Terminal := ⟨0xffffffff, by decide⟩

/-- A terminal by itself: a dollar sign for the end of the input, else its number. -/
def text (t : Terminal) : String :=
  if t = endMarker then "$" else s!"t{t.toNat}"

end Terminal

/-- What may stand in the body of a production. -/
inductive Symbol where
  | terminal (t : Terminal)
  | nonterminal (n : Nat)
  | epsilon
  deriving DecidableEq

namespace Symbol

/-- The sort of a symbol, as a place in the order of sorts. -/
def sort : Symbol → Nat
  | terminal _ => 0
  | nonterminal _ => 1
  | epsilon => 2

/-- The number of a symbol within its sort. -/
def number : Symbol → Nat
  | terminal t => t.toNat
  | nonterminal n => n
  | epsilon => 0

theorem ext_sort_number {s t : Symbol} (hsort : s.sort = t.sort) (hnumber : s.number = t.number) :
    s = t := by
  cases s <;> cases t <;> simp_all [sort, number]
  exact Index.ext hnumber

/-- Symbols are ordered by sort, and within a sort by number. -/
instance : Ord Symbol :=
  ⟨compareLex (compareOn sort) (compareOn number)⟩

instance : Std.TransOrd Symbol :=
  inferInstanceAs (Std.TransCmp (compareLex (compareOn sort) (compareOn number)))

instance : Std.LawfulEqOrd Symbol where
  eq_of_compare {s t} h := by
    have hparts : compare s.sort t.sort = .eq ∧ compare s.number t.number = .eq :=
      Ordering.then_eq_eq.mp h
    exact ext_sort_number (Std.LawfulEqCmp.eq_of_compare hparts.1)
      (Std.LawfulEqCmp.eq_of_compare hparts.2)

/-- A symbol spelled out with its sort, as it is quoted in error messages. -/
def debugText : Symbol → String
  | terminal t => s!"Terminal({t.debugText})"
  | nonterminal n => s!"Nonterminal({n})"
  | epsilon => "Epsilon"

end Symbol
end Parsing
end CompilerTables
