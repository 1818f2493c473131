import CompilerTables.Parsing.Symbol

/-!
# Productions

A production is a rule `lhs → body`.  Two productions are the same when both parts are equal, so
the rule with no symbol at all in its body differs from the rule whose body is the single mark
`epsilon`, although both derive the empty word.
-/

namespace CompilerTables
namespace Parsing

/-- A rule that replaces a nonterminal by a sequence of symbols. -/
structure Production where
  lhs : Nat
  body : List Symbol
  deriving DecidableEq

namespace Production

/-- The rule that replaces a nonterminal by the empty word, written with `epsilon`. -/
def empty (lhs : Nat) : Production := ⟨lhs, [.epsilon]⟩

/-- The number of symbols in the body, `epsilon` included. -/
def length (p : Production) : Nat := p.body.length

/-- Nothing but `epsilon` stands in the body. -/
def isEmpty (p : Production) : Bool := p.body.all (· = .epsilon)

/-- A production spelled out part by part, as it is quoted in error messages. -/
def debugText (p : Production) : String :=
  let symbols := ", ".intercalate (p.body.map Symbol.debugText)
  s!"Production \x7b lhs: {p.lhs}, body: [{symbols}] \x7d"

end Production
end Parsing
end CompilerTables
