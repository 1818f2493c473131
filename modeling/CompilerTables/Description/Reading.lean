import CompilerTables.Description.Basic
import CompilerTables.Json.Reader
import CompilerTables.Json.Record

/-!
# Reading descriptions

A description is written in JSON, each of its structures as a record.  Left out, the augmented
production is the first one, a body is empty, a lookahead is the end of the input, and there are no
transitions.  Transitions are an object from names to numbers; of a name that occurs twice the last
number counts.
-/

namespace CompilerTables
namespace Description

open Json (Value)

/-- Reads a production. -/
def Rule.ofJson? (value : Value) : Option Rule := do
  let [lhs, body] ← Json.fields? ["lhs", "body"] value | none
  return {
    lhs := ← Json.required? Json.string? lhs
    body := ← Json.optional? (Json.list? Json.string?) [] body }

/-- Reads an item. -/
def ItemEntry.ofJson? (value : Value) : Option ItemEntry := do
  let [production, dot, lookahead] ← Json.fields? ["production", "dot", "lookahead"] value | none
  return {
    production := ← Json.required? Json.natural? production
    dot := ← Json.required? Json.natural? dot
    lookahead := ← Json.optional? Json.string? endMarkerName lookahead }

/-- Reads transitions. -/
def transitionsOfJson? : Value → Option (Std.ExtTreeMap String Nat)
  | .object members => do
      let members ← Json.namedMembers? members
      let targets ← members.mapM fun (name, value) =>
        (Json.natural? value).map fun target => (name, target)
      return targets.foldl (fun transitions (name, target) => transitions.insert name target) ∅
  | _ => none

/-- Reads a state. -/
def StateEntry.ofJson? (value : Value) : Option StateEntry := do
  let [items, transitions] ← Json.fields? ["items", "transitions"] value | none
  return {
    items := ← Json.required? (Json.list? ItemEntry.ofJson?) items
    transitions := ← Json.optional? transitionsOfJson? ∅ transitions }

/-- Reads a description. -/
def ofJson? (value : Value) : Option Description := do
  let [nonterminals, terminals, productions, augmented, states] ←
    Json.fields? ["nonterminals", "terminals", "productions", "augmented", "states"] value | none
  return {
    nonterminals := ← Json.required? (Json.list? Json.string?) nonterminals
    terminals := ← Json.required? (Json.list? Json.string?) terminals
    productions := ← Json.required? (Json.list? Rule.ofJson?) productions
    augmented := ← Json.optional? Json.natural? 0 augmented
    states := ← Json.required? (Json.list? StateEntry.ofJson?) states }

/-- The description that a text gives. -/
def ofText? (text : String) : Option Description :=
  (Json.read? text).bind ofJson?

end Description
end CompilerTables
