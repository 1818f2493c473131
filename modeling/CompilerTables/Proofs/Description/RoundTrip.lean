import CompilerTables.Description.Parts
import CompilerTables.Proofs.Description.Resolution
import CompilerTables.Proofs.FiniteMap

/-!
# Building the parts of a description loses nothing

The parts of a description are numbers throughout, and a grammar keeps the names of its symbols.
So the description can be read back: each production, each item and each transition, spelled by the
names of the grammar, is what the description gave in its place.

Most of it is one element after the other.  The transitions of a state are not, since the map from
names becomes a map from symbols.  Two names of one symbol would leave a single entry; but each
symbol is spelled by one name only, so every name brings a symbol that is new to the map.
-/

namespace CompilerTables
namespace Description

open Parsing (Symbol Terminal Production Item State StateIdx Transitions Grammar Automaton)

variable {d : Description} {names : Names} {g : Grammar} {a : Automaton}

/-! ## What it means to be described -/

/-- A rule describes a production when it spells both of its sides; the empty body, and no other,
describes the body that is the mark of the empty word. -/
structure Rule.Describes (g : Grammar) (rule : Rule) (p : Production) : Prop where
  lhs_eq : g.nonterminalName p.lhs = rule.lhs
  body_eq_nil_iff : rule.body = [] ↔ p.body = [.epsilon]
  body_eq : rule.body ≠ [] → p.body.map g.symbolName = rule.body

/-- An entry describes an item when it gives the number of its production, its dot, and the name of
its lookahead. -/
structure ItemEntry.Describes (g : Grammar) (entry : ItemEntry) (item : Item) : Prop where
  production_eq : g.production? entry.production = some item.production
  dot_eq : item.dot = entry.dot
  lookahead_eq : g.terminalName item.lookahead = entry.lookahead

/-- Transitions with the names of their symbols and the numbers of their targets. -/
def spelledTransitions (g : Grammar) (transitions : Transitions) : List (String × Nat) :=
  transitions.toList.map fun (symbol, target) => (g.symbolName symbol, target.toNat)

/-- An entry describes a state when it describes the items one by one, and when the transitions are
its own up to their order. -/
structure StateEntry.Describes (g : Grammar) (entry : StateEntry) (s : State) : Prop where
  items : List.Forall₂ (ItemEntry.Describes g) entry.items s.items
  transitions_perm : (spelledTransitions g s.transitions).Perm entry.transitions.toList

/-! ## A grammar that spells the names

All that the parts need to know of a grammar is that it spells what the table of names resolves. -/

/-- The grammar spells each symbol of the table by the name that it stands under. -/
structure Names.SpelledBy (names : Names) (g : Grammar) : Prop where
  symbolName_eq : ∀ {name symbol}, names.symbol name = .ok symbol → g.symbolName symbol = name
  ne_epsilon : ∀ {name symbol}, names.symbol name = .ok symbol → symbol ≠ .epsilon

namespace Names

variable {name : String}

theorem spelledBy_of_ofLists {nonterminals terminals : List String}
    (h : ofLists nonterminals terminals = .ok names) (hterminals : terminals.length < 2 ^ 32)
    (hnonterminalNames : g.nonterminalNames = nonterminals.toArray)
    (hterminalNames : g.terminalNames = terminals.toArray) : names.SpelledBy g where
  symbolName_eq hsymbol :=
    ((symbol_ofLists_eq_ok_iff h).mp hsymbol).symbolName hterminals hnonterminalNames hterminalNames
  ne_epsilon hsymbol := ((symbol_ofLists_eq_ok_iff h).mp hsymbol).ne_epsilon

theorem SpelledBy.nonterminalName_eq (hnames : names.SpelledBy g) {n : Nat}
    (h : names.nonterminal name = .ok n) : g.nonterminalName n = name :=
  hnames.symbolName_eq (nonterminal_eq_ok_iff.mp h)

theorem SpelledBy.terminalName_eq (hnames : names.SpelledBy g) {t : Terminal}
    (h : names.terminal name = .ok t) : g.terminalName t = name :=
  hnames.symbolName_eq (terminal_eq_ok_iff.mp h)

/-- Names that resolve are spelled again. -/
theorem SpelledBy.map_symbolName (hnames : names.SpelledBy g) {body : List String}
    {symbols : List Symbol} (h : body.mapM names.symbol = .ok symbols) :
    symbols.map g.symbolName = body := by
  have hpointwise : List.Forall₂ (fun name symbol => name = g.symbolName symbol) body symbols :=
    (mapM_eq_ok_iff.mp h).imp fun _ _ hsymbol => (hnames.symbolName_eq hsymbol).symm
  rw [← List.forall₂_map_right_iff, List.forall₂_eq_eq_eq] at hpointwise
  exact hpointwise.symm

theorem SpelledBy.notMem_epsilon (hnames : names.SpelledBy g) {body : List String}
    {symbols : List Symbol} (h : body.mapM names.symbol = .ok symbols) :
    Symbol.epsilon ∉ symbols := by
  intro hmem
  obtain ⟨name, -, hsymbol⟩ := exists_mem_of_forall₂ (mapM_eq_ok_iff.mp h) hmem
  exact hnames.ne_epsilon hsymbol rfl

end Names

/-! ## Productions -/

/-- The sides of the production that a rule stands for: an empty body becomes the mark of the empty
word, and any other the symbols that its names stand for. -/
theorem Rule.sides_of_production {rule : Rule} {index : Nat} {p : Production}
    (h : rule.production names index = .ok p) :
    names.nonterminal rule.lhs = .ok p.lhs ∧
      (rule.body = [] ∧ p.body = [.epsilon] ∨
        rule.body ≠ [] ∧ rule.body.mapM names.symbol = .ok p.body) := by
  unfold Rule.production at h
  obtain ⟨lhs, hlhs, hbody⟩ := bind_eq_ok_iff.mp h
  split at hbody
  · next hnil =>
    cases hbody
    exact ⟨mapError_eq_ok_iff.mp hlhs, .inl ⟨hnil, rfl⟩⟩
  · next hne =>
    obtain ⟨symbols, hsymbols, hp⟩ := bind_eq_ok_iff.mp hbody
    cases hp
    exact ⟨mapError_eq_ok_iff.mp hlhs, .inr ⟨hne, mapError_eq_ok_iff.mp hsymbols⟩⟩

theorem Rule.describes_of_production (hnames : names.SpelledBy g) {rule : Rule} {index : Nat}
    {p : Production} (h : rule.production names index = .ok p) : rule.Describes g p := by
  obtain ⟨hlhs, ⟨hnil, hbody⟩ | ⟨hne, hbody⟩⟩ := Rule.sides_of_production h
  · exact ⟨hnames.nonterminalName_eq hlhs, iff_of_true hnil hbody, fun hne => absurd hnil hne⟩
  · refine ⟨hnames.nonterminalName_eq hlhs, iff_of_false hne fun hepsilon => ?_,
      fun _ => hnames.map_symbolName hbody⟩
    -- A body that is the mark alone did not come from names.
    refine hnames.notMem_epsilon hbody ?_
    rw [hepsilon]
    exact List.mem_singleton_self _

theorem describes_of_buildProductions (hnames : names.SpelledBy g) {rules : List Rule}
    {productions : List Production} (h : buildProductions names rules = .ok productions) :
    List.Forall₂ (Rule.Describes g) rules productions := by
  rw [← List.zipIdx_map_fst 0 rules, List.forall₂_map_left_iff]
  exact (mapM_eq_ok_iff.mp h).imp fun _ _ hp => Rule.describes_of_production hnames hp

/-! ## States -/

/-- The parts of the item that an entry stands for. -/
theorem ItemEntry.parts_of_item {productions : Array Production} {entry : ItemEntry}
    {position : Nat} {item : Item} (h : entry.item names productions position = .ok item) :
    productions[entry.production]? = some item.production ∧
      item.dot = entry.dot ∧ entry.dot ≤ item.production.length ∧
      names.terminal entry.lookahead = .ok item.lookahead := by
  unfold ItemEntry.item at h
  split at h
  · cases h
  · next production hproduction =>
    split at h
    · cases h
    · next hdot =>
      obtain ⟨lookahead, hlookahead, hitem⟩ := bind_eq_ok_iff.mp h
      cases hitem
      exact ⟨hproduction, rfl, Nat.le_of_not_lt hdot, mapError_eq_ok_iff.mp hlookahead⟩

theorem ItemEntry.describes_of_item (hnames : names.SpelledBy g) {entry : ItemEntry}
    {position : Nat} {item : Item} (h : entry.item names g.productions position = .ok item) :
    entry.Describes g item := by
  obtain ⟨hproduction, hdot, -, hlookahead⟩ := ItemEntry.parts_of_item h
  exact ⟨hproduction, hdot, hnames.terminalName_eq hlookahead⟩

/-- Adding a transition puts in the symbol that the name stands for. -/
theorem exists_insert_of_addTransition {position : Nat} {transitions transitions' : Transitions}
    {entry : String × Nat}
    (h : addTransition names position transitions entry = .ok transitions') :
    ∃ symbol target, names.symbol entry.1 = .ok symbol ∧ target.toNat = entry.2 ∧
      transitions' = transitions.insert symbol target := by
  unfold addTransition at h
  split at h
  · cases h
  · next target htarget =>
    obtain ⟨symbol, hsymbol, hinsert⟩ := bind_eq_ok_iff.mp h
    cases hinsert
    exact ⟨symbol, target, mapError_eq_ok_iff.mp hsymbol, Index.toNat_of_ofNat? htarget, rfl⟩

/-- A transition on a new name is one entry more. -/
theorem spelledTransitions_addTransition (hnames : names.SpelledBy g) {position : Nat}
    {transitions transitions' : Transitions} {entry : String × Nat}
    (h : addTransition names position transitions entry = .ok transitions')
    (hnew : entry.1 ∉ (spelledTransitions g transitions).map Prod.fst) :
    (spelledTransitions g transitions').Perm (entry :: spelledTransitions g transitions) := by
  obtain ⟨symbol, target, hsymbol, htarget, rfl⟩ := exists_insert_of_addTransition h
  have hname : g.symbolName symbol = entry.1 := hnames.symbolName_eq hsymbol
  have hfresh : symbol ∉ transitions := by
    intro hmem
    refine hnew ?_
    rw [← hname, spelledTransitions, List.map_map]
    refine List.mem_map.mpr ⟨(symbol, transitions[symbol]), ?_, rfl⟩
    rw [Std.ExtTreeMap.mem_toList_iff_getElem?_eq_some]
    exact Std.ExtTreeMap.getElem?_eq_some_getElem hmem
  have hentry : (g.symbolName symbol, target.toNat) = entry := Prod.ext hname htarget
  have hperm := (toList_insert_perm hfresh target).map fun e : Symbol × StateIdx =>
    (g.symbolName e.1, e.2.toNat)
  rw [List.map_cons, hentry] at hperm
  exact hperm

/-- Transitions on new names that differ from each other are all kept. -/
theorem spelledTransitions_foldlM (hnames : names.SpelledBy g) {position : Nat}
    {entries : List (String × Nat)} {transitions transitions' : Transitions}
    (h : entries.foldlM (addTransition names position) transitions = .ok transitions')
    (hnodup : ((spelledTransitions g transitions ++ entries).map Prod.fst).Nodup) :
    (spelledTransitions g transitions').Perm (spelledTransitions g transitions ++ entries) := by
  induction entries generalizing transitions with
  | nil =>
    cases h
    rw [List.append_nil]
  | cons entry rest ih =>
    rw [List.foldlM_cons] at h
    obtain ⟨extended, hadd, hrest⟩ := bind_eq_ok_iff.mp h
    have hfirst : ((entry :: (spelledTransitions g transitions ++ rest)).map Prod.fst).Nodup :=
      (List.perm_middle.map Prod.fst).nodup_iff.mp hnodup
    have hnew : entry.1 ∉ (spelledTransitions g transitions).map Prod.fst := by
      rw [List.map_cons, List.nodup_cons, List.map_append, List.mem_append, not_or] at hfirst
      exact hfirst.1.1
    have hextended : (spelledTransitions g extended ++ rest).Perm
        (entry :: (spelledTransitions g transitions ++ rest)) :=
      (spelledTransitions_addTransition hnames hadd hnew).append_right rest
    have hkept : (spelledTransitions g transitions').Perm (spelledTransitions g extended ++ rest) :=
      ih hrest ((hextended.map Prod.fst).nodup_iff.mpr hfirst)
    exact hkept.trans (hextended.trans List.perm_middle.symm)

/-- The parts of the state that an entry stands for. -/
theorem StateEntry.parts_of_state {productions : Array Production} {entry : StateEntry}
    {position : Nat} {s : State} (h : entry.state names productions position = .ok s) :
    List.Forall₂ (fun entry item => ItemEntry.item names productions position entry = .ok item)
        entry.items s.items ∧
      entry.transitions.toList.foldlM (addTransition names position) ∅ = .ok s.transitions := by
  unfold StateEntry.state at h
  obtain ⟨index, -, h⟩ := bind_eq_ok_iff.mp h
  obtain ⟨items, hitems, h⟩ := bind_eq_ok_iff.mp h
  obtain ⟨transitions, htransitions, h⟩ := bind_eq_ok_iff.mp h
  cases h
  exact ⟨mapM_eq_ok_iff.mp hitems, htransitions⟩

theorem StateEntry.describes_of_state (hnames : names.SpelledBy g) {entry : StateEntry}
    {position : Nat} {s : State} (h : entry.state names g.productions position = .ok s) :
    entry.Describes g s := by
  obtain ⟨hitems, htransitions⟩ := StateEntry.parts_of_state h
  have hempty : spelledTransitions g ∅ = [] := by
    rw [spelledTransitions, Std.ExtTreeMap.toList_eq_nil_iff.mpr rfl, List.map_nil]
  refine ⟨hitems.imp fun _ _ hitem => ItemEntry.describes_of_item hnames hitem, ?_⟩
  have hkept := spelledTransitions_foldlM hnames htransitions (by
    rw [hempty, List.nil_append]
    exact nodup_map_fst_toList entry.transitions)
  rwa [hempty, List.nil_append] at hkept

theorem describes_of_buildStates (hnames : names.SpelledBy g) {entries : List StateEntry}
    {states : List State} (h : buildStates names g.productions entries = .ok states) :
    List.Forall₂ (StateEntry.Describes g) entries states := by
  rw [← List.zipIdx_map_fst 0 entries, List.forall₂_map_left_iff]
  exact (mapM_eq_ok_iff.mp h).imp fun _ _ hs => StateEntry.describes_of_state hnames hs

/-! ## The parts -/

/-- What was built on the way to the parts of a description. -/
structure PartsRun (d : Description) (names : Names) (g : Grammar) (a : Automaton) : Prop where
  names_eq : Names.ofLists d.nonterminals d.terminals = .ok names
  productions_eq : buildProductions names d.productions = .ok g.productions.toList
  states_eq : buildStates names g.productions d.states = .ok a.states.toList
  nonterminalNames_eq : g.nonterminalNames = d.nonterminals.toArray
  terminalNames_eq : g.terminalNames = d.terminals.toArray
  augmented_eq : g.augmented = d.augmented

theorem exists_partsRun (h : d.parts = .ok (g, a)) : ∃ names, PartsRun d names g a := by
  unfold parts at h
  obtain ⟨names, hnames, h⟩ := bind_eq_ok_iff.mp h
  obtain ⟨productions, hproductions, h⟩ := bind_eq_ok_iff.mp h
  obtain ⟨states, hstates, h⟩ := bind_eq_ok_iff.mp h
  obtain ⟨grammar, hgrammar, h⟩ := bind_eq_ok_iff.mp h
  obtain ⟨automaton, hautomaton, h⟩ := bind_eq_ok_iff.mp h
  cases h
  obtain ⟨hnonterminalNames, hterminalNames, hproductionsEq, haugmented⟩ :=
    Grammar.fields_of_ofParts (mapError_eq_ok_iff.mp hgrammar)
  have hstatesEq := Automaton.states_of_ofStates (mapError_eq_ok_iff.mp hautomaton)
  exact ⟨names, {
    names_eq := hnames
    productions_eq := by rw [hproductions, hproductionsEq]
    states_eq := by rw [hproductionsEq, hstates, hstatesEq]
    nonterminalNames_eq := hnonterminalNames
    terminalNames_eq := hterminalNames
    augmented_eq := haugmented }⟩

/-- **The parts lose nothing.**  With fewer terminals than numbers for them, whatever parts a
description has, it can be read back from them: each declared name is how the symbol that it stands
for is spelled; the names, the augmented production, the productions and the states are the given
ones, each in its place. -/
theorem parts_lose_nothing (hterminals : d.terminals.length < 2 ^ 32)
    (h : d.parts = .ok (g, a)) :
    (∃ names, Names.ofLists d.nonterminals d.terminals = .ok names ∧
      ∀ name ∈ declaredNames d.nonterminals d.terminals,
        ∃ symbol, names.symbol name = .ok symbol ∧ g.symbolName symbol = name) ∧
    (g.nonterminalNames.toList = d.nonterminals ∧ g.terminalNames.toList = d.terminals) ∧
    List.Forall₂ (Rule.Describes g) d.productions g.productions.toList ∧
    g.augmented = d.augmented ∧
    List.Forall₂ (StateEntry.Describes g) d.states a.states.toList := by
  obtain ⟨names, hrun⟩ := exists_partsRun h
  have hnames : names.SpelledBy g := Names.spelledBy_of_ofLists hrun.names_eq hterminals
    hrun.nonterminalNames_eq hrun.terminalNames_eq
  refine ⟨⟨names, hrun.names_eq, fun name hname => ?_⟩, ⟨?_, ?_⟩, ?_, hrun.augmented_eq, ?_⟩
  · obtain ⟨symbol, hresolves⟩ := exists_resolves_of_mem hterminals hname
    have hsymbol := (Names.symbol_ofLists_eq_ok_iff hrun.names_eq).mpr hresolves
    exact ⟨symbol, hsymbol, hnames.symbolName_eq hsymbol⟩
  · rw [hrun.nonterminalNames_eq]
  · rw [hrun.terminalNames_eq]
  · exact describes_of_buildProductions hnames hrun.productions_eq
  · exact describes_of_buildStates hnames hrun.states_eq

/-! ### A description of repeated letters -/

/-- The rules `S' → S`, `S → a S` and `S → ε` with the states of their canonical collection. -/
def repeatedLetter : Description where
  nonterminals := ["S'", "S"]
  terminals := ["a"]
  productions := [⟨"S'", ["S"]⟩, ⟨"S", ["a", "S"]⟩, ⟨"S", []⟩]
  augmented := 0
  states := [
    { items := [⟨0, 0, "$"⟩, ⟨1, 0, "$"⟩, ⟨2, 0, "$"⟩]
      transitions := Std.ExtTreeMap.ofList [("S", 1), ("a", 2)] },
    { items := [⟨0, 1, "$"⟩]
      transitions := ∅ },
    { items := [⟨1, 1, "$"⟩, ⟨1, 0, "$"⟩, ⟨2, 0, "$"⟩]
      transitions := Std.ExtTreeMap.ofList [("S", 3), ("a", 2)] },
    { items := [⟨1, 2, "$"⟩]
      transitions := ∅ }]

theorem parts_lose_nothing_repeatedLetter :
    repeatedLetter.terminals.length < 2 ^ 32 ∧ ∃ g a, repeatedLetter.parts = .ok (g, a) ∧
      (g.nonterminalNames.toList = ["S'", "S"] ∧ g.terminalNames.toList = ["a"]) ∧
      List.Forall₂ (Rule.Describes g) repeatedLetter.productions g.productions.toList ∧
      g.augmented = 0 ∧
      List.Forall₂ (StateEntry.Describes g) repeatedLetter.states a.states.toList := by
  have hterminals : repeatedLetter.terminals.length < 2 ^ 32 := by decide
  obtain ⟨⟨g, a⟩, hparts⟩ : ∃ built, repeatedLetter.parts = .ok built :=
    exists_ok_of_isSome (by decide +kernel)
  exact ⟨hterminals, g, a, hparts, (parts_lose_nothing hterminals hparts).2⟩

end Description
end CompilerTables
