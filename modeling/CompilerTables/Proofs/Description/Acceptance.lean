import Mathlib.Data.List.Enum
import CompilerTables.Proofs.Description.RoundTrip
import CompilerTables.Proofs.Parsing.Validation

/-!
# Which descriptions have parts

Parts are built in five layers: names, productions, states, the grammar, the automaton.  Each may
refuse what it is given, and the last two look at what the first three have made.  `Consistent` says
what all of them ask for together, in terms of the description alone, and a description has parts
exactly when it is consistent (`exists_parts_iff_consistent`).

A layer hands to the next one what it has built, but whether the next one accepts it can be said
without it.  A name resolves when it is declared, a dot is inside a production when it is inside the
rule, and productions differ when their rules do, since different names stand for different symbols.
That is why each layer has a lemma of the form "there is a result if and only if".
-/

namespace CompilerTables
namespace Description

open Parsing (Symbol Terminal Production Item State StateIdx Transitions Grammar Automaton)

/-! ## What a description has to satisfy -/

/-- The names of a rule are declared, the one on the left as that of a nonterminal. -/
structure Rule.Declared (d : Description) (rule : Rule) : Prop where
  lhs_mem : rule.lhs ∈ d.nonterminals
  body_mem : ∀ name ∈ rule.body, name ∈ declaredNames d.nonterminals d.terminals

/-- The last place of a dot in a rule: behind the last symbol, and behind the mark of the empty word
if there is none. -/
def Rule.lastDot (rule : Rule) : Nat :=
  if rule.body = [] then 1 else rule.body.length

/-- An item refers to a rule and to a place in it, and its lookahead is a terminal. -/
structure ItemEntry.Fits (d : Description) (entry : ItemEntry) : Prop where
  dot_le : ∃ rule ∈ d.productions[entry.production]?, entry.dot ≤ rule.lastDot
  lookahead_mem : entry.lookahead ∈ endMarkerName :: d.terminals

/-- The items of a state fit, and its transitions are on declared names and lead to numbers below a
bound. -/
structure StateEntry.Fits (d : Description) (bound : Nat) (state : StateEntry) : Prop where
  items : ∀ entry ∈ state.items, entry.Fits d
  names_mem : ∀ transition ∈ state.transitions.toList,
    transition.1 ∈ declaredNames d.nonterminals d.terminals
  targets_lt : ∀ transition ∈ state.transitions.toList, transition.2 < bound

/-- Names, rules and numbers of a description go together. -/
structure Consistent (d : Description) : Prop where
  names_nodup : (declaredNames d.nonterminals d.terminals).Nodup
  rules : ∀ rule ∈ d.productions, rule.Declared d
  productions_nodup : d.productions.Nodup
  augmented_lt : d.augmented < d.productions.length
  states : ∀ state ∈ d.states, state.Fits d d.states.length

section Decidable

variable (d : Description)

instance (rule : Rule) : Decidable (rule.Declared d) :=
  decidable_of_iff (rule.lhs ∈ d.nonterminals ∧
      ∀ name ∈ rule.body, name ∈ declaredNames d.nonterminals d.terminals)
    ⟨fun h => ⟨h.1, h.2⟩, fun h => ⟨h.1, h.2⟩⟩

instance (entry : ItemEntry) : Decidable (entry.Fits d) :=
  decidable_of_iff ((∃ rule ∈ d.productions[entry.production]?, entry.dot ≤ rule.lastDot) ∧
      entry.lookahead ∈ endMarkerName :: d.terminals)
    ⟨fun h => ⟨h.1, h.2⟩, fun h => ⟨h.1, h.2⟩⟩

instance (bound : Nat) (state : StateEntry) : Decidable (state.Fits d bound) :=
  decidable_of_iff ((∀ entry ∈ state.items, entry.Fits d) ∧
      (∀ transition ∈ state.transitions.toList,
        transition.1 ∈ declaredNames d.nonterminals d.terminals) ∧
      ∀ transition ∈ state.transitions.toList, transition.2 < bound)
    ⟨fun h => ⟨h.1, h.2.1, h.2.2⟩, fun h => ⟨h.1, h.2, h.3⟩⟩

instance : Decidable d.Consistent :=
  decidable_of_iff ((declaredNames d.nonterminals d.terminals).Nodup ∧
      (∀ rule ∈ d.productions, rule.Declared d) ∧ d.productions.Nodup ∧
      d.augmented < d.productions.length ∧ ∀ state ∈ d.states, state.Fits d d.states.length)
    ⟨fun h => ⟨h.1, h.2.1, h.2.2.1, h.2.2.2.1, h.2.2.2.2⟩, fun h => ⟨h.1, h.2, h.3, h.4, h.5⟩⟩

end Decidable

variable {d : Description} {names : Names} {g : Grammar}

/-! ## Productions -/

theorem Rule.exists_production_iff {rule : Rule} {index : Nat} :
    (∃ p, rule.production names index = .ok p) ↔
      (∃ n, names.nonterminal rule.lhs = .ok n) ∧
        ∀ name ∈ rule.body, ∃ symbol, names.symbol name = .ok symbol := by
  rw [Rule.production, ← exists_mapError_eq_ok_iff (f := PartsError.misnamed)]
  refine exists_bind_eq_ok_iff fun lhs _ => ?_
  split
  · next hnil =>
    rw [hnil]
    exact iff_of_true ⟨_, rfl⟩ nofun
  · rw [exists_bind_pure_eq_ok_iff, exists_mapError_eq_ok_iff, exists_mapM_eq_ok_iff]

/-- A dot has the same places in a rule and in its production. -/
theorem Rule.length_of_production {rule : Rule} {index : Nat} {p : Production}
    (h : rule.production names index = .ok p) : p.length = rule.lastDot := by
  rw [Production.length, Rule.lastDot]
  obtain ⟨-, ⟨hnil, hbody⟩ | ⟨hne, hbody⟩⟩ := Rule.sides_of_production h
  · rw [hbody, if_pos hnil, List.length_singleton]
  · rw [if_neg hne, (mapM_eq_ok_iff.mp hbody).length_eq]

/-- A production is what its rule stands for, whatever number the rule has. -/
def Rule.Makes (names : Names) (rule : Rule) (p : Production) : Prop :=
  ∃ index, rule.production names index = .ok p

theorem makes_of_buildProductions {rules : List Rule} {productions : List Production}
    (h : buildProductions names rules = .ok productions) :
    List.Forall₂ (Rule.Makes names) rules productions := by
  rw [← List.zipIdx_map_fst 0 rules, List.forall₂_map_left_iff]
  exact (mapM_eq_ok_iff.mp h).imp fun _ _ hp => ⟨_, hp⟩

/-- Equal rules make equal productions. -/
theorem Rule.Makes.rightUnique : Relator.RightUnique (Rule.Makes names) := by
  rintro rule ⟨lhs, body⟩ ⟨lhs', body'⟩ ⟨_, hp⟩ ⟨_, hp'⟩
  obtain ⟨hlhs, hbody⟩ := Rule.sides_of_production hp
  obtain ⟨hlhs', hbody'⟩ := Rule.sides_of_production hp'
  rw [Production.mk.injEq]
  refine ⟨Except.ok.inj (hlhs.symm.trans hlhs'), ?_⟩
  rcases hbody with ⟨hnil, hepsilon⟩ | ⟨hne, hbody⟩ <;>
    rcases hbody' with ⟨hnil', hepsilon'⟩ | ⟨hne', hbody'⟩
  · exact hepsilon.trans hepsilon'.symm
  · exact absurd hnil hne'
  · exact absurd hnil' hne
  · exact Except.ok.inj (hbody.symm.trans hbody')

section Resolved

variable (hnames : Names.ofLists d.nonterminals d.terminals = .ok names)
include hnames

/-- A production that was built uses declared symbols only. -/
theorem Rule.Makes.declared {rule : Rule} {p : Production} (h : rule.Makes names p) :
    ∀ s ∈ p.symbols, s.Declared d.nonterminals.length d.terminals.length := by
  obtain ⟨index, hp⟩ := h
  obtain ⟨hlhs, hbody⟩ := Rule.sides_of_production hp
  have hresolved : ∀ {name symbol}, names.symbol name = .ok symbol →
      symbol.Declared d.nonterminals.length d.terminals.length := fun hsymbol =>
    ((Names.symbol_ofLists_eq_ok_iff hnames).mp hsymbol).declared
  rw [Production.symbols, List.forall_mem_cons]
  refine ⟨hresolved (Names.nonterminal_eq_ok_iff.mp hlhs), fun s hs => ?_⟩
  rcases hbody with ⟨-, hepsilon⟩ | ⟨-, hbody⟩
  · rw [hepsilon, List.mem_singleton] at hs
    rw [hs]
    trivial
  · obtain ⟨name, -, hsymbol⟩ := exists_mem_of_forall₂ (mapM_eq_ok_iff.mp hbody) hs
    exact hresolved hsymbol

/-- Different rules make different productions. -/
theorem Rule.Makes.leftUnique (hterminals : d.terminals.length < 2 ^ 32) :
    Relator.LeftUnique (Rule.Makes names) := by
  have hresolves : ∀ {name symbol}, names.symbol name = .ok symbol →
      Resolves d.nonterminals d.terminals name symbol := (Names.symbol_ofLists_eq_ok_iff hnames).mp
  have hinjective : Relator.LeftUnique fun name symbol => names.symbol name = .ok symbol :=
    fun _ _ _ h h' => (hresolves h).name_eq hterminals (hresolves h')
  -- the mark of the empty word is not made from names
  have hmark : ∀ body : List String, body.mapM names.symbol ≠ .ok [.epsilon] := by
    intro body hbody
    cases mapM_eq_ok_iff.mp hbody with
    | cons hsymbol _ => exact (hresolves hsymbol).ne_epsilon rfl
  rintro ⟨lhs, body⟩ ⟨lhs', body'⟩ p ⟨_, hp⟩ ⟨_, hp'⟩
  obtain ⟨hlhs, hbody⟩ := Rule.sides_of_production hp
  obtain ⟨hlhs', hbody'⟩ := Rule.sides_of_production hp'
  rw [Rule.mk.injEq]
  refine ⟨hinjective (Names.nonterminal_eq_ok_iff.mp hlhs) (Names.nonterminal_eq_ok_iff.mp hlhs'),
    ?_⟩
  rcases hbody with ⟨hnil, hepsilon⟩ | ⟨-, hbody⟩ <;>
    rcases hbody' with ⟨hnil', hepsilon'⟩ | ⟨-, hbody'⟩
  · exact hnil.trans hnil'.symm
  · exact absurd (hepsilon ▸ hbody') (hmark body')
  · exact absurd (hepsilon' ▸ hbody) (hmark body)
  · exact List.left_unique_forall₂' hinjective (mapM_eq_ok_iff.mp hbody)
      (mapM_eq_ok_iff.mp hbody')

/-- No production is listed twice exactly when no rule is. -/
theorem nodup_productions_iff (hterminals : d.terminals.length < 2 ^ 32)
    {productions : List Production} (h : buildProductions names d.productions = .ok productions) :
    productions.Nodup ↔ d.productions.Nodup :=
  (List.rel_nodup ⟨Rule.Makes.leftUnique hnames hterminals, Rule.Makes.rightUnique⟩
    (makes_of_buildProductions h)).symm

theorem declared_of_buildProductions {productions : List Production}
    (h : buildProductions names d.productions = .ok productions) :
    ∀ p ∈ productions.toArray, ∀ s ∈ p.symbols,
      s.Declared d.nonterminals.toArray.size d.terminals.toArray.size := by
  intro p hp
  obtain ⟨rule, -, hmade⟩ :=
    exists_mem_of_forall₂ (makes_of_buildProductions h) (List.mem_toArray.mp hp)
  exact hmade.declared hnames

theorem exists_buildProductions_iff (hterminals : d.terminals.length < 2 ^ 32) :
    (∃ productions, buildProductions names d.productions = .ok productions) ↔
      ∀ rule ∈ d.productions, rule.Declared d := by
  rw [buildProductions, exists_mapM_eq_ok_iff, List.forall_mem_zipIdx, List.forall_mem_iff_getElem]
  refine forall₂_congr fun k hk => ?_
  rw [Rule.exists_production_iff, Names.exists_nonterminal_iff hnames]
  simp only [Names.exists_symbol_iff hnames hterminals]
  exact ⟨fun h => ⟨h.1, h.2⟩, fun h => ⟨h.1, h.2⟩⟩

end Resolved

/-! ## States -/

section State

variable {productions : Array Production} {position : Nat}

theorem ItemEntry.exists_item_iff {entry : ItemEntry} :
    (∃ item, entry.item names productions position = .ok item) ↔
      (∃ p ∈ productions[entry.production]?, entry.dot ≤ p.length) ∧
        ∃ t, names.terminal entry.lookahead = .ok t := by
  unfold ItemEntry.item
  split
  · next hnone =>
    rw [hnone]
    refine iff_of_false not_exists_error_eq_ok ?_
    rintro ⟨⟨p, hp, -⟩, -⟩
    cases hp
  · next p hp =>
    have hinside : (∃ p ∈ productions[entry.production]?, entry.dot ≤ p.length) ↔
        entry.dot ≤ p.length := by
      rw [hp]
      exact ⟨fun ⟨_, hp, hdot⟩ => Option.some_inj.mp hp ▸ hdot, fun hdot => ⟨p, rfl, hdot⟩⟩
    rw [hinside]
    split
    · next hdot =>
      exact iff_of_false not_exists_error_eq_ok fun h => Nat.not_le_of_lt hdot h.1
    · next hdot =>
      rw [exists_bind_pure_eq_ok_iff, exists_mapError_eq_ok_iff]
      exact (and_iff_right (Nat.le_of_not_lt hdot)).symm

theorem exists_addTransition_iff {transitions : Transitions} {entry : String × Nat} :
    (∃ transitions', addTransition names position transitions entry = .ok transitions') ↔
      (∃ symbol, names.symbol entry.1 = .ok symbol) ∧ entry.2 < 2 ^ 32 := by
  rw [addTransition, Index.ofNat?]
  by_cases htarget : entry.2 < 0x100000000
  · rw [dif_pos htarget]
    dsimp only
    rw [exists_bind_pure_eq_ok_iff, exists_mapError_eq_ok_iff]
    exact (and_iff_left htarget).symm
  · rw [dif_neg htarget]
    exact iff_of_false not_exists_error_eq_ok fun h => htarget h.2

theorem StateEntry.exists_state_iff {state : StateEntry} (hposition : position < 2 ^ 32) :
    (∃ s, state.state names productions position = .ok s) ↔
      (∀ entry ∈ state.items, ∃ item, entry.item names productions position = .ok item) ∧
        ∀ transition ∈ state.transitions.toList,
          (∃ symbol, names.symbol transition.1 = .ok symbol) ∧ transition.2 < 2 ^ 32 := by
  have hindex : ∃ index : StateIdx, (Index.ofNat position).mapError PartsError.stateOutOfRange =
      .ok index := exists_mapError_eq_ok_iff.mpr (Index.exists_ofNat_iff.mpr hposition)
  rw [StateEntry.state, exists_bind_eq_ok_iff fun index _ =>
    exists_bind_eq_ok_iff fun items _ => exists_bind_pure_eq_ok_iff, and_iff_right hindex,
    exists_mapM_eq_ok_iff]
  exact and_congr_right fun _ =>
    exists_foldlM_eq_ok_iff (f := addTransition names position) fun _ _ => exists_addTransition_iff

/-- A state that was built carries its position. -/
theorem StateEntry.index_of_state {state : StateEntry} {s : State}
    (h : state.state names productions position = .ok s) : s.index.toNat = position := by
  unfold StateEntry.state at h
  obtain ⟨index, hindex, h⟩ := bind_eq_ok_iff.mp h
  obtain ⟨items, -, h⟩ := bind_eq_ok_iff.mp h
  obtain ⟨transitions, -, h⟩ := bind_eq_ok_iff.mp h
  cases h
  exact Index.ofNat_eq_ok_iff.mp (mapError_eq_ok_iff.mp hindex)

/-- Transitions that are added to others are on symbols that names stand for. -/
theorem getElem?_epsilon_of_foldlM
    (hne : ∀ {name symbol}, names.symbol name = .ok symbol → symbol ≠ .epsilon)
    {entries : List (String × Nat)} {transitions transitions' : Transitions}
    (h : entries.foldlM (addTransition names position) transitions = .ok transitions')
    (hnone : transitions[Symbol.epsilon]? = none) : transitions'[Symbol.epsilon]? = none := by
  induction entries generalizing transitions with
  | nil =>
    cases h
    exact hnone
  | cons entry rest ih =>
    rw [List.foldlM_cons] at h
    obtain ⟨extended, hadd, hrest⟩ := bind_eq_ok_iff.mp h
    obtain ⟨symbol, target, hsymbol, -, rfl⟩ := exists_insert_of_addTransition hadd
    refine ih hrest ?_
    rw [Std.ExtTreeMap.getElem?_insert, if_neg (mt Std.LawfulEqCmp.eq_of_compare (hne hsymbol)),
      hnone]

/-- A state that was built has no transition on the mark of the empty word. -/
theorem StateEntry.getElem?_epsilon_of_state
    (hne : ∀ {name symbol}, names.symbol name = .ok symbol → symbol ≠ .epsilon)
    {state : StateEntry} {s : State} (h : state.state names productions position = .ok s) :
    s.transitions[Symbol.epsilon]? = none :=
  getElem?_epsilon_of_foldlM hne (StateEntry.parts_of_state h).2
    (Std.ExtTreeMap.getElem?_eq_none Std.ExtTreeMap.not_mem_empty)

end State

/-- States that were built stand in their places. -/
theorem index_of_buildStates {productions : Array Production} {entries : List StateEntry}
    {states : List State} (h : buildStates names productions entries = .ok states) (k : Nat)
    (hk : k < states.toArray.size) : states.toArray[k].index.toNat = k := by
  have hrel := rel_getElem?_of_mapM_zipIdx h k
  have hs : states[k]? = some states.toArray[k] := List.getElem?_eq_getElem hk
  rw [hs] at hrel
  obtain ⟨state, -, hstate⟩ := exists_of_rel_some_right hrel
  exact StateEntry.index_of_state hstate

section Resolved

variable (hnames : Names.ofLists d.nonterminals d.terminals = .ok names)
include hnames

theorem getElem?_epsilon_of_buildStates {productions : Array Production}
    {states : List State} (h : buildStates names productions d.states = .ok states) :
    ∀ s ∈ states.toArray, s.transitions[Symbol.epsilon]? = none := by
  intro s hs
  obtain ⟨⟨state, position⟩, -, hstate⟩ :=
    exists_mem_of_forall₂ (mapM_eq_ok_iff.mp h) (List.mem_toArray.mp hs)
  exact StateEntry.getElem?_epsilon_of_state (fun hsymbol =>
    ((Names.symbol_ofLists_eq_ok_iff hnames).mp hsymbol).ne_epsilon) hstate

variable (hterminals : d.terminals.length < 2 ^ 32)
include hterminals

/-- An item can be built exactly when it fits: its production ends where its rule does. -/
theorem ItemEntry.exists_item_iff_fits {productions : List Production}
    (hproductions : buildProductions names d.productions = .ok productions) {position : Nat}
    {entry : ItemEntry} :
    (∃ item, entry.item names productions.toArray position = .ok item) ↔ entry.Fits d := by
  have hinside : (∃ p ∈ productions.toArray[entry.production]?, entry.dot ≤ p.length) ↔
      ∃ rule ∈ d.productions[entry.production]?, entry.dot ≤ rule.lastDot := by
    have hrel := rel_getElem?_of_mapM_zipIdx hproductions entry.production
    rw [List.getElem?_toArray]
    generalize productions[entry.production]? = p? at hrel
    generalize d.productions[entry.production]? = rule? at hrel
    cases hrel with
    | none => simp only [Option.not_mem_none, false_and, exists_false]
    | @some rule p hbuilt =>
      have hlength : p.length = rule.lastDot := Rule.length_of_production hbuilt
      simp only [Option.mem_some, exists_eq_left', hlength]
  rw [ItemEntry.exists_item_iff, hinside, Names.exists_terminal_iff hnames hterminals]
  exact ⟨fun h => ⟨h.1, h.2⟩, fun h => ⟨h.1, h.2⟩⟩

/-- As long as there are numbers for all states, they can be built exactly when they fit and no
target is too large to be the number of a state. -/
theorem exists_buildStates_iff (hstates : d.states.length ≤ 2 ^ 32) {productions : List Production}
    (hproductions : buildProductions names d.productions = .ok productions) :
    (∃ states, buildStates names productions.toArray d.states = .ok states) ↔
      ∀ state ∈ d.states, state.Fits d (2 ^ 32) := by
  rw [buildStates, exists_mapM_eq_ok_iff, List.forall_mem_zipIdx, List.forall_mem_iff_getElem]
  refine forall₂_congr fun k hk => ?_
  rw [StateEntry.exists_state_iff (by omega)]
  simp only [ItemEntry.exists_item_iff_fits hnames hterminals hproductions,
    Names.exists_symbol_iff hnames hterminals]
  exact ⟨fun h => ⟨h.1, fun t ht => (h.2 t ht).1, fun t ht => (h.2 t ht).2⟩,
    fun h => ⟨h.items, fun t ht => ⟨h.names_mem t ht, h.targets_lt t ht⟩⟩⟩

end Resolved

/-! ## Parts -/

/-- The targets of a state are those of its entry. -/
theorem StateEntry.Describes.targets_lt_iff {state : StateEntry} {s : State}
    (h : state.Describes g s) {bound : Nat} :
    (∀ transition ∈ state.transitions.toList, transition.2 < bound) ↔
      ∀ (symbol : Symbol) (target : StateIdx), s.transitions[symbol]? = some target →
        target.toNat < bound := by
  simp only [← h.transitions_perm.mem_iff, spelledTransitions, List.forall_mem_map, Prod.forall,
    Std.ExtTreeMap.mem_toList_iff_getElem?_eq_some]

/-- Productions that were built make a grammar exactly when the augmented rule exists and no rule is
listed twice. -/
theorem exists_grammar_iff (hnames : Names.ofLists d.nonterminals d.terminals = .ok names)
    (hterminals : d.terminals.length < 2 ^ 32) {productions : List Production}
    (h : buildProductions names d.productions = .ok productions) :
    (∃ g, Grammar.ofParts d.nonterminals.toArray d.terminals.toArray productions.toArray
        d.augmented = .ok g) ↔
      d.augmented < d.productions.length ∧ d.productions.Nodup := by
  rw [Grammar.exists_ofParts_iff (declared_of_buildProductions hnames h), List.size_toArray,
    (makes_of_buildProductions h).length_eq, ← nodup_productions_iff hnames hterminals h]

/-- States that were built make an automaton exactly when no target of the description is past the
last state. -/
theorem exists_automaton_iff (hspelled : names.SpelledBy g) {states : List State}
    (h : buildStates names g.productions d.states = .ok states)
    (hepsilon : ∀ s ∈ states.toArray, s.transitions[Symbol.epsilon]? = none) :
    (∃ a, Automaton.ofStates states.toArray = .ok a) ↔
      ∀ state ∈ d.states, ∀ transition ∈ state.transitions.toList,
        transition.2 < d.states.length := by
  have hdescribes := describes_of_buildStates hspelled h
  have hsize : states.toArray.size = d.states.length := hdescribes.length_eq.symm
  rw [Automaton.exists_ofStates_iff (index_of_buildStates h) hepsilon, hsize]
  simp only [List.mem_toArray]
  exact (forall_mem_iff_of_forall₂ hdescribes fun _ _ hstate => hstate.targets_lt_iff).symm

/-- The parts of a description exist when every layer has a result. -/
theorem exists_parts_iff_layers (hterminals : d.terminals.length < 2 ^ 32)
    (hstates : d.states.length ≤ 2 ^ 32) :
    (∃ built, d.parts = .ok built) ↔
      (declaredNames d.nonterminals d.terminals).Nodup ∧
      (∀ rule ∈ d.productions, rule.Declared d) ∧
      (∀ state ∈ d.states, state.Fits d (2 ^ 32)) ∧
      (d.augmented < d.productions.length ∧ d.productions.Nodup) ∧
      ∀ state ∈ d.states, ∀ transition ∈ state.transitions.toList,
        transition.2 < d.states.length := by
  -- what a layer asks for is the same whatever the layers before it have built
  rw [parts, ← Names.exists_ofLists_iff (Nat.le_of_lt hterminals)]
  refine exists_bind_eq_ok_iff fun names hnames => ?_
  rw [← exists_buildProductions_iff hnames hterminals]
  refine exists_bind_eq_ok_iff fun productions hproductions => ?_
  rw [← exists_buildStates_iff hnames hterminals hstates hproductions]
  refine exists_bind_eq_ok_iff fun states hbuilt => ?_
  rw [← exists_grammar_iff hnames hterminals hproductions,
    ← exists_mapError_eq_ok_iff (f := PartsError.grammar)]
  refine exists_bind_eq_ok_iff fun g hgrammar => ?_
  obtain ⟨hnonterminalNames, hterminalNames, hproductionsEq, -⟩ :=
    Grammar.fields_of_ofParts (mapError_eq_ok_iff.mp hgrammar)
  rw [← hproductionsEq] at hbuilt
  rw [exists_bind_pure_eq_ok_iff, exists_mapError_eq_ok_iff]
  exact exists_automaton_iff (Names.spelledBy_of_ofLists hnames hterminals hnonterminalNames
    hterminalNames) hbuilt (getElem?_epsilon_of_buildStates hnames hbuilt)

/-- **A description has parts exactly when it is consistent.**  With fewer terminals than numbers
for them, and no more states than numbers for them, none of the five layers refuses what the others
allow: the parts exist when no name is declared twice, rules and states use declared names, no rule
is listed twice, and every number refers to something that is there. -/
theorem exists_parts_iff_consistent (hterminals : d.terminals.length < 2 ^ 32)
    (hstates : d.states.length ≤ 2 ^ 32) :
    (∃ g a, d.parts = .ok (g, a)) ↔ d.Consistent := by
  have hpair : (∃ g a, d.parts = .ok (g, a)) ↔ ∃ built, d.parts = .ok built :=
    (Prod.exists (p := fun built => d.parts = .ok built)).symm
  rw [hpair, exists_parts_iff_layers hterminals hstates]
  constructor
  · rintro ⟨hnames, hrules, hfits, ⟨haugmented, hnodup⟩, htargets⟩
    exact {
      names_nodup := hnames
      rules := hrules
      productions_nodup := hnodup
      augmented_lt := haugmented
      states := fun state hstate => {
        items := (hfits state hstate).items
        names_mem := (hfits state hstate).names_mem
        targets_lt := htargets state hstate } }
  · intro h
    refine ⟨h.names_nodup, h.rules, fun state hstate => ?_, ⟨h.augmented_lt, h.productions_nodup⟩,
      fun state hstate => (h.states state hstate).targets_lt⟩
    obtain ⟨hitems, hnames, htargets⟩ := h.states state hstate
    exact ⟨hitems, hnames, fun transition htransition =>
      Nat.lt_of_lt_of_le (htargets transition htransition) hstates⟩

/-- The description of repeated letters with its last rule listed once more. -/
def repeatedRule : Description :=
  { repeatedLetter with productions := repeatedLetter.productions ++ [⟨"S", []⟩] }

theorem exists_parts_iff_consistent_repeatedLetter :
    (repeatedLetter.terminals.length < 2 ^ 32 ∧ repeatedLetter.states.length ≤ 2 ^ 32) ∧
      (∃ g a, repeatedLetter.parts = .ok (g, a)) ∧ ¬ ∃ g a, repeatedRule.parts = .ok (g, a) := by
  have hterminals : repeatedLetter.terminals.length < 2 ^ 32 := by decide
  have hstates : repeatedLetter.states.length ≤ 2 ^ 32 := by decide
  refine ⟨⟨hterminals, hstates⟩, ?_, ?_⟩
  · rw [exists_parts_iff_consistent hterminals hstates]
    decide +kernel
  · rw [exists_parts_iff_consistent (d := repeatedRule) hterminals hstates]
    decide +kernel

end Description
end CompilerTables
