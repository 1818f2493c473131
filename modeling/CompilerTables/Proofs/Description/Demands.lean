import CompilerTables.Proofs.Description.RoundTrip
import CompilerTables.Proofs.Parsing.Numbering
import CompilerTables.Proofs.Parsing.Rows

/-!
# The tables of a description speak its own numbers

What the items of a description demand can be read straight off the description, with nothing built
(`demand?`).  Whether an item has something left to read is seen from the length of its rule's body,
the number to reduce by is the one that the item gives, and the state to go to stands among the
transitions of its own state, under the name that is read.  The tables that are built from the parts
of the description are filled with these demands (`tables_speak_description`).

Two things could come between a description and its tables.  An item is built with a copy of its
production, and the construction searches for the number of that copy; it finds the number that the
item gave, because no production is listed twice.  And an empty body becomes the mark of the empty
word, which takes up one place.  So an item of an empty rule may have its dot before the mark or
behind it, and nothing is left to read in either case.
-/

namespace CompilerTables
namespace Description

open Parsing (Symbol Terminal Production Item State StateIdx Action Demand Grammar Automaton
  ParseTables)

/-! ## Reading a description -/

/-- Nothing is left to read at a dot: the body is empty, or the dot is at its end. -/
def Rule.IsReadAt (rule : Rule) (dot : Nat) : Prop :=
  rule.body = [] ∨ dot = rule.body.length

instance (rule : Rule) (dot : Nat) : Decidable (rule.IsReadAt dot) :=
  inferInstanceAs (Decidable (_ ∨ _))

section
variable (d : Description)

/-- The symbol that a name stands for, by its place in the two lists of names. -/
def namedSymbol? (name : String) : Option Symbol :=
  if name = endMarkerName then some (.terminal Terminal.endMarker)
  else match d.nonterminals.idxOf? name with
    | some n => some (.nonterminal n)
    | none => (d.terminals.idxOf? name).bind fun k => (Index.ofNat? k).map Parsing.Symbol.terminal

/-- The demand of an item with nothing left to read: to accept or to reduce by its rule. -/
def completedDemand? (entry : ItemEntry) : Option Demand :=
  if entry.production = d.augmented ∧ entry.lookahead = endMarkerName then
    some (.act Terminal.endMarker .accept)
  else ((d.namedSymbol? entry.lookahead).bind Parsing.Symbol.terminal?).map fun t =>
    .act t (.reduce entry.production)

/-- The demand of an item that reads a name: the target that its state lists under that name. -/
def readingDemand? (state : StateEntry) (name : String) : Option Demand :=
  match state.transitions[name]?.bind Index.ofNat?, d.namedSymbol? name with
  | some target, some (.terminal t) => some (.act t (.shift target))
  | some target, some (.nonterminal n) => some (.goto n target)
  | _, _ => none

/-- What an item of a state demands. -/
def demand? (state : StateEntry) (entry : ItemEntry) : Option Demand :=
  match d.productions[entry.production]? with
  | none => none
  | some rule =>
    if rule.IsReadAt entry.dot then d.completedDemand? entry
    else rule.body[entry.dot]?.bind (d.readingDemand? state)

/-- The demands of the items of a state, in the order of items. -/
def demands (state : StateEntry) : List Demand :=
  state.items.filterMap (d.demand? state)

end

variable {d : Description} {names : Names} {g : Grammar} {a : Automaton}

/-! ## Names -/

theorem resolves_of_namedSymbol? {name : String} {symbol : Symbol}
    (h : d.namedSymbol? name = some symbol) :
    Resolves d.nonterminals d.terminals name symbol := by
  unfold namedSymbol? at h
  split at h
  · next hname =>
    cases h
    rw [hname]
    exact .endMarker
  · split at h
    · next n hn =>
      cases h
      obtain ⟨hlt, hname, -⟩ := List.idxOf?_eq_some_iff.mp hn
      exact .nonterminal (List.getElem?_eq_some_iff.mpr ⟨hlt, hname⟩)
    · obtain ⟨k, hk, hsymbol⟩ := Option.bind_eq_some_iff.mp h
      obtain ⟨t, ht, rfl⟩ := Option.map_eq_some_iff.mp hsymbol
      obtain ⟨hlt, hname, -⟩ := List.idxOf?_eq_some_iff.mp hk
      refine .terminal (List.getElem?_eq_some_iff.mpr ?_)
      rw [Index.toNat_of_ofNat? ht]
      exact ⟨hlt, hname⟩

/-- A name with a symbol is found in the lists, before or at the place of the symbol. -/
theorem exists_namedSymbol?_of_resolves {name : String} {symbol : Symbol}
    (h : Resolves d.nonterminals d.terminals name symbol) :
    ∃ found, d.namedSymbol? name = some found := by
  unfold namedSymbol?
  split
  · exact ⟨_, rfl⟩
  · next hname =>
    split
    · exact ⟨_, rfl⟩
    · next hnone =>
      cases h with
      | endMarker => exact absurd rfl hname
      | nonterminal hn => exact absurd (List.mem_of_getElem? hn) (List.idxOf?_eq_none_iff.mp hnone)
      | @terminal _ t ht =>
        have hmem := List.isSome_idxOf?.mpr (List.mem_of_getElem? ht)
        obtain ⟨k, hk⟩ := Option.isSome_iff_exists.mp hmem
        obtain ⟨_, -, hfirst⟩ := List.idxOf?_eq_some_iff.mp hk
        -- `k` is the first place of the name, so it is as small as the number of a terminal
        have hle : k ≤ t.toNat := by
          refine Nat.le_of_not_lt fun hlt => hfirst t.toNat hlt ?_
          exact (List.getElem?_eq_some_iff.mp ht).2
        have hsmall : k < 0x100000000 := Nat.lt_of_le_of_lt hle t.toNat_lt
        refine ⟨.terminal ⟨k, hsmall⟩, ?_⟩
        rw [hk, Option.bind_some, Index.ofNat?, dif_pos hsmall, Option.map_some]

/-- The table of names finds what the lists say. -/
theorem namedSymbol?_of_symbol (hnames : Names.ofLists d.nonterminals d.terminals = .ok names)
    {name : String} {symbol : Symbol} (h : names.symbol name = .ok symbol) :
    d.namedSymbol? name = some symbol := by
  obtain ⟨found, hfound⟩ :=
    exists_namedSymbol?_of_resolves ((Names.symbol_ofLists_eq_ok_iff hnames).mp h)
  have hsame := (Names.symbol_ofLists_eq_ok_iff hnames).mpr (resolves_of_namedSymbol? hfound)
  rw [h] at hsame
  rw [hfound, Except.ok.inj hsame]

/-! ## Items -/

/-- A production that was built stands at the place of its rule. -/
theorem PartsRun.rel_production? (hrun : PartsRun d names g a) (k : Nat) :
    Option.Rel (fun rule p => Rule.production names rule k = .ok p) d.productions[k]?
      (g.production? k) := by
  rw [Grammar.production?, ← Array.getElem?_toList]
  exact rel_getElem?_of_mapM_zipIdx hrun.productions_eq k

theorem PartsRun.exists_rule (hrun : PartsRun d names g a) {k : Nat} {p : Production}
    (h : g.production? k = some p) :
    ∃ rule, d.productions[k]? = some rule ∧ rule.production names k = .ok p := by
  have hrel := hrun.rel_production? k
  rw [h] at hrel
  obtain ⟨rule, hrule, hbuilt⟩ := exists_of_rel_some_right hrel
  exact ⟨rule, hrule, hbuilt⟩

/-- What stands behind the dot in a production: nothing or the mark of the empty word where the rule
has nothing left to read, and elsewhere the symbol that the name at the dot stands for. -/
theorem Rule.next_of_production (hnames : names.SpelledBy g) {rule : Rule} {index dot : Nat}
    {p : Production} (h : rule.production names index = .ok p) (hdot : dot ≤ p.length) :
    (rule.IsReadAt dot ∧ (p.body[dot]? = none ∨ p.body[dot]? = some .epsilon)) ∨
      (¬ rule.IsReadAt dot ∧ ∃ name symbol, rule.body[dot]? = some name ∧
        p.body[dot]? = some symbol ∧ names.symbol name = .ok symbol ∧ symbol ≠ .epsilon) := by
  obtain ⟨-, ⟨hnil, hbody⟩ | ⟨hne, hbody⟩⟩ := Rule.sides_of_production h
  · rw [Production.length, hbody, List.length_singleton] at hdot
    refine .inl ⟨.inl hnil, ?_⟩
    rw [hbody]
    rcases Nat.le_one_iff_eq_zero_or_eq_one.mp hdot with rfl | rfl
    · exact .inr rfl
    · exact .inl rfl
  · have hpointwise := mapM_eq_ok_iff.mp hbody
    have hlength := hpointwise.length_eq
    rcases Nat.eq_or_lt_of_le hdot with hend | hlt
    · refine .inl ⟨.inr (hend.trans hlength.symm), .inl ?_⟩
      exact List.getElem?_eq_none (Nat.le_of_eq hend.symm)
    · have hlt' : dot < rule.body.length := hlength ▸ hlt
      have hsymbol : names.symbol rule.body[dot] = .ok p.body[dot] := hpointwise.get hlt' hlt
      refine .inr ⟨fun hread => ?_, _, _, List.getElem?_eq_getElem hlt',
        List.getElem?_eq_getElem hlt, hsymbol, hnames.ne_epsilon hsymbol⟩
      rcases hread with hnil | hend
      · exact hne hnil
      · omega

/-- An entry and its item agree on whether something is left to read. -/
theorem completed_iff_of_item (hrun : PartsRun d names g a) (hnames : names.SpelledBy g)
    {entry : ItemEntry} {position : Nat} {item : Item}
    (h : entry.item names g.productions position = .ok item) :
    ∃ rule, d.productions[entry.production]? = some rule ∧
      (item.isCompleted = true ↔ rule.IsReadAt entry.dot) := by
  obtain ⟨hproduction, hdot, hle, -⟩ := ItemEntry.parts_of_item h
  obtain ⟨rule, hrule, hbuilt⟩ := hrun.exists_rule hproduction
  refine ⟨rule, hrule, ?_⟩
  rw [Item.isCompleted_iff, Item.completed_iff_next?, Item.next?, hdot]
  rcases Rule.next_of_production hnames hbuilt hle with
    ⟨hread, hnext⟩ | ⟨hread, _, symbol, -, hnext, -, hne⟩
  · exact iff_of_true hnext hread
  · refine iff_of_false ?_ hread
    rw [hnext]
    rintro (hnone | hepsilon)
    · cases hnone
    · exact hne (Option.some_inj.mp hepsilon)

/-- A completed item accepts where the description says so, and else reduces by the number that its
entry gives: the search for its production comes back with that number. -/
theorem completedDemand?_of_completedDemand (hrun : PartsRun d names g a)
    (hnames : names.SpelledBy g) {entry : ItemEntry} {item : Item} {s : State} {demand : Demand}
    (hproduction : g.production? entry.production = some item.production)
    (hlookahead : names.terminal entry.lookahead = .ok item.lookahead)
    (h : s.completedDemand g item = .ok demand) : d.completedDemand? entry = some demand := by
  have hsymbol := Names.terminal_eq_ok_iff.mp hlookahead
  have hend : item.lookahead = Terminal.endMarker ↔ entry.lookahead = endMarkerName := by
    constructor
    · intro heq
      rw [← hnames.terminalName_eq hlookahead, heq]
      rfl
    · intro heq
      have hmarker := (Names.symbol_ofLists_eq_ok_iff hrun.names_eq).mpr .endMarker
      rw [heq, hmarker] at hsymbol
      exact (Parsing.Symbol.terminal.inj (Except.ok.inj hsymbol)).symm
  rw [State.completedDemand_eq hproduction, hrun.augmented_eq] at h
  rw [← Except.ok.inj h, completedDemand?, namedSymbol?_of_symbol hrun.names_eq hsymbol]
  simp only [hend, and_comm]
  split <;> rfl

/-- A transition stands in the description under the name of its symbol. -/
theorem StateEntry.Describes.transition (hnames : names.SpelledBy g) {state : StateEntry}
    {s : State} (h : state.Describes g s) {name : String} {symbol : Symbol}
    (hsymbol : names.symbol name = .ok symbol) {target : StateIdx}
    (htarget : s.transitions[symbol]? = some target) :
    state.transitions[name]? = some target.toNat := by
  have hmem : (g.symbolName symbol, target.toNat) ∈ spelledTransitions g s.transitions :=
    List.mem_map.mpr
      ⟨(symbol, target), Std.ExtTreeMap.mem_toList_iff_getElem?_eq_some.mpr htarget, rfl⟩
  rw [hnames.symbolName_eq hsymbol] at hmem
  exact Std.ExtTreeMap.mem_toList_iff_getElem?_eq_some.mp (h.transitions_perm.mem_iff.mp hmem)

theorem readingDemand?_eq (hrun : PartsRun d names g a) (hnames : names.SpelledBy g)
    {state : StateEntry} {s : State} (hstate : state.Describes g s) {name : String}
    {symbol : Symbol} (hsymbol : names.symbol name = .ok symbol) {target : StateIdx}
    (htarget : s.transitions[symbol]? = some target) :
    d.readingDemand? state name = match symbol with
      | .terminal t => some (.act t (.shift target))
      | .nonterminal n => some (.goto n target)
      | .epsilon => none := by
  rw [readingDemand?, hstate.transition hnames hsymbol htarget, Option.bind_some,
    Index.ofNat?_toNat, namedSymbol?_of_symbol hrun.names_eq hsymbol]
  cases symbol <;> rfl

/-- The item of an entry demands what is read off the description. -/
theorem demand?_of_demand (hrun : PartsRun d names g a) (hnames : names.SpelledBy g)
    {state : StateEntry} {s : State} (hstate : state.Describes g s) {entry : ItemEntry}
    {position : Nat} {item : Item} (hitem : entry.item names g.productions position = .ok item)
    {demand : Demand} (h : s.demand g item = .ok demand) :
    d.demand? state entry = some demand := by
  obtain ⟨hproduction, hdot, hle, hlookahead⟩ := ItemEntry.parts_of_item hitem
  obtain ⟨rule, hrule, hbuilt⟩ := hrun.exists_rule hproduction
  rw [demand?, hrule]
  dsimp only
  rcases Rule.next_of_production hnames hbuilt hle with
    ⟨hread, hnext⟩ | ⟨hread, name, symbol, hname, hnext, hsymbol, hne⟩
  · rw [← hdot] at hnext
    rw [if_pos hread]
    rw [State.demand_of_completed (item.completed_iff_next?.mpr hnext)] at h
    exact completedDemand?_of_completedDemand hrun hnames hproduction hlookahead h
  · rw [← hdot] at hnext
    rw [if_neg hread, hname, Option.bind_some]
    unfold State.demand at h
    rw [Item.next?, hnext] at h
    cases symbol with
    | epsilon => exact absurd rfl hne
    | terminal t =>
      obtain ⟨target, htarget, rfl⟩ := State.target_of_readingDemand h
      exact readingDemand?_eq hrun hnames hstate hsymbol htarget
    | nonterminal n =>
      obtain ⟨target, htarget, rfl⟩ := State.target_of_readingDemand h
      exact readingDemand?_eq hrun hnames hstate hsymbol htarget

/-! ## States -/

/-- A state that was built stands at the place of its entry. -/
theorem PartsRun.rel_states (hrun : PartsRun d names g a) (i : Nat) :
    Option.Rel (fun state s => StateEntry.state names g.productions state i = .ok s)
      d.states[i]? a.states[i]? := by
  rw [← Array.getElem?_toList]
  exact rel_getElem?_of_mapM_zipIdx hrun.states_eq i

/-- What an entry has to do with the item that was built from it: they agree on whether something is
left to read, and on what is demanded. -/
structure ItemEntry.Speaks (d : Description) (g : Grammar) (state : StateEntry) (s : State)
    (entry : ItemEntry) (item : Item) : Prop where
  completed_iff : ∃ rule, d.productions[entry.production]? = some rule ∧
    (item.isCompleted = true ↔ rule.IsReadAt entry.dot)
  demand_eq : ∃ demand, d.demand? state entry = some demand ∧ s.demand g item = .ok demand

theorem speaks_of_state (hrun : PartsRun d names g a) (hnames : names.SpelledBy g)
    {state : StateEntry} {position : Nat} {s : State}
    (hstate : state.state names g.productions position = .ok s)
    (hdemands : ∀ item ∈ s.items, ∃ demand, s.demand g item = .ok demand) :
    List.Forall₂ (ItemEntry.Speaks d g state s) state.items s.items := by
  have hitems := (StateEntry.parts_of_state hstate).1
  have hdescribes := StateEntry.describes_of_state hnames hstate
  refine List.forall₂_iff_zip.mpr ⟨hitems.length_eq, fun hmem => ?_⟩
  have hitem := List.forall₂_zip hitems hmem
  obtain ⟨demand, hdemand⟩ := hdemands _ (List.of_mem_zip hmem).2
  exact ⟨completed_iff_of_item hrun hnames hitem,
    demand, demand?_of_demand hrun hnames hdescribes hitem hdemand, hdemand⟩

/-- Once tables are built, each state and its entry speak of the same demands. -/
theorem PartsRun.rel_speaks (hrun : PartsRun d names g a) (hnames : names.SpelledBy g)
    {tables : ParseTables} (htables : (ParseTables.build a g).tables = .ok tables) (i : Nat) :
    Option.Rel
      (fun (state : StateEntry) (s : State) =>
        List.Forall₂ (ItemEntry.Speaks d g state s) state.items s.items)
      d.states[i]? a.states[i]? := by
  have hrel := hrun.rel_states i
  generalize hs : a.states[i]? = s? at hrel
  generalize d.states[i]? = state? at hrel
  cases hrel with
  | none => exact .none
  | some hbuilt =>
    refine .some (speaks_of_state hrun hnames hbuilt fun item => ?_)
    exact Parsing.demand_of_build htables (Array.mem_of_getElem? hs)

/-- The demands of a state come in the same order on both sides. -/
theorem demands_eq {state : StateEntry} {s : State}
    (h : List.Forall₂ (ItemEntry.Speaks d g state s) state.items s.items) :
    d.demands state = s.demands g := by
  unfold demands State.demands
  generalize state.items = entries at h
  generalize s.items = items at h
  induction h with
  | nil => rfl
  | cons hspeaks _ ih =>
    obtain ⟨demand, hentry, hitem⟩ := hspeaks.demand_eq
    rw [List.filterMap_cons_some hentry, List.filterMap_cons_some (by rw [hitem]; rfl), ih]

/-! ## The tables -/

/-- At both dots of an empty body nothing is left to read. -/
theorem demand_of_empty_body (hrun : PartsRun d names g a) {k : Nat} {rule : Rule}
    (hrule : d.productions[k]? = some rule) (hempty : rule.body = []) :
    ∃ p, g.production? k = some p ∧ p.body = [.epsilon] ∧ ∀ (s : State) (t : Terminal),
      s.demand g ⟨p, 0, t⟩ = s.completedDemand g ⟨p, 0, t⟩ ∧
        s.demand g ⟨p, 1, t⟩ = s.completedDemand g ⟨p, 0, t⟩ := by
  have hrel := hrun.rel_production? k
  rw [hrule] at hrel
  obtain ⟨p, hp, hbuilt⟩ := exists_of_rel_some_left hrel
  obtain ⟨-, ⟨-, hbody⟩ | ⟨hne, -⟩⟩ := Rule.sides_of_production hbuilt
  · have hlength : p.length = 1 := by rw [Production.length, hbody, List.length_singleton]
    refine ⟨p, hp, hbody, fun s t => ⟨?_, ?_⟩⟩
    · exact State.demand_of_completed (.inr (by rw [hbody]; rfl))
    · exact State.demand_of_completed (.inl (Nat.le_of_eq hlength))
  · exact absurd hempty hne

/-- **The tables speak the description's own numbers.**  With fewer terminals than numbers for them,
whenever a description has parts and these have tables, every item demands what is read off the
description.  A cell of the action table holds the first action demanded at its terminal, in the
order of the items, and a cell of the goto table the target demanded for its nonterminal.  At an
empty body, both dots demand to reduce by the number of the rule. -/
theorem tables_speak_description (hterminals : d.terminals.length < 2 ^ 32)
    (hparts : d.parts = .ok (g, a)) {tables : ParseTables}
    (htables : (ParseTables.build a g).tables = .ok tables) :
    (∀ (i : Nat) (state : StateEntry), d.states[i]? = some state →
      ∃ s, a.states[i]? = some s ∧
        List.Forall₂ (ItemEntry.Speaks d g state s) state.items s.items) ∧
    (∀ (index : StateIdx) (t : Terminal), tables.action.get? index t =
      d.states[index.toNat]?.bind fun state =>
        (d.demands state).findSome? (Demand.actionAt? t)) ∧
    (∀ (index : StateIdx) (n : Nat) (target : StateIdx),
      tables.goto.get? index n = some target ↔
        ∃ state, d.states[index.toNat]? = some state ∧ .goto n target ∈ d.demands state) ∧
    ∀ (k : Nat) (rule : Rule), d.productions[k]? = some rule → rule.body = [] →
      ∃ p, g.production? k = some p ∧ p.body = [.epsilon] ∧ ∀ (s : State) (t : Terminal),
        s.demand g ⟨p, 0, t⟩ = s.demand g ⟨p, 1, t⟩ ∧
          (¬ (k = d.augmented ∧ t = Terminal.endMarker) →
            s.demand g ⟨p, 0, t⟩ = .ok (.act t (.reduce k))) := by
  obtain ⟨names, hrun⟩ := exists_partsRun hparts
  have hnames : names.SpelledBy g := Names.spelledBy_of_ofLists hrun.names_eq hterminals
    hrun.nonterminalNames_eq hrun.terminalNames_eq
  have hspeaks := hrun.rel_speaks hnames htables
  refine ⟨fun i state hstate => ?_, fun index t => ?_, fun index n target => ?_, fun k rule => ?_⟩
  · have hrel := hspeaks i
    rw [hstate] at hrel
    exact exists_of_rel_some_left hrel
  · have hrel := hspeaks index.toNat
    rw [Parsing.action_eq_findSome? htables, Automaton.state?]
    generalize a.states[index.toNat]? = s? at hrel
    generalize d.states[index.toNat]? = state? at hrel
    cases hrel with
    | none => rfl
    | some hitems => rw [Option.bind_some, Option.bind_some, demands_eq hitems]
  · have hrel := hspeaks index.toNat
    rw [Parsing.goto_eq_some_iff_mem htables, Automaton.state?]
    generalize a.states[index.toNat]? = s? at hrel
    generalize d.states[index.toNat]? = state? at hrel
    cases hrel with
    | none => simp
    | some hitems => simp [demands_eq hitems]
  · intro hrule hempty
    obtain ⟨p, hp, hbody, hdots⟩ := demand_of_empty_body hrun hrule hempty
    refine ⟨p, hp, hbody, fun s t => ?_⟩
    obtain ⟨hbefore, hbehind⟩ := hdots s t
    refine ⟨hbefore.trans hbehind.symm, fun hreduces => ?_⟩
    rw [hbefore, State.completedDemand_eq hp, hrun.augmented_eq,
      if_neg (mt And.symm hreduces)]

/-- The tables of the description of repeated letters: in state `0` it shifts the letter, reduces by
the empty rule at the end of the input, and goes to state `1`, which accepts. -/
theorem tables_speak_description_repeatedLetter :
    repeatedLetter.terminals.length < 2 ^ 32 ∧ ∃ g a tables, repeatedLetter.parts = .ok (g, a) ∧
      (ParseTables.build a g).tables = .ok tables ∧
      tables.action.get? ⟨0, by decide⟩ ⟨0, by decide⟩ = some (.shift ⟨2, by decide⟩) ∧
      tables.action.get? ⟨0, by decide⟩ Terminal.endMarker = some (.reduce 2) ∧
      tables.goto.get? ⟨0, by decide⟩ 1 = some ⟨1, by decide⟩ ∧
      tables.action.get? ⟨1, by decide⟩ Terminal.endMarker = some .accept := by
  have hterminals : repeatedLetter.terminals.length < 2 ^ 32 := by decide
  -- parts and tables are computed in one go, since only the description is a closed term
  obtain ⟨tables, hbuilt⟩ : ∃ tables, (repeatedLetter.parts.mapError PartsError.message >>=
      fun (g, a) => (ParseTables.build a g).tables.mapError Parsing.TableError.message) =
        .ok tables :=
    exists_ok_of_isSome (by decide +kernel)
  obtain ⟨⟨g, a⟩, hparts, htables⟩ := bind_eq_ok_iff.mp hbuilt
  rw [mapError_eq_ok_iff] at hparts
  rw [mapError_eq_ok_iff] at htables
  obtain ⟨-, haction, hgoto, -⟩ := tables_speak_description hterminals hparts htables
  refine ⟨hterminals, g, a, tables, hparts, htables, ?_, ?_, ?_, ?_⟩
  · rw [haction]
    decide +kernel
  · rw [haction]
    decide +kernel
  · rw [hgoto]
    exact ⟨_, rfl, by decide +kernel⟩
  · rw [haction]
    decide +kernel

end Description
end CompilerTables
