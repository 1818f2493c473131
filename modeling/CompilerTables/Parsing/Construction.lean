import CompilerTables.Parsing.Grammar
import CompilerTables.Parsing.Table

/-!
# Filling the parse tables

Every item of every state demands one thing of the tables.  A completed item demands an action at
its lookahead: to accept, if it is the augmented production before the end of the input, and
otherwise to reduce.  An item with a symbol to read demands that the transition on that symbol be
entered, as a shift for a terminal and as a goto for a nonterminal.

The demands are met in the order of states and, within a state, of items.  A conflict does not stop
the construction: the first action of a cell stays, and each different action demanded there later
is recorded once.  A demand that cannot be stated, because a production or a transition is unknown,
does stop it; what was logged before that point is kept.
-/

namespace CompilerTables
namespace Parsing

/-! ## Demands -/

/-- What an item asks of the row of its state. -/
inductive Demand where
  | act (terminal : Terminal) (action : Action)
  | goto (nonterminal : Nat) (target : StateIdx)
  deriving DecidableEq

/-- Why an item's demand cannot be stated. -/
inductive TableError where
  | unknownProduction (state : StateIdx) (production : Production)
  | missingTransition (state : StateIdx) (symbol : Symbol)
  deriving DecidableEq

/-- The words for each reason why tables cannot be built. -/
def TableError.message : TableError → String
  | unknownProduction state production =>
      s!"state {state.toNat} reduces by a production the grammar does not know: " ++
        production.debugText
  | missingTransition state symbol =>
      s!"state {state.toNat} has no transition on {symbol.debugText}"

namespace State

/-- The demand of a completed item: accept at the end of the input, or reduce at the lookahead. -/
def completedDemand (s : State) (g : Grammar) (item : Item) : Except TableError Demand :=
  if item.lookahead = Terminal.endMarker ∧ item.production = g.augmentedProduction then
    .ok (.act Terminal.endMarker .accept)
  else match g.indexOf? item.production with
    | some index => .ok (.act item.lookahead (.reduce index))
    | none => .error (.unknownProduction s.index item.production)

/-- The demand of an item that has a symbol to read: the transition on that symbol. -/
def readingDemand (s : State) (symbol : Symbol) (demand : StateIdx → Demand) :
    Except TableError Demand :=
  match s.successor? symbol with
  | some target => .ok (demand target)
  | none => .error (.missingTransition s.index symbol)

/-- What an item of a state demands. -/
def demand (s : State) (g : Grammar) (item : Item) : Except TableError Demand :=
  match item.next? with
  | none => s.completedDemand g item
  | some .epsilon => s.completedDemand g item
  | some (.nonterminal n) => s.readingDemand (.nonterminal n) (.goto n)
  | some (.terminal t) => s.readingDemand (.terminal t) fun target => .act t (.shift target)

end State

/-- The items of an automaton with their states, in the order in which they are looked at. -/
def Automaton.items (a : Automaton) : List (State × Item) :=
  a.states.toList.flatMap fun s => s.items.map fun item => (s, item)

/-! ## Tables -/

/-- The two tables and the conflicts met while they were filled. -/
structure ParseTables where
  action : ActionTable
  goto : GotoTable
  conflicts : Array Conflict

namespace ParseTables

/-- The tables before anything is demanded. -/
def blank : ParseTables := ⟨∅, ∅, #[]⟩

/-- Tables are deterministic when no conflict was met. -/
def isDeterministic (tables : ParseTables) : Bool :=
  tables.conflicts.isEmpty

end ParseTables

/-- What the construction reports as it goes. -/
inductive BuildEvent where
  | conflict (c : Conflict)
  | overwrite (o : Overwrite)
  | built (states actions gotos conflicts : Nat)
  deriving DecidableEq

/-- The part of the program that speaks when tables are built. -/
def tableLogSource : String := "lrkit::parser::lr"

/-- The log line of an event: a conflict is a warning, all else is detail. -/
def BuildEvent.line : BuildEvent → LogLine
  | conflict c => ⟨.warn, tableLogSource, c.message⟩
  | overwrite o => ⟨.debug, tableLogSource, o.message⟩
  | built states actions gotos conflicts =>
      ⟨.debug, tableLogSource,
        s!"built tables for {states} states: {actions} actions, {gotos} gotos, " ++
          s!"{conflicts} conflicts"⟩

/-- Tables under construction and the events so far. -/
structure Construction where
  tables : ParseTables
  events : Array BuildEvent

namespace Construction

/-- Enters an action, or records the conflict it causes unless that conflict is recorded already. -/
def act (c : Construction) (state : StateIdx) (terminal : Terminal) (action : Action) :
    Construction :=
  match c.tables.action.register state terminal action with
  | .ok table => { c with tables := { c.tables with action := table } }
  | .error conflict =>
      if conflict ∈ c.tables.conflicts then c
      else {
        tables := { c.tables with conflicts := c.tables.conflicts.push conflict }
        events := c.events.push (.conflict conflict) }

/-- Enters a target, and reports it if it replaces a different one. -/
def goto (c : Construction) (state : StateIdx) (nonterminal : Nat) (target : StateIdx) :
    Construction where
  tables := { c.tables with goto := c.tables.goto.register state nonterminal target }
  events := match c.tables.goto.overwrite? state nonterminal target with
    | some o => c.events.push (.overwrite o)
    | none => c.events

/-- Meets one demand of a state. -/
def meet (c : Construction) (state : StateIdx) : Demand → Construction
  | .act terminal action => c.act state terminal action
  | .goto nonterminal target => c.goto state nonterminal target

/-- Meets the demands of items one after another, up to the first that cannot be stated. -/
def run (g : Grammar) : List (State × Item) → Construction → Construction × Option TableError
  | [], c => (c, none)
  | (s, item) :: rest, c => match s.demand g item with
    | .ok demand => run g rest (c.meet s.index demand)
    | .error e => (c, some e)

end Construction

/-- The outcome of a construction: tables or the reason why there are none, and the events. -/
structure BuildResult where
  tables : Except TableError ParseTables
  events : List BuildEvent

/-- Fills the tables of an automaton.  A construction that succeeds ends with a summary. -/
def ParseTables.build (a : Automaton) (g : Grammar) : BuildResult :=
  match Construction.run g a.items ⟨blank, #[]⟩ with
  | (c, some e) => ⟨.error e, c.events.toList⟩
  | (c, none) =>
      let summary : BuildEvent :=
        .built a.size c.tables.action.size c.tables.goto.size c.tables.conflicts.size
      ⟨.ok c.tables, c.events.toList ++ [summary]⟩

end Parsing
end CompilerTables
