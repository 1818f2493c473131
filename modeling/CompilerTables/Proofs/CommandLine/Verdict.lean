import CompilerTables.CommandLine.Check
import CompilerTables.Proofs.DigraphText
import CompilerTables.Proofs.Parsing.Cells
import CompilerTables.Proofs.Parsing.Closure
import CompilerTables.Proofs.Parsing.ConflictCounts
import CompilerTables.Proofs.Parsing.Rows
import CompilerTables.Proofs.Parsing.TransitionGraph

/-!
# The verdict of a check

A check goes through three stages: the text is read as a description, the description is turned into
parts, and tables are built from the parts.  Its exit status says how that went and what the tables
are like (`check_verdict`).  It is `2` when one of the stages fails; otherwise it is `1` when
conflicts are denied and two items of a state demand different actions at one terminal.

Each option has its own place.  Whether conflicts are denied matters for the exit status and nothing
else, and the drawing is printed in front of whatever is printed anyway, as soon as there are parts.
So the first two stages are told apart from the third: they print nothing (`checkText_of_not`), and
after them the outcome is that of `checkParts` (`IsRead.checkText_eq`).

What is drawn is said without the functions that draw.  `IsDrawing` joins the graph that shows an
automaton to the lines that are the text of a graph; both leave nothing open, so there is one
drawing (`isDrawing_iff`).
-/

namespace CompilerTables
namespace Parsing

/-! ## Clashing demands -/

/-- Two items of some state demand different actions at the same terminal. -/
def Automaton.Clashes (a : Automaton) (g : Grammar) : Prop :=
  ∃ s ∈ a.states, ∃ item ∈ s.items, ∃ item' ∈ s.items, ∃ t action action',
    s.demand g item = .ok (.act t action) ∧ s.demand g item' = .ok (.act t action') ∧
      action ≠ action'

variable {a : Automaton} {g : Grammar} {tables : ParseTables}

/-- Tables are deterministic exactly when no demands clash. -/
theorem isDeterministic_iff_not_clashes (h : (ParseTables.build a g).tables = .ok tables) :
    tables.isDeterministic = true ↔ ¬ a.Clashes g := by
  rw [ParseTables.isDeterministic_iff, (answers_of_build h).conflicts_eq,
    recordedConflicts_eq_nil_iff]
  constructor
  · rintro hagree ⟨s, hs, item, hitem, item', hitem', t, action, action', hd, hd', hne⟩
    have hstate : a.state? s.index = some s := a.state?_index hs
    rw [State.demand_eq_act_iff ⟨_, hd⟩] at hd
    rw [State.demand_eq_act_iff ⟨_, hd'⟩] at hd'
    exact hne (hagree _ ((a.mem_actionDemands_iff g _).mpr ⟨s, hstate, item, hitem, hd⟩) _
      ((a.mem_actionDemands_iff g _).mpr ⟨s, hstate, item', hitem', hd'⟩) rfl rfl)
  · rintro hagree ⟨index, t, action⟩ hd ⟨_, _, action'⟩ hd' rfl rfl
    obtain ⟨s, hs, item, hitem, hasked⟩ := (a.mem_actionDemands_iff g _).mp hd
    obtain ⟨s', hs', item', hitem', hasked'⟩ := (a.mem_actionDemands_iff g _).mp hd'
    cases Option.some_inj.mp (hs.symm.trans hs')
    obtain ⟨hstate, rfl⟩ := a.mem_of_state? hs
    by_contra hne
    refine hagree ⟨s, hstate, item, hitem, item', hitem', t, action, action', ?_, ?_, hne⟩
    · exact (State.demand_eq_act_iff (demand_of_build h hstate hitem)).mpr hasked
    · exact (State.demand_eq_act_iff (demand_of_build h hstate hitem')).mpr hasked'

end Parsing

namespace CommandLine

open Parsing (Action Automaton Conflict Grammar ParseTables StateIdx Terminal)

variable {options : Options} {text : String} {g : Grammar} {a : Automaton}

/-! ## Conflict lines -/

/-- An action in words: a shift by the number of its target, and a reduction by its production, the
names of whose body stand in their order with blanks between them. -/
inductive ActionWords (g : Grammar) : Action → String → Prop
  | shift (target : StateIdx) : ActionWords g (.shift target) s!"shift {target.toNat}"
  | reduce {k : Nat} {p : Parsing.Production} {body : String} (h : g.production? k = some p)
      (hbody : body = " ".intercalate (p.body.map g.symbolName)) :
      ActionWords g (.reduce k) ("reduce " ++ s!"{g.nonterminalName p.lhs} -> {body}")
  | accept : ActionWords g .accept "accept"

/-- A line that reports a conflict: its sort, its cell, and both actions in words. -/
def ReportsConflict (g : Grammar) (c : Conflict) (line : String) : Prop :=
  ∃ kept rejected, ActionWords g c.kept kept ∧ ActionWords g c.rejected rejected ∧
    line = s!"{c.kind.name} conflict in state {c.state.toNat} on {g.terminalName c.terminal}: " ++
      s!"kept [{kept}], dropped [{rejected}]\n"

/-- Whatever can be done is described in words that name the production of a reduction. -/
theorem actionWords_describeAction {index : StateIdx} {t : Terminal} {action : Action}
    (h : a.Allows g index t action) : ActionWords g action (describeAction g action) := by
  cases action with
  | shift target => exact .shift target
  | accept => exact .accept
  | reduce k =>
    have hk : k < g.productions.size := h
    have hproduction : g.production? k = some g.productions[k] := Array.getElem?_eq_getElem hk
    rw [describeAction, hproduction]
    exact .reduce hproduction rfl

/-- The lines of a report are those of its conflicts. -/
theorem reportsConflict_conflictLine {tables : ParseTables}
    (h : (ParseTables.build a g).tables = .ok tables) :
    List.Forall₂ (ReportsConflict g) tables.conflicts.toList
      (tables.conflicts.toList.map (conflictLine g)) := by
  rw [List.forall₂_map_right_iff, List.forall₂_same]
  intro c hc
  obtain ⟨hkept, hrejected⟩ := Parsing.allows_of_mem_conflicts h (Array.mem_toList_iff.mp hc)
  exact ⟨_, _, actionWords_describeAction hkept, actionWords_describeAction hrejected, rfl⟩

/-! ## What is drawn -/

/-- A text is the drawing of an automaton: that of the graph which shows its states and transitions,
and an empty line. -/
def IsDrawing (g : Grammar) (a : Automaton) (text : String) : Prop :=
  ∃ graph written, Automaton.Shows graph a g ∧ graph.IsText written ∧ text = written ++ "\n"

/-- There is one drawing, and it is the one that is printed. -/
theorem isDrawing_iff : IsDrawing g a text ↔ text = drawing g a := by
  constructor
  · rintro ⟨graph, written, hshows, hwritten, rfl⟩
    rw [Digraph.isText_iff.mp hwritten, hshows.unique (a.shows_graph g)]
    rfl
  · rintro rfl
    exact ⟨_, _, a.shows_graph g, Digraph.isText_iff.mpr rfl, rfl⟩

/-! ## The stages of a check -/

/-- The text is a description, and it has these parts. -/
def IsRead (text : String) (g : Grammar) (a : Automaton) : Prop :=
  ∃ d, Description.ofText? text = some d ∧ d.parts = .ok (g, a)

/-- One of the three stages of a check fails. -/
inductive Fails (text : String) : Prop
  | malformed (h : Description.ofText? text = none)
  | parts {d : Description} {e : Description.PartsError}
      (hdescription : Description.ofText? text = some d) (h : d.parts = .error e)
  | tables {g : Grammar} {a : Automaton} {e : Parsing.TableError} (hread : IsRead text g a)
      (h : (ParseTables.build a g).tables = .error e)

/-- Text is what its bytes decode to. -/
theorem check_toUTF8 (options : Options) (text : String) :
    check options (.ok text.toUTF8) = checkText options text := by
  have hdecoded : String.fromUTF8? text.toUTF8 = some text := dif_pos text.isValidUTF8
  rw [check, hdecoded]

theorem IsRead.checkText_eq (h : IsRead text g a) (options : Options) :
    checkText options text = checkParts options g a := by
  obtain ⟨d, hdescription, hparts⟩ := h
  rw [checkText, hdescription]
  dsimp only
  rw [hparts]

theorem IsRead.unique {g' : Grammar} {a' : Automaton} (h : IsRead text g a)
    (h' : IsRead text g' a') : g = g' ∧ a = a' := by
  obtain ⟨d, hdescription, hparts⟩ := h
  obtain ⟨d', hdescription', hparts'⟩ := h'
  cases Option.some_inj.mp (hdescription.symm.trans hdescription')
  exact Prod.mk.inj (Except.ok.inj (hparts.symm.trans hparts'))

/-- A text without parts is refused whatever the options are, and nothing is printed. -/
theorem checkText_of_not (h : ¬ ∃ g a, IsRead text g a) :
    Fails text ∧ ∃ failure, ∀ options, checkText options text = .failed failure := by
  cases hdescription : Description.ofText? text with
  | none =>
    refine ⟨.malformed hdescription, .malformed, fun options => ?_⟩
    rw [checkText, hdescription]
  | some d =>
    cases hparts : d.parts with
    | ok built => exact absurd ⟨built.1, built.2, d, hdescription, hparts⟩ h
    | error e =>
      refine ⟨.parts hdescription hparts, .parts e, fun options => ?_⟩
      rw [checkText, hdescription]
      dsimp only
      rw [hparts]

/-- Once a text has parts, only its tables can fail. -/
theorem IsRead.fails_iff (h : IsRead text g a) :
    Fails text ↔ ∃ e, (ParseTables.build a g).tables = .error e := by
  constructor
  · intro hfails
    cases hfails with
    | malformed hnone =>
      obtain ⟨d, hdescription, -⟩ := h
      rw [hnone] at hdescription
      cases hdescription
    | parts hdescription' herror =>
      obtain ⟨d, hdescription, hparts⟩ := h
      cases Option.some_inj.mp (hdescription.symm.trans hdescription')
      rw [hparts] at herror
      cases herror
    | tables hread herror =>
      obtain ⟨rfl, rfl⟩ := h.unique hread
      exact ⟨_, herror⟩
  · rintro ⟨e, he⟩
    exact .tables h he

/-- Unless a stage fails, the text has tables. -/
theorem exists_tables_of_not_fails (h : ¬ Fails text) :
    ∃ g a tables, IsRead text g a ∧ (ParseTables.build a g).tables = .ok tables := by
  by_cases hread : ∃ g a, IsRead text g a
  · obtain ⟨g, a, hread⟩ := hread
    cases htables : (ParseTables.build a g).tables with
    | ok tables => exact ⟨g, a, tables, hread, htables⟩
    | error e => exact absurd (.tables hread htables) h
  · exact absurd (checkText_of_not hread).1 h

/-! ## The outcome of a check -/

theorem IsRead.exit_of_error (h : IsRead text g a) {e : Parsing.TableError}
    (he : (ParseTables.build a g).tables = .error e) (options : Options) :
    (checkText options text).exit = 2 := by
  rw [h.checkText_eq, checkParts]
  simp only [he]

theorem IsRead.exit_of_tables (h : IsRead text g a) {tables : ParseTables}
    (htables : (ParseTables.build a g).tables = .ok tables) (options : Options) :
    (checkText options text).exit =
      if options.denyConflicts && !tables.isDeterministic then 1 else 0 := by
  rw [h.checkText_eq, checkParts]
  simp only [htables]

/-- With tables, the exit status is `1` when conflicts are denied and demands clash. -/
theorem IsRead.exit_eq_one_iff (h : IsRead text g a) {tables : ParseTables}
    (htables : (ParseTables.build a g).tables = .ok tables) (options : Options) :
    ((checkText options text).exit = 1 ↔ options.denyConflicts ∧ a.Clashes g) ∧
      ((checkText options text).exit = 0 ↔ ¬ (options.denyConflicts ∧ a.Clashes g)) := by
  have hdenied : (options.denyConflicts && !tables.isDeterministic) = true ↔
      options.denyConflicts = true ∧ a.Clashes g := by
    rw [Bool.and_eq_true, Bool.not_eq_true', ← Bool.not_eq_true,
      Parsing.isDeterministic_iff_not_clashes htables, not_not]
  rw [h.exit_of_tables htables, ← hdenied]
  split
  · next htrue => exact ⟨iff_of_true rfl htrue, iff_of_false nofun (not_not_intro htrue)⟩
  · next hfalse => exact ⟨iff_of_false nofun hfalse, iff_of_true rfl hfalse⟩

theorem IsRead.stdout_of_tables (h : IsRead text g a) {tables : ParseTables}
    (htables : (ParseTables.build a g).tables = .ok tables) (options : Options) :
    (checkText options text).stdout =
      (if options.dot then drawing g a else "") ++ tableReport g tables := by
  rw [h.checkText_eq, checkParts]
  simp only [htables]

theorem IsRead.stdout_of_error (h : IsRead text g a) {e : Parsing.TableError}
    (he : (ParseTables.build a g).tables = .error e) (options : Options) :
    (checkText options text).stdout = if options.dot then drawing g a else "" := by
  rw [h.checkText_eq, checkParts]
  simp only [he]

/-- Once there are parts, what is printed is the same but for the drawing in front of it. -/
theorem IsRead.exists_stdout_eq (h : IsRead text g a) :
    ∃ report, ∀ options, (checkText options text).stdout =
      (if options.dot then drawing g a else "") ++ report := by
  cases htables : (ParseTables.build a g).tables with
  | ok tables => exact ⟨_, h.stdout_of_tables htables⟩
  | error e =>
    refine ⟨"", fun options => ?_⟩
    rw [h.stdout_of_error htables, String.append_empty]

/-- Of the options, only whether conflicts are denied matters for the exit status. -/
theorem exists_exit_eq (text : String) :
    ∃ exit : Bool → Nat, ∀ options,
      (checkText options text).exit = exit options.denyConflicts := by
  by_cases hread : ∃ g a, IsRead text g a
  · obtain ⟨g, a, hread⟩ := hread
    cases htables : (ParseTables.build a g).tables with
    | ok tables =>
      exact ⟨fun deny => if deny && !tables.isDeterministic then 1 else 0,
        hread.exit_of_tables htables⟩
    | error e => exact ⟨fun _ => 2, hread.exit_of_error htables⟩
  · obtain ⟨-, failure, hfailure⟩ := checkText_of_not hread
    exact ⟨fun _ => 2, fun options => congrArg Outcome.exit (hfailure options)⟩

/-- The exit status is `2` exactly when a stage fails. -/
theorem exit_eq_two_iff : (checkText options text).exit = 2 ↔ Fails text := by
  by_cases hread : ∃ g a, IsRead text g a
  · obtain ⟨g, a, hread⟩ := hread
    rw [hread.fails_iff]
    cases htables : (ParseTables.build a g).tables with
    | ok tables =>
      refine iff_of_false ?_ nofun
      rw [hread.exit_of_tables htables]
      split <;> decide
    | error e => exact iff_of_true (hread.exit_of_error htables options) ⟨e, rfl⟩
  · obtain ⟨hfails, failure, hfailure⟩ := checkText_of_not hread
    exact iff_of_true (congrArg Outcome.exit (hfailure options)) hfails

/-- **The verdict of a check is that of the tables.**  The exit status is `2` exactly when a stage
fails.  Once there are parts, the drawing of their automaton is printed in front of whatever is
printed without it, and if then the tables fail, it is all that is printed.  If there are tables,
the exit status is `1` when conflicts are denied and demands clash, and `0` otherwise; what is
printed after the drawing, if that is asked for, is a line for each conflict in the order of
conflicts, with each reduction by its production, and the numbers of filled cells and of conflict
lines.  What is printed depends on no option but the drawing, and the exit status on none but
whether conflicts are denied. -/
theorem check_verdict (options : Options) (text : String) :
    ((check options (.ok text.toUTF8)).exit = 2 ↔ Fails text) ∧
    (∀ g a, IsRead text g a → ∃ drawn, IsDrawing g a drawn ∧
      (check { options with dot := true } (.ok text.toUTF8)).stdout =
        drawn ++ (check { options with dot := false } (.ok text.toUTF8)).stdout ∧
      (∀ e, (ParseTables.build a g).tables = .error e →
        (check options (.ok text.toUTF8)).stdout = if options.dot then drawn else "") ∧
      ∀ tables, (ParseTables.build a g).tables = .ok tables →
        ((check options (.ok text.toUTF8)).exit = 1 ↔ options.denyConflicts ∧ a.Clashes g) ∧
        ((check options (.ok text.toUTF8)).exit = 0 ↔
          ¬ (options.denyConflicts ∧ a.Clashes g)) ∧
        ∃ lines, List.Forall₂ (ReportsConflict g) tables.conflicts.toList lines ∧
          (check options (.ok text.toUTF8)).stdout =
            (if options.dot then drawn else "") ++ (String.join lines ++
              (s!"{tables.filledActions.ncard} actions, {tables.filledGotos.ncard} gotos, " ++
                s!"{lines.length} conflicts\n"))) ∧
    (∀ options' : Options, options'.dot = options.dot →
      (check options' (.ok text.toUTF8)).stdout = (check options (.ok text.toUTF8)).stdout) ∧
    ((¬ ∃ g a, IsRead text g a) → (check options (.ok text.toUTF8)).stdout = "") ∧
    ∀ options' : Options, options'.denyConflicts = options.denyConflicts →
      (check options' (.ok text.toUTF8)).exit = (check options (.ok text.toUTF8)).exit := by
  simp only [check_toUTF8]
  obtain ⟨exit, hexit⟩ := exists_exit_eq text
  refine ⟨exit_eq_two_iff, fun g a hread => ⟨drawing g a, isDrawing_iff.mpr rfl, ?_,
    fun e he => hread.stdout_of_error he options, fun tables htables => ?_⟩, ?_,
    fun hread => ?_, fun options' hdeny => ?_⟩
  · obtain ⟨report, hreport⟩ := hread.exists_stdout_eq
    rw [hreport, hreport, if_pos rfl, if_neg Bool.false_ne_true, String.empty_append]
  · obtain ⟨hone, hzero⟩ := hread.exit_eq_one_iff htables options
    refine ⟨hone, hzero, _, reportsConflict_conflictLine htables, ?_⟩
    rw [hread.stdout_of_tables htables, tableReport, summaryLine, tables.ncard_filledActions,
      tables.ncard_filledGotos, List.length_map, Array.length_toList]
  · intro options' hdot
    by_cases hread : ∃ g a, IsRead text g a
    · obtain ⟨g, a, hread⟩ := hread
      obtain ⟨report, hreport⟩ := hread.exists_stdout_eq
      rw [hreport, hreport, hdot]
    · obtain ⟨-, failure, hfailure⟩ := checkText_of_not hread
      rw [hfailure, hfailure]
  · obtain ⟨-, failure, hfailure⟩ := checkText_of_not hread
    rw [hfailure]
    rfl
  · rw [hexit, hexit, hdeny]

/-- The rules `S → ε` and `T → ε` in one state, where both apply at the end of the input, and which
a quote leads back to. -/
def ambiguousText : String :=
  "\x7b\"nonterminals\":[\"S\",\"T\"],\"terminals\":[\"\\\"\"]," ++
    "\"productions\":[\x7b\"lhs\":\"S\"\x7d,\x7b\"lhs\":\"T\"\x7d]," ++
    "\"states\":[\x7b\"items\":[\x7b\"production\":0,\"dot\":0\x7d," ++
      "\x7b\"production\":1,\"dot\":0\x7d],\"transitions\":\x7b\"\\\"\":0\x7d\x7d]\x7d"

/-- The drawing of that state. -/
def ambiguousDrawing : String :=
  "digraph \x7b\n    0 [ label = \"I0\" ]\n    0 -> 0 [ label = \"\\\"\" ]\n\x7d\n\n"

/-- The report on its tables. -/
def ambiguousReport : String :=
  "Accept conflict in state 0 on $: kept [accept], dropped [reduce T -> ε]\n" ++
    "1 actions, 0 gotos, 1 conflicts\n"

/-- The rule `S → a` in a state that the letter does not lead on from. -/
def stuckText : String :=
  "\x7b\"nonterminals\":[\"S\"],\"terminals\":[\"a\"]," ++
    "\"productions\":[\x7b\"lhs\":\"S\",\"body\":[\"a\"]\x7d]," ++
    "\"states\":[\x7b\"items\":[\x7b\"production\":0,\"dot\":0\x7d]\x7d]\x7d"

/-- The drawing of that state. -/
def stuckDrawing : String :=
  "digraph \x7b\n    0 [ label = \"I0\" ]\n\x7d\n\n"

theorem check_verdict_ambiguousText_stuckText :
    (∃ g a tables, IsRead ambiguousText g a ∧ (ParseTables.build a g).tables = .ok tables ∧
      a.Clashes g ∧ IsDrawing g a ambiguousDrawing ∧
      (check ⟨"grammar.json", false, true, 0⟩ (.ok ambiguousText.toUTF8)).exit = 1 ∧
      (check ⟨"grammar.json", true, false, 0⟩ (.ok ambiguousText.toUTF8)).exit = 0 ∧
      (check ⟨"grammar.json", false, false, 0⟩ (.ok ambiguousText.toUTF8)).stdout =
        ambiguousReport ∧
      (check ⟨"grammar.json", true, false, 0⟩ (.ok ambiguousText.toUTF8)).stdout =
        ambiguousDrawing ++ ambiguousReport) ∧
    ∃ g a e, IsRead stuckText g a ∧ (ParseTables.build a g).tables = .error e ∧
      IsDrawing g a stuckDrawing ∧
      (check ⟨"grammar.json", true, false, 0⟩ (.ok stuckText.toUTF8)).exit = 2 ∧
      (check ⟨"grammar.json", true, false, 0⟩ (.ok stuckText.toUTF8)).stdout = stuckDrawing := by
  constructor
  · obtain ⟨hone, hreport, hboth⟩ :
        (check ⟨"grammar.json", false, true, 0⟩ (.ok ambiguousText.toUTF8)).exit = 1 ∧
        (check ⟨"grammar.json", false, true, 0⟩ (.ok ambiguousText.toUTF8)).stdout =
          ambiguousReport ∧
        (check ⟨"grammar.json", true, true, 0⟩ (.ok ambiguousText.toUTF8)).stdout =
          ambiguousDrawing ++ ambiguousReport := by
      rw [check_toUTF8, check_toUTF8]
      decide +kernel
    obtain ⟨htwo, hverdict, hprinted, -⟩ :=
      check_verdict ⟨"grammar.json", false, true, 0⟩ ambiguousText
    have hsucceeds : ¬ Fails ambiguousText := by
      rw [← htwo, hone]
      decide
    obtain ⟨g, a, tables, hread, htables⟩ := exists_tables_of_not_fails hsucceeds
    obtain ⟨drawn, hdrawn, hfront, -, hsettled⟩ := hverdict g a hread
    have hclashes : a.Clashes g := ((hsettled tables htables).1.mp hone).2
    obtain rfl : ambiguousDrawing = drawn := by
      rw [hboth, hreport] at hfront
      exact (String.append_left_inj _).mp hfront
    obtain ⟨-, hallowed, hprinted', -⟩ :=
      check_verdict ⟨"grammar.json", true, false, 0⟩ ambiguousText
    obtain ⟨_, -, -, -, hsettled'⟩ := hallowed g a hread
    obtain ⟨-, hzero, -⟩ := hsettled' tables htables
    exact ⟨g, a, tables, hread, htables, hclashes, hdrawn, hone,
      hzero.mpr (fun h => Bool.false_ne_true h.1),
      (hprinted ⟨"grammar.json", false, false, 0⟩ rfl).trans hreport,
      (hprinted' ⟨"grammar.json", true, true, 0⟩ rfl).symm.trans hboth⟩
  · obtain ⟨hexit, hprinted⟩ :
        (check ⟨"grammar.json", true, false, 0⟩ (.ok stuckText.toUTF8)).exit = 2 ∧
        (check ⟨"grammar.json", true, false, 0⟩ (.ok stuckText.toUTF8)).stdout =
          stuckDrawing := by
      rw [check_toUTF8]
      decide +kernel
    obtain ⟨htwo, hverdict, -, hblank, -⟩ :=
      check_verdict ⟨"grammar.json", true, false, 0⟩ stuckText
    -- Something is printed, so there are parts, and it must be the tables that fail.
    obtain ⟨g, a, hread⟩ : ∃ g a, IsRead stuckText g a := by
      by_contra hnone
      have hempty := hblank hnone
      rw [hprinted] at hempty
      exact absurd hempty (by decide)
    obtain ⟨e, he⟩ := hread.fails_iff.mp (htwo.mp hexit)
    obtain ⟨drawn, hdrawn, -, hfailed, -⟩ := hverdict g a hread
    obtain rfl : stuckDrawing = drawn := hprinted.symm.trans (hfailed e he)
    exact ⟨g, a, e, hread, he, hdrawn, hexit, hprinted⟩

end CommandLine
end CompilerTables
