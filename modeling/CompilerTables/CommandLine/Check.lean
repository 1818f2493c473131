import CompilerTables.CommandLine.Arguments
import CompilerTables.Description.Parts
import CompilerTables.Description.Reading
import CompilerTables.Parsing.Construction
import CompilerTables.Parsing.Reachability
import CompilerTables.Parsing.TransitionGraph

/-!
# Checking a description

The check reads a description, builds its tables, and reports the conflicts.  Its outcome is a
value: the exit status, what goes to standard output, the lines of the log, and the failure, if
there is one.  The file is handed in as the bytes that were read or the reason why they were not.

The exit status is `2` for any failure, `1` if there are conflicts and they are denied, and `0`
otherwise.  What was printed and logged before a failure stands.
-/

namespace CompilerTables
namespace CommandLine

open Parsing (Action Automaton Conflict Grammar ParseTables)

/-- Why a file could not be read. -/
inductive ReadFault where
  | notFound
  | isDirectory
  | notDirectory
  | nameTooLong
  | notText
  | other (reason : String)
  deriving DecidableEq

/-- The words for each reason. -/
def ReadFault.message : ReadFault → String
  | notFound => "No such file or directory (os error 2)"
  | isDirectory => "Is a directory (os error 21)"
  | notDirectory => "Not a directory (os error 20)"
  | nameTooLong => "File name too long (os error 36)"
  | notText => "stream did not contain valid UTF-8"
  | other reason => reason

/-- Why a check did not come to its end. -/
inductive Failure where
  | usage (e : UsageError)
  | unreadable (path : String) (fault : ReadFault)
  | malformed
  | parts (e : Description.PartsError)
  | tables (e : Parsing.TableError)
  deriving DecidableEq

/-- The words for each failure. -/
def Failure.message : Failure → String
  | usage e => e.message
  | unreadable path fault => s!"error: failed to read {path}: {fault.message}"
  | malformed => "error: malformed input description"
  | parts e => s!"error: {e.message}"
  | tables e => s!"error: {e.message}"

/-- The outcome of a run of the program. -/
structure Outcome where
  exit : Nat
  stdout : String
  log : List LogLine
  failure : Option Failure
  deriving DecidableEq

/-- The part of the program that speaks when a description is checked. -/
def checkLogSource : String := "lrcheck"

/-- What the program prints for its version. -/
def versionText : String := "lrcheck 0.1.0\n"

/-- What the program prints about its use. -/
def helpText : String :=
  "Build ACTION/GOTO tables from a canonical LR collection and report conflicts\n\n" ++
  "Usage: lrcheck [OPTIONS] <INPUT>\n\n" ++
  "Arguments:\n" ++
  "  <INPUT>  JSON description of the grammar and its item-set automaton\n\n" ++
  "Options:\n" ++
  "      --dot             Print the automaton as a graphviz digraph\n" ++
  "      --deny-conflicts  Exit with status 1 if the tables have conflicts\n" ++
  "  -v, --verbose...      More logging, repeat for more detail\n" ++
  "  -h, --help            Print help\n" ++
  "  -V, --version         Print version\n"

/-! ## Reports -/

/-- An action in words, a reduction with its production written out. -/
def describeAction (g : Grammar) : Action → String
  | .reduce index => match g.production? index with
    | some production => s!"reduce {g.productionText production}"
    | none => (Action.reduce index).text
  | action => action.text

/-- The line that reports a conflict. -/
def conflictLine (g : Grammar) (c : Conflict) : String :=
  s!"{c.kind.name} conflict in state {c.state.toNat} on {g.terminalName c.terminal}: " ++
    s!"kept [{describeAction g c.kept}], dropped [{describeAction g c.rejected}]\n"

/-- The line that sums up the tables. -/
def summaryLine (tables : ParseTables) : String :=
  s!"{tables.action.size} actions, {tables.goto.size} gotos, " ++
    s!"{tables.conflicts.size} conflicts\n"

/-- The report on tables: their conflicts in the order in which they were met, and the summary. -/
def tableReport (g : Grammar) (tables : ParseTables) : String :=
  String.join (tables.conflicts.toList.map (conflictLine g)) ++ summaryLine tables

/-- The drawing of an automaton and an empty line. -/
def drawing (g : Grammar) (a : Automaton) : String :=
  (a.graph g).dot ++ "\n"

/-- What is logged about the parts of a description. -/
def partsLog (g : Grammar) (a : Automaton) : List LogLine :=
  ⟨.info, checkLogSource, s!"{g.productions.size} productions, {a.size} states"⟩ ::
    a.unreachableStates.map fun k =>
      ⟨.warn, checkLogSource, s!"state {k} is unreachable from state 0"⟩

/-! ## Running -/

/-- The outcome of a run that fails before anything is printed or logged. -/
def Outcome.failed (failure : Failure) : Outcome := ⟨2, "", [], some failure⟩

/-- Checks a grammar and its automaton. -/
def checkParts (options : Options) (g : Grammar) (a : Automaton) : Outcome :=
  let stdout := if options.dot then drawing g a else ""
  let built := ParseTables.build a g
  let log := (partsLog g a ++ built.events.map Parsing.BuildEvent.line).filter
    (LogLine.shownAt options.verbosity)
  match built.tables with
  | .error e => ⟨2, stdout, log, some (.tables e)⟩
  | .ok tables =>
      let exit := if options.denyConflicts && !tables.isDeterministic then 1 else 0
      ⟨exit, stdout ++ tableReport g tables, log, none⟩

/-- Checks the text of a description. -/
def checkText (options : Options) (text : String) : Outcome :=
  match Description.ofText? text with
  | none => .failed .malformed
  | some description => match description.parts with
    | .error e => .failed (.parts e)
    | .ok (g, a) => checkParts options g a

/-- Checks what was read from the description file. -/
def check (options : Options) (content : Except ReadFault ByteArray) : Outcome :=
  match content with
  | .error fault => .failed (.unreadable options.input fault)
  | .ok bytes => match String.fromUTF8? bytes with
    | none => .failed (.unreadable options.input .notText)
    | some text => checkText options text

/-- Runs the program on its arguments; `readFile` gives the content of a file, and is asked for the
description file only. -/
def run {m : Type → Type} [Monad m] (readFile : String → m (Except ReadFault ByteArray))
    (arguments : List String) : m Outcome :=
  match Invocation.ofArguments arguments with
  | .help => pure ⟨0, helpText, [], none⟩
  | .version => pure ⟨0, versionText, [], none⟩
  | .refused e => pure (.failed (.usage e))
  | .check options => do
      let content ← readFile options.input
      return check options content

end CommandLine
end CompilerTables
