import CompilerTables.Text.Visible

/-!
# Command-line arguments

The program takes one description file and three options, before or after it.  Arguments are taken
from left to right.  Short options may be joined, two dashes end the options, and a dash by itself
is a file name.

The first error in this order is reported, with one exception: that the file name is empty is only
noticed at the next option that is recognised, or at the end.
-/

namespace CompilerTables
namespace CommandLine

/-- What the program is asked to do: which file to check, whether to draw the automaton, whether
conflicts are a failure, and how much to log. -/
structure Options where
  input : String
  dot : Bool
  denyConflicts : Bool
  verbosity : Nat
  deriving DecidableEq

/-- Why the arguments are refused. -/
inductive UsageError where
  | missingInput
  | emptyInput
  | unexpectedArgument (argument : String)
  | repeatedOption (option : String)
  | unexpectedValue (value option : String)
  deriving DecidableEq

/-- An argument as a message quotes it, without what a terminal would obey and not show. -/
def quoted (argument : String) : String :=
  String.ofList (Text.visible argument.toList)

/-- The words for each refusal; an argument is quoted with all its lines. -/
def UsageError.text : UsageError → String
  | missingInput => "error: the following required arguments were not provided:"
  | emptyInput => "error: a value is required for '<INPUT>' but none was supplied"
  | unexpectedArgument argument => s!"error: unexpected argument '{quoted argument}' found"
  | repeatedOption option => s!"error: the argument '{option}' cannot be used multiple times"
  | unexpectedValue value option =>
      s!"error: unexpected value '{quoted value}' for '{option}' found; no more were expected"

/-- What is said of a refusal is one line: it ends where an argument breaks it. -/
def UsageError.message (e : UsageError) : String :=
  String.ofList (Text.firstLine e.text.toList)

/-- The outcome of reading the arguments. -/
inductive Invocation where
  | check (options : Options)
  | help
  | version
  | refused (e : UsageError)
  deriving DecidableEq

/-- The options. -/
inductive Flag where
  | dot
  | denyConflicts
  | verbose
  | help
  | version
  deriving DecidableEq

namespace Flag

/-- The long name of an option. -/
def longName : Flag → String
  | dot => "--dot"
  | denyConflicts => "--deny-conflicts"
  | verbose => "--verbose"
  | help => "--help"
  | version => "--version"

/-- An option as it is shown to the user: dots follow one that may be repeated. -/
def label (flag : Flag) : String :=
  if flag = verbose then flag.longName ++ "..." else flag.longName

/-- The option with a long name. -/
def ofLongName? (name : String) : Option Flag :=
  [dot, denyConflicts, verbose, help, version].find? fun flag => flag.longName = name

/-- The option with a one-letter name. -/
def ofLetter? (c : Char) : Option Flag :=
  match c with
  | 'v' => some verbose
  | 'h' => some help
  | 'V' => some version
  | _ => none

end Flag

/-- What has been gathered from the arguments so far. -/
structure Gathered where
  input : Option String
  dot : Bool
  denyConflicts : Bool
  verbosity : Nat
  deriving DecidableEq

/-- Reading goes on, or its outcome is settled. -/
inductive Progress where
  | more (gathered : Gathered)
  | settled (outcome : Invocation)
  deriving DecidableEq

namespace Gathered

/-- Before the first argument. -/
def start : Gathered := ⟨none, false, false, 0⟩

/-- Takes an option; an empty file name is noticed first. -/
def takeFlag (g : Gathered) (flag : Flag) : Progress :=
  if g.input = some "" then .settled (.refused .emptyInput)
  else match flag with
    | .dot =>
        if g.dot then .settled (.refused (.repeatedOption flag.label))
        else .more { g with dot := true }
    | .denyConflicts =>
        if g.denyConflicts then .settled (.refused (.repeatedOption flag.label))
        else .more { g with denyConflicts := true }
    | .verbose => .more { g with verbosity := g.verbosity + 1 }
    | .help => .settled .help
    | .version => .settled .version

/-- Takes the letters of joined short options. -/
def takeLetters : Gathered → List Char → Progress
  | g, [] => .more g
  | g, c :: rest => match Flag.ofLetter? c with
    | none => .settled (.refused (.unexpectedArgument (String.ofList ['-', c])))
    | some flag => match g.takeFlag flag with
      | .more g => g.takeLetters rest
      | .settled outcome => .settled outcome

/-- Takes a long option, whose value, if it has one, follows an equals sign.  No option takes a
value. -/
def takeLong (g : Gathered) (argument : List Char) : Progress :=
  let name := String.ofList (argument.takeWhile (· ≠ '='))
  match Flag.ofLongName? name with
  | none => .settled (.refused (.unexpectedArgument name))
  | some flag => match argument.dropWhile (· ≠ '=') with
    | [] => g.takeFlag flag
    | _ :: value => .settled (.refused (.unexpectedValue (String.ofList value) flag.label))

/-- Takes a file name, of which there may be one. -/
def takeInput (g : Gathered) (argument : String) : Progress :=
  match g.input with
  | none => .more { g with input := some argument }
  | some _ => .settled (.refused (.unexpectedArgument argument))

/-- The outcome when no argument is left. -/
def finish (g : Gathered) : Invocation :=
  match g.input with
  | none => .refused .missingInput
  | some input =>
      if input = "" then .refused .emptyInput
      else .check ⟨input, g.dot, g.denyConflicts, g.verbosity⟩

/-- Takes arguments after the end of the options. -/
def takeInputs : Gathered → List String → Invocation
  | g, [] => g.finish
  | g, argument :: rest => match g.takeInput argument with
    | .more g => g.takeInputs rest
    | .settled outcome => outcome

/-- Takes arguments that may be options. -/
def take : Gathered → List String → Invocation
  | g, [] => g.finish
  | g, argument :: rest =>
    if argument = "--" then g.takeInputs rest
    else
      let progress := match argument.toList with
        | '-' :: '-' :: _ => g.takeLong argument.toList
        | '-' :: c :: letters => g.takeLetters (c :: letters)
        | _ => g.takeInput argument
      match progress with
      | .more g => g.take rest
      | .settled outcome => outcome

end Gathered

/-- What a list of arguments asks for. -/
def Invocation.ofArguments (arguments : List String) : Invocation :=
  Gathered.start.take arguments

end CommandLine
end CompilerTables
