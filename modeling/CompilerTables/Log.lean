/-!
# Log lines

What a computation has to report beside its result is part of its value: it returns the lines in
the order in which they arise.  Whether a line is shown is decided afterwards, by its level.
-/

namespace CompilerTables

/-- How much a log line matters, the most important level first. -/
inductive LogLevel where
  | warn
  | info
  | debug
  | trace
  deriving DecidableEq

/-- One line of a log: its level, the part of the program that speaks, and what it says. -/
structure LogLine where
  level : LogLevel
  source : String
  text : String
  deriving DecidableEq

namespace LogLevel

/-- The name under which a level appears in a log. -/
def name : LogLevel → String
  | warn => "WARN"
  | info => "INFO"
  | debug => "DEBUG"
  | trace => "TRACE"

/-- The place of a level, counted from the most important one. -/
def depth : LogLevel → Nat
  | warn => 0
  | info => 1
  | debug => 2
  | trace => 3

end LogLevel

/-- A line is shown at a verbosity that reaches its level. -/
def LogLine.shownAt (verbosity : Nat) (line : LogLine) : Bool :=
  line.level.depth ≤ verbosity

end CompilerTables
