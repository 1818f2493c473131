import CompilerTables.CommandLine.Check

/-!
# The program

Reads the description file, runs the check, and writes its outcome: the report to standard output,
the log and the failure to standard error.
-/

open CompilerTables CompilerTables.CommandLine

/-- The content of a file, or the reason why it cannot be read. -/
def readDescriptionFile (path : String) : IO (Except ReadFault ByteArray) := do
  try
    let content ← IO.FS.readBinFile path
    return .ok content
  catch
    | .noFileOrDirectory .. => return .error .notFound
    | .inappropriateType _ code _ =>
        return .error (if code = 21 then .isDirectory else .notDirectory)
    | e@(.invalidArgument _ code _) =>
        return .error (if code = -36 then .nameTooLong else .other (toString e))
    | e => return .error (.other (toString e))

/-- Checks the description named by the arguments. -/
def main (arguments : List String) : IO UInt32 := do
  let outcome ← run readDescriptionFile arguments
  IO.print outcome.stdout
  for line in outcome.log do
    IO.eprintln s!"{line.level.name} {line.source}: {line.text}"
  if let some failure := outcome.failure then
    IO.eprintln failure.message
  return outcome.exit.toUInt32
