import FrontEnd.CommandLine

/-!
# The program

Reads the file that the command line names and prints what it asks for.
-/

namespace FrontEnd.CommandLine

/-- Reads a file, if it is one. -/
def readInput (path : String) : IO (Option ByteArray) := do
  try
    return some (← IO.FS.readBinFile path)
  catch _ =>
    return none

/-- How a run with these arguments ends. -/
def runWith (args : List String) : IO Exit := do
  match Request.ofArguments? args with
  | none => return usage
  | some request => return request.execute (← readInput request.input)

end FrontEnd.CommandLine

/-- Prints the output and the complaints of a run, and ends with its exit code. -/
def main (args : List String) : IO UInt32 := do
  let exit ← FrontEnd.CommandLine.runWith args
  IO.print exit.output
  exit.complaints.forM IO.eprintln
  return exit.code.toUInt32
