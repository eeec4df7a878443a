import Polyphony.CommandLine.Run

/-!
# The program

Runs the command line, with the functions of libraries that it is given: shows its
report, writes the file that the run asks for, says how that went and ends with the
status of the run.
-/

namespace Polyphony
namespace CommandLine

/-- What the user is told about a file that cannot be written. -/
def reasonOf : IO.Error → String
  | .noFileOrDirectory _ code details => details ++ " (os error " ++ toString code ++ ")"
  | .noSuchThing _ code details => details ++ " (os error " ++ toString code ++ ")"
  | .inappropriateType none code details => details ++ " (os error " ++ toString code ++ ")"
  | .inappropriateType (some _) code details =>
    details ++ " (os error " ++ toString code ++ ")"
  | .permissionDenied _ code details => details ++ " (os error " ++ toString code ++ ")"
  | .invalidArgument _ code details => details ++ " (os error " ++ toString code ++ ")"
  | .resourceExhausted _ code details => details ++ " (os error " ++ toString code ++ ")"
  | e => toString e

/-- Writes the file of a report. -/
def writeExport (file : Export) : IO (Except String Unit) :=
  try
    let h ← IO.FS.Handle.mk file.path .write
    h.putStr file.text
    h.flush
    return .ok ()
  catch e =>
    return .error (reasonOf e)

/-- Shows what a report has to say. -/
def display (r : Report) : IO Unit := do
  for line in r.errors do
    IO.eprintln line
  for line in r.output do
    IO.println line

/-- Runs the command line with the arguments of the program. -/
def runProgram (library : Library) (args : List String) : IO UInt32 := do
  let report := run library args
  display report
  match report.exported with
  | none => return UInt32.ofNat report.status
  | some file =>
    let ending := file.ending (← writeExport file)
    display ending
    return UInt32.ofNat ending.status

end CommandLine
end Polyphony
