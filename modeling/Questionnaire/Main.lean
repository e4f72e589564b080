import Questionnaire.CommandLine.Run

/-! The program itself: files are those of the system, results go to the standard output and
failures to the standard error. -/
namespace Questionnaire

/-- The reason for which the system refuses a file. -/
def FileError.ofSystem : IO.Error → FileError
  | .noFileOrDirectory _ _ _ => .notFound
  | .inappropriateType _ _ _ => .notDirectory
  | error => .other error.toString

/-- Runs an action on files of the system. -/
def onSystemFiles {α : Type} (action : IO α) : IO (Except FileError α) := do
  try
    return .ok (← action)
  catch error =>
    return .error (.ofSystem error)

instance : FileAccess IO where
  read path := onSystemFiles (IO.FS.readBinFile path)
  makeDirectories path := onSystemFiles (IO.FS.createDirAll path)
  write path content := onSystemFiles (IO.FS.writeBinFile path content)

end Questionnaire

open Questionnaire CommandLine in
/-- Runs the program. -/
def main (arguments : List String) : IO UInt32 := do
  let outcome : Outcome ← run arguments
  IO.print outcome.output
  if let some failure := outcome.failure then
    IO.eprintln s!"Error: {failure.message}"
  return outcome.exitCode.toUInt32
