import PixelBlocks.Coders.Standard
import PixelBlocks.Command.Run

/-!
# The command line tool

Carries out the plan of a request in the directory of the process. Everything that
is decided is decided by the plan; here files are read and written, and the report
is printed.
-/

namespace PixelBlocks.Command

/-- The cause of a failed file access, with its number where there is one. -/
def accessCause : IO.Error → String
  | .noFileOrDirectory _ _ _ => missingFile
  | .permissionDenied _ number details => details ++ " (os error " ++ toString number ++ ")"
  | .inappropriateType _ number details => details ++ " (os error " ++ toString number ++ ")"
  | .resourceExhausted _ number details => details ++ " (os error " ++ toString number ++ ")"
  | .invalidArgument _ number details => details ++ " (os error " ++ toString number ++ ")"
  | .otherError number details => details ++ " (os error " ++ toString number ++ ")"
  | other => toString other

/-- Reads a file, converts its content and writes another file. -/
def convertFile (input output : String) (conversion : Bytes → Result Bytes) : IO Report := do
  match ← (IO.FS.readBinFile input).toBaseIO with
  | .error error => return .failure (readingFailure input (accessCause error))
  | .ok content =>
    match conversion content.data.toList with
    | .error failure => return .failure failure
    | .ok converted =>
      match ← (IO.FS.writeBinFile output ⟨converted.toArray⟩).toBaseIO with
      | .error error => return .failure (writingFailure output (accessCause error))
      | .ok () => return .success ""

/-- Carries out a request. -/
def carryOut (request : Request) : IO Report := do
  match request.plan Coders.standard .inOrder with
  | .error failure => return .failure failure
  | .ok (.print text) => return .success text
  | .ok (.convert input output conversion) => convertFile input output conversion

/-- Runs the tool and prints its report. -/
def runProcess (arguments : List String) : IO UInt32 := do
  let report ← match readCommandLine arguments with
    | .error interruption => pure interruption.report
    | .ok request => carryOut request
  (← IO.getStdout).putStr report.output
  (← IO.getStderr).putStr report.errors
  return report.exitCode

end PixelBlocks.Command

/-- Runs the tool with the arguments of the process. -/
def main (arguments : List String) : IO UInt32 :=
  PixelBlocks.Command.runProcess arguments
