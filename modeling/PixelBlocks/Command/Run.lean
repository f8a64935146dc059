import PixelBlocks.Command.Files

/-!
# Running the tool

A request either prints a text, or reads one file, converts it and writes another.
What happens to files is described here as a plan, so that the same plan can be
carried out on a real directory or on one that is only a list of files.
-/

namespace PixelBlocks.Command

/-- What a request comes to. -/
inductive Plan
  | print (text : String)
  | convert (input : String) (output : String) (conversion : Bytes → Result Bytes)

/-- The plan of a request. -/
def Request.plan (coders : Coders) (schedule : Schedule) : Request → Result Plan
  | .list => .ok (.print listText)
  | .info name =>
    match Catalogue.byName? name with
    | none =>
      .error (.ofMessage
        (ConfigurationFault.unknownMethodName name (Catalogue.names ", ")).message)
    | some entry => do
      let method ← Result.ofOutcome (Method.ofNumber entry.number)
      return .print (infoText method)
  | .compress arguments input output => do
    let layer ← arguments.layer
    return .convert input output (compressFile coders schedule layer input)
  | .decompress arguments input output => do
    let layer ← arguments.layer
    return .convert input output (decompressFile coders schedule layer)

/-- The failure to read a file. -/
def readingFailure (name cause : String) : Failure :=
  ⟨"reading " ++ quoted name, some cause⟩

/-- The failure to write a file. -/
def writingFailure (name cause : String) : Failure :=
  ⟨"writing " ++ quoted name, some cause⟩

/-- The cause of failing to read a file that does not exist. -/
def missingFile : String := "No such file or directory (os error 2)"

/-- What the tool leaves behind: its exit code and what it printed. -/
structure Report where
  exitCode : UInt32
  output : String
  errors : String
  deriving DecidableEq, Repr

namespace Report

/-- A report of success. -/
def success (output : String) : Report := ⟨0, output, ""⟩

/-- A report of a failed request. -/
def failure (failure : Failure) : Report := ⟨1, "", failure.text⟩

end Report

/-- The report on arguments that make no request. -/
def Interruption.report : Interruption → Report
  | .rejected => ⟨2, "", "error: the arguments were not accepted\n"⟩
  | .help topic => .success (helpText topic)
  | .version => .success versionText

/-- Files by their names. -/
abbrev Directory := List (String × Bytes)

namespace Directory

/-- The directory with a file written. -/
def write (directory : Directory) (name : String) (content : Bytes) : Directory :=
  (name, content) :: directory.filter (·.1 != name)

end Directory

/-- Carries out a plan in a directory. -/
def Plan.runIn (directory : Directory) : Plan → Report × Directory
  | .print text => (.success text, directory)
  | .convert input output conversion =>
    match directory.lookup input with
    | none => (.failure (readingFailure input missingFile), directory)
    | some content =>
      match conversion content with
      | .error failure => (.failure failure, directory)
      | .ok converted => (.success "", directory.write output converted)

/-- Runs the tool with arguments in a directory. -/
def runIn (coders : Coders) (schedule : Schedule) (directory : Directory)
    (arguments : List String) : Report × Directory :=
  match readCommandLine arguments with
  | .error interruption => (interruption.report, directory)
  | .ok request =>
    match request.plan coders schedule with
    | .error failure => (.failure failure, directory)
    | .ok plan => plan.runIn directory

end PixelBlocks.Command
