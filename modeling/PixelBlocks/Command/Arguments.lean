import PixelBlocks.Layer

/-!
# Arguments of the tool

The first argument that is not an option names a subcommand, and each subcommand has
options and positional arguments of its own. Arguments are read from left to right;
the first mistake, or the first request for help, decides. An option takes its value
from the same argument or from the next one, which then may not look like an option.
-/

namespace PixelBlocks.Command

/-- Which layer the command line describes. -/
structure LayerArguments where
  codec : String
  width : Nat
  height : Nat
  channels : List String
  zstdLevel : Option UInt8
  deriving DecidableEq, Repr

/-- What the tool is asked to do. -/
inductive Request
  | list
  | info (name : String)
  | compress (layer : LayerArguments) (input : String) (output : String)
  | decompress (layer : LayerArguments) (input : String) (output : String)
  deriving DecidableEq, Repr

/-- The subcommands of the tool. -/
inductive Subcommand
  | list
  | info
  | compress
  | decompress
  deriving DecidableEq, Repr

namespace Subcommand

/-- All subcommands. -/
def all : List Subcommand := [list, info, compress, decompress]

/-- The word that selects a subcommand. -/
def word : Subcommand → String
  | list => "list"
  | info => "info"
  | compress => "compress"
  | decompress => "decompress"

/-- The subcommand that a word selects. -/
def ofWord? (word : String) : Option Subcommand :=
  all.find? fun subcommand => subcommand.word == word

/-- How many positional arguments a subcommand needs. -/
def positionals : Subcommand → Nat
  | list => 0
  | info => 1
  | compress | decompress => 2

/-- Whether a subcommand has the options that describe a layer. -/
def describesLayer : Subcommand → Bool
  | list | info => false
  | compress | decompress => true

end Subcommand

/-- How reading arguments can end early. -/
inductive Interruption
  /-- An argument is not acceptable. -/
  | rejected
  /-- Help on the tool or on a subcommand was asked for. -/
  | help (topic : Option Subcommand)
  /-- The version was asked for. -/
  | version
  deriving DecidableEq, Repr

/-- The options that take a value. -/
inductive ValueOption
  | codec
  | width
  | height
  | channel
  | zstdLevel
  deriving DecidableEq, Repr

namespace ValueOption

/-- The option with a long name. -/
def ofLong? (name : String) : Option ValueOption :=
  if name == "codec" then some codec
  else if name == "width" then some width
  else if name == "height" then some height
  else if name == "channel" then some channel
  else if name == "zstd-level" then some zstdLevel
  else none

end ValueOption

/-- What was read so far. -/
structure Reading where
  codec : Option String
  width : Option Nat
  height : Option Nat
  channels : List String
  zstdLevel : Option UInt8
  positionals : List String
  deriving DecidableEq, Repr

namespace Reading

/-- Nothing read. -/
def empty : Reading := ⟨none, none, none, [], none, []⟩

end Reading

/-- The number that digits spell, if there are digits and nothing else. -/
def digitsValue? (digits : List Char) : Option Nat :=
  if digits.isEmpty ∨ ¬ digits.all Char.isDigit then none
  else some (digits.foldl (fun number digit => number * 10 + (digit.toNat - 48)) 0)

/-- A number of pixels: digits after an optional plus sign, below `2 ^ 64`. -/
def readSize? (text : String) : Option Nat := do
  let digits := match text.toList with
    | '+' :: rest => rest
    | characters => characters
  let number ← digitsValue? digits
  if number < Size.bound then return number else none

/-- A level between 0 and 255: digits after an optional sign. -/
def readLevel? (text : String) : Option UInt8 := do
  let (negative, digits) := match text.toList with
    | '+' :: rest => (false, rest)
    | '-' :: rest => (true, rest)
    | characters => (false, characters)
  let number ← digitsValue? digits
  if number < 256 ∧ (¬ negative ∨ number = 0) then return number.toUInt8 else none

/-- Takes a value that may be given only once. -/
def once {α : Type} (present : Option α) (value : Option α) : Except Interruption (Option α) :=
  match present, value with
  | none, some value => .ok (some value)
  | _, _ => .error .rejected

/-- Takes the value of an option. -/
def Reading.take (reading : Reading) (option : ValueOption) (value : String) :
    Except Interruption Reading :=
  match option with
  | .codec => do
    let codec ← once reading.codec (some value)
    return { reading with codec }
  | .width => do
    let width ← once reading.width (readSize? value)
    return { reading with width }
  | .height => do
    let height ← once reading.height (readSize? value)
    return { reading with height }
  | .channel => .ok { reading with channels := reading.channels ++ [value] }
  | .zstdLevel => do
    let zstdLevel ← once reading.zstdLevel (readLevel? value)
    return { reading with zstdLevel }

/-- Takes a positional argument. There may not be too many, and names of files may
    not be empty. -/
def Reading.takePositional (reading : Reading) (subcommand : Subcommand) (value : String) :
    Except Interruption Reading :=
  if subcommand.positionals ≤ reading.positionals.length
      ∨ (subcommand.describesLayer ∧ value.isEmpty) then .error .rejected
  else .ok { reading with positionals := reading.positionals ++ [value] }

/-- How an argument looks. -/
inductive Shape
  /-- Two hyphens alone: everything behind them is positional. -/
  | separator
  /-- Two hyphens, a name, and perhaps a value behind an equals sign. -/
  | long (name : String) (value : Option String)
  /-- One hyphen and the rest of a group of letters. -/
  | short (letters : List Char)
  | plain (value : String)
  deriving DecidableEq, Repr

/-- Splits a long option at its first equals sign. -/
def splitValue (characters : List Char) : Shape :=
  let name := characters.takeWhile (· != '=')
  match characters.drop name.length with
  | [] => .long (String.ofList name) none
  | _ :: value => .long (String.ofList name) (some (String.ofList value))

/-- The shape of an argument. A single hyphen is a plain value. -/
def shapeOf (argument : String) : Shape :=
  match argument.toList with
  | ['-', '-'] => .separator
  | '-' :: '-' :: rest => splitValue rest
  | '-' :: first :: rest => .short (first :: rest)
  | _ => .plain argument

/-- What an argument does to the reading. -/
inductive Effect
  | reading (reading : Reading)
  /-- The next argument is the value of an option. -/
  | awaiting (option : ValueOption)

/-- Reads a long option of a subcommand. -/
def readLong (subcommand : Subcommand) (reading : Reading) (name : String)
    (value : Option String) : Except Interruption Effect :=
  if name == "help" then
    if value.isNone then .error (.help subcommand) else .error .rejected
  else if ¬ subcommand.describesLayer then .error .rejected
  else
    match ValueOption.ofLong? name, value with
    | none, _ => .error .rejected
    | some option, none => .ok (.awaiting option)
    | some option, some value => do
      let reading ← reading.take option value
      return .reading reading

/-- Reads a group of letters of a subcommand. Only `-c` takes a value. -/
def readShort (subcommand : Subcommand) (reading : Reading) (letters : List Char) :
    Except Interruption Effect :=
  match letters with
  | 'h' :: _ => .error (.help subcommand)
  | 'c' :: rest =>
    if ¬ subcommand.describesLayer then .error .rejected
    else
      match rest with
      | [] => .ok (.awaiting .codec)
      | '=' :: value => do
        let reading ← reading.take .codec (String.ofList value)
        return .reading reading
      | value => do
        let reading ← reading.take .codec (String.ofList value)
        return .reading reading
  | _ => .error .rejected

/-- Reads arguments that are all positional. -/
def readPositionals (subcommand : Subcommand) : Reading → List String →
    Except Interruption Reading
  | reading, [] => .ok reading
  | reading, argument :: rest => do
    let reading ← reading.takePositional subcommand argument
    readPositionals subcommand reading rest

/-- Reads the arguments of a subcommand. -/
def readArguments (subcommand : Subcommand) : Reading → List String →
    Except Interruption Reading
  | reading, [] => .ok reading
  | reading, argument :: rest => do
    let effect ← match shapeOf argument with
      | .separator =>
        return ← readPositionals subcommand reading rest
      | .long name value => readLong subcommand reading name value
      | .short letters => readShort subcommand reading letters
      | .plain value => Effect.reading <$> reading.takePositional subcommand value
    match effect, rest with
    | .reading reading, rest => readArguments subcommand reading rest
    | .awaiting _, [] => .error .rejected
    | .awaiting option, value :: rest =>
      match shapeOf value with
      | .plain value => do
        let reading ← reading.take option value
        readArguments subcommand reading rest
      | _ => .error .rejected

/-- The layer that was described, if nothing is missing. -/
def Reading.layer (reading : Reading) : Except Interruption LayerArguments :=
  match reading.width, reading.height, reading.channels with
  | some width, some height, channel :: channels =>
    .ok ⟨reading.codec.getD "zip", width, height, channel :: channels, reading.zstdLevel⟩
  | _, _, _ => .error .rejected

/-- The request of a subcommand, if nothing is missing. -/
def Reading.request (reading : Reading) (subcommand : Subcommand) :
    Except Interruption Request :=
  match subcommand, reading.positionals with
  | .list, [] => .ok .list
  | .info, [name] => .ok (.info name)
  | .compress, [input, output] => do
    let layer ← reading.layer
    return .compress layer input output
  | .decompress, [input, output] => do
    let layer ← reading.layer
    return .decompress layer input output
  | _, _ => .error .rejected

/-- Reads what follows the word `help`. -/
def readHelp : List String → Interruption
  | [] => .help none
  | [topic] =>
    match Subcommand.ofWord? topic with
    | some subcommand => .help subcommand
    | none => .rejected
  | _ => .rejected

/-- Reads all arguments of the tool. -/
def readCommandLine : List String → Except Interruption Request
  | [] => .error .rejected
  | first :: rest =>
    match shapeOf first with
    | .plain word =>
      if word == "help" then .error (readHelp rest)
      else
        match Subcommand.ofWord? word with
        | none => .error .rejected
        | some subcommand => do
          let reading ← readArguments subcommand .empty rest
          reading.request subcommand
    | .long name none =>
      if name == "help" then .error (.help none)
      else if name == "version" then .error .version
      else .error .rejected
    | .short (letter :: _) =>
      if letter == 'h' then .error (.help none)
      else if letter == 'V' then .error .version
      else .error .rejected
    | _ => .error .rejected

end PixelBlocks.Command
