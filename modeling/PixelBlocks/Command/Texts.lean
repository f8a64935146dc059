import PixelBlocks.Command.Arguments
import PixelBlocks.Method.Catalogue

/-!
# Texts of the tool

The version, the help texts, and the descriptions of compression methods, all as
lines.
-/

namespace PixelBlocks.Command

/-- Lines, each with its end. -/
def lines (texts : List String) : String :=
  String.join (texts.map (· ++ "\n"))

/-- The name of the tool and its version. -/
def versionText : String := lines ["exrcodec 0.1.0"]

/-- Help on the tool as a whole. -/
def toolHelp : String :=
  lines [
    "Compress and decompress OpenEXR pixel blocks",
    "",
    "Usage: exrcodec <COMMAND>",
    "",
    "Commands:",
    "  list        Print all registered compression methods",
    "  info        Print the properties of a single compression method",
    "  compress    Compress raw scan lines into a sequence of size-prefixed blocks",
    "  decompress  Decompress a sequence of size-prefixed blocks into raw scan lines",
    "  help        Print this message or the help of the given subcommand(s)",
    "",
    "Options:",
    "  -h, --help     Print help",
    "  -V, --version  Print version"]

/-- Help on a subcommand that takes a layer, an input and an output. -/
def layerHelp (subcommand : Subcommand) (summary input output : String) : String :=
  lines [
    summary,
    "",
    "Usage: exrcodec " ++ subcommand.word ++ " [OPTIONS] --width <WIDTH> --height <HEIGHT> "
      ++ "--channel <CHANNELS> <INPUT> <OUTPUT>",
    "",
    "Arguments:",
    "  <INPUT>   " ++ input,
    "  <OUTPUT>  " ++ output,
    "",
    "Options:",
    "  -c, --codec <CODEC>            Compression method [default: zip]",
    "      --width <WIDTH>            Width of the layer in pixels",
    "      --height <HEIGHT>          Height of the layer in pixels",
    "      --channel <CHANNELS>       Channel as `name:type`, where type is `half`, `float` or "
      ++ "`uint`. Repeat for more channels",
    "      --zstd-level <ZSTD_LEVEL>  Zstd level between 1 and 9, stored in the layer instead "
      ++ "of the process default",
    "  -h, --help                     Print help"]

/-- Help on a subcommand. -/
def subcommandHelp (subcommand : Subcommand) : String :=
  match subcommand with
  | .list =>
    lines [
      "Print all registered compression methods",
      "",
      "Usage: exrcodec list",
      "",
      "Options:",
      "  -h, --help  Print help"]
  | .info =>
    lines [
      "Print the properties of a single compression method",
      "",
      "Usage: exrcodec info <NAME>",
      "",
      "Arguments:",
      "  <NAME>  Name of the compression method, for example `zip` or `zstd`",
      "",
      "Options:",
      "  -h, --help  Print help"]
  | .compress =>
    layerHelp .compress "Compress raw scan lines into a sequence of size-prefixed blocks"
      "Raw pixel data" "Destination of the compressed blocks"
  | .decompress =>
    layerHelp .decompress "Decompress a sequence of size-prefixed blocks into raw scan lines"
      "Compressed blocks, as written by `compress`" "Destination of the raw pixel data"

/-- Help on a topic. -/
def helpText (topic : Option Subcommand) : String :=
  topic.elim toolHelp subcommandHelp

/-- A text with blanks before it up to a width. -/
def padLeft (width : Nat) (text : String) : String :=
  String.ofList (List.replicate (width - text.length) ' ') ++ text

/-- A text with blanks behind it up to a width. -/
def padRight (width : Nat) (text : String) : String :=
  text ++ String.ofList (List.replicate (width - text.length) ' ')

/-- A method as one line of the list of methods. -/
def listLine (entry : CatalogueEntry) : String :=
  padLeft 2 (toString entry.number.toNat) ++ "  " ++ padRight 40 entry.title ++ "  "
    ++ padLeft 3 (toString entry.scanLines) ++ " lines"
    ++ (if entry.lossy then ", lossy" else "")
    ++ (if entry.deep then ", deep" else "")

/-- The list of all methods. -/
def listText : String := lines (Catalogue.entries.map listLine)

/-- A truth value as a word. -/
def truthText (value : Bool) : String := if value then "true" else "false"

/-- The sample types that a method keeps exactly, or a hyphen. -/
def losslessText (method : Method) : String :=
  let types := (SampleType.all.filter method.isLosslessFor).map SampleType.name
  if types.isEmpty then "-" else ", ".intercalate types

/-- The properties of a method. -/
def infoText (method : Method) : String :=
  lines [
    method.entry.title,
    "id: " ++ toString method.number.toNat,
    "scan lines per block: " ++ toString method.scanLines,
    "lossy: " ++ truthText method.isLossy,
    "deep data: " ++ truthText method.supportsDeep,
    "lossless for: " ++ losslessText method]

end PixelBlocks.Command
