/-!
# Quoted file names

Messages show file names between double quotes. Quotes, backslashes and control
characters are escaped.
-/

namespace PixelBlocks.Command

/-- The code of a control character in the lowest hexadecimal digits. -/
def hexadecimal (code : Nat) : List Char := Nat.toDigits 16 code

/-- Whether a character has no picture of its own: controls of ASCII and Latin-1. -/
def isControl (character : Char) : Bool :=
  decide (character.toNat < 32) || (decide (127 ≤ character.toNat) && decide (character.toNat < 160))

/-- A character as it is shown between quotes. -/
def escape (character : Char) : List Char :=
  if character = '\x00' then ['\\', '0']
  else if character = '\t' then ['\\', 't']
  else if character = '\n' then ['\\', 'n']
  else if character = '\r' then ['\\', 'r']
  else if character = '"' ∨ character = '\'' ∨ character = '\\' then ['\\', character]
  else if isControl character then
    ['\\', 'u', '\x7b'] ++ hexadecimal character.toNat ++ ['\x7d']
  else [character]

/-- A file name as it is shown in messages. -/
def quoted (name : String) : String :=
  String.ofList ('"' :: name.toList.flatMap escape ++ ['"'])

end PixelBlocks.Command
