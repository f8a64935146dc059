/-!
# Channel names

A channel name is a string of single-byte characters. It is made from a text by
putting a question mark in place of each character outside ASCII. Names are
ordered byte by byte, and a proper beginning comes before the longer name.
-/

namespace PixelBlocks

/-- A channel name. -/
structure Name where
  bytes : List UInt8
  deriving DecidableEq, Repr, Inhabited

namespace Name

/-- The byte of a character, which is a question mark outside ASCII. -/
def byteOf (character : Char) : UInt8 :=
  if character.toNat < 128 then character.toNat.toUInt8 else 63

/-- The name spelled by a text. -/
def ofString (text : String) : Name :=
  ⟨text.toList.map byteOf⟩

/-- The text of a name, one character for each byte. -/
def toString (name : Name) : String :=
  String.ofList (name.bytes.map fun byte => Char.ofNat byte.toNat)

/-- The name between quotes that are not escaped, for diagnostics. -/
def debugText (name : Name) : String :=
  "Text(\"" ++ name.toString ++ "\")"

/-- Byte strings in lexicographic order. -/
def compareBytes : List UInt8 → List UInt8 → Ordering
  | [], [] => .eq
  | [], _ :: _ => .lt
  | _ :: _, [] => .gt
  | first :: restFirst, second :: restSecond =>
    if first < second then .lt
    else if second < first then .gt
    else compareBytes restFirst restSecond

/-- The order of channel names in a channel list. -/
def compare (first second : Name) : Ordering :=
  compareBytes first.bytes second.bytes

end Name

end PixelBlocks
