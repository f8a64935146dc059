import PixelBlocks.Bytes

/-!
# Separation of bytes

Bytes at even places come first, followed by those at odd places. For samples of
two bytes this puts all low bytes before all high bytes. Interleaving undoes it;
of an odd number of bytes the first part has one more.
-/

namespace PixelBlocks.Separation

/-- The bytes at even places. -/
def everyOther : Bytes → Bytes
  | first :: _ :: rest => first :: everyOther rest
  | [last] => [last]
  | [] => []

/-- The bytes at even places, then the bytes at odd places. -/
def separate (bytes : Bytes) : Bytes :=
  everyOther bytes ++ everyOther (bytes.drop 1)

/-- Takes one byte from each list in turn, as long as the first list lasts. -/
def alternate : Bytes → Bytes → Bytes
  | [], _ => []
  | even :: restEven, [] => even :: alternate restEven []
  | even :: restEven, odd :: restOdd => even :: odd :: alternate restEven restOdd

/-- Puts the bytes of the second half between those of the first half. -/
def interleave (separated : Bytes) : Bytes :=
  let half := (separated.length + 1) / 2
  alternate (separated.take half) (separated.drop half)

-- Odd lengths keep their last byte with the even places.
example : separate [0, 1, 2, 3, 4] = [0, 2, 4, 1, 3] := by decide

end PixelBlocks.Separation
