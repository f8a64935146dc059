import PixelBlocks.Geometry.Pair

/-!
# Rectangles of pixels

A rectangle has a corner with signed 32-bit coordinates and a size of unsigned
64-bit numbers. Its opposite corner is not part of it. The opposite corner need
not exist as a pair of 32-bit numbers; every operation that needs it says so.
-/

namespace PixelBlocks

/-- A rectangle anywhere in the plane of pixels. -/
structure Rectangle where
  /-- The corner with the smallest coordinates. It is a pixel of the rectangle
      if the size is not zero. -/
  position : Pair Int32
  /-- The number of columns and of rows. -/
  size : Pair UInt64
  deriving DecidableEq, Repr, Inhabited

namespace Rectangle

/-- A rectangle that starts at the origin of the plane. -/
def ofSize (size : Pair UInt64) : Rectangle := ⟨⟨0, 0⟩, size⟩

/-- The sum of a coordinate and an extent, if it is a 32-bit number. -/
def shiftedBy (start extent : Int32) : Option Int32 :=
  let sum := start.toInt + extent.toInt
  if -0x80000000 ≤ sum ∧ sum < 0x80000000 then some (start + extent) else none

/-- The corner opposite to the position: the first column and row outside. -/
def opposite (rectangle : Rectangle) : Outcome (Pair Int32) := do
  let size ← rectangle.size.toInt32
  match shiftedBy rectangle.position.x size.x, shiftedBy rectangle.position.y size.y with
  | some x, some y => .ok ⟨x, y⟩
  | _, _ => .error (.invalid .windowLimit)

/-- Whether both corners of the inner rectangle lie within the corners of the
    outer one. -/
def contains (outer inner : Rectangle) : Outcome Bool := do
  let outerEnd ← outer.opposite
  let innerEnd ← inner.opposite
  return decide (outer.position.x ≤ inner.position.x)
    && decide (outer.position.y ≤ inner.position.y)
    && decide (innerEnd.x ≤ outerEnd.x)
    && decide (innerEnd.y ≤ outerEnd.y)

/-- Coordinates of acceptable rectangles lie strictly between this number and
    its negation. -/
def coordinateLimit : Int64 := 1073741823

/-- Whether one axis of a rectangle stays strictly between the limits. The sum
    of start and extent is a signed 64-bit word and wraps as such. -/
def axisIsWithinLimits (start : Int32) (extent : UInt64) : Bool :=
  decide (-coordinateLimit < start.toInt64)
    && decide (start.toInt64 + extent.toInt64 < coordinateLimit)

/-- Accepts rectangles that are not larger than the given size and stay within
    the coordinate limits. -/
def validate (rectangle : Rectangle) (largest : Option (Pair UInt64)) : Outcome Unit :=
  let tooLarge := match largest with
    | some size => decide (size.x < rectangle.size.x) || decide (size.y < rectangle.size.y)
    | none => false
  if tooLarge then .error (.invalid .sectionSize)
  else if axisIsWithinLimits rectangle.position.x rectangle.size.x
      && axisIsWithinLimits rectangle.position.y rectangle.size.y
  then .ok ()
  else .error (.invalid .windowLimit)

end Rectangle

end PixelBlocks
