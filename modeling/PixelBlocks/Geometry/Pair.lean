import PixelBlocks.Bytes
import PixelBlocks.Fault

/-!
# Pairs of coordinates

A pair holds a horizontal and a vertical quantity: a position, a size, or the
sampling factors of a channel. Arithmetic works on each axis separately and
wraps as the machine words do. A quotient exists if both of its parts do.
-/

namespace PixelBlocks

/-- A horizontal and a vertical quantity. -/
structure Pair (α : Type) where
  x : α
  y : α
  deriving DecidableEq, Repr, Inhabited

namespace Pair

/-- The pair of images under a function. -/
def map {α β : Type} (image : α → β) (pair : Pair α) : Pair β :=
  ⟨image pair.x, image pair.y⟩

/-- The area of a rectangle of this size. -/
def area {α : Type} [Mul α] (pair : Pair α) : α :=
  pair.x * pair.y

instance {α : Type} [Add α] : Add (Pair α) where
  add first second := ⟨first.x + second.x, first.y + second.y⟩

instance {α : Type} [Sub α] : Sub (Pair α) where
  sub first second := ⟨first.x - second.x, first.y - second.y⟩

/-- The quotients towards zero on both axes. Besides division by zero, the one
    quotient that leaves the machine word is refused. -/
def quotient (dividend divisor : Pair Int64) : Outcome (Pair Int64) :=
  let defined (top bottom : Int64) : Bool :=
    bottom != 0 && !(top == Int64.minValue && bottom == -1)
  if defined dividend.x divisor.x && defined dividend.y divisor.y
  then .ok ⟨dividend.x / divisor.x, dividend.y / divisor.y⟩
  else .error .divisionByZero

/-- The nearest pair without negative parts. -/
def clamped (pair : Pair Int64) : Pair Int64 :=
  pair.map (max 0)

/-- The size as signed 32-bit numbers. The horizontal part is checked first. -/
def toInt32 (size : Pair UInt64) : Outcome (Pair Int32) :=
  if 0x80000000 ≤ size.x.toNat then .error (.invalid .coordinateX)
  else if 0x80000000 ≤ size.y.toNat then .error (.invalid .coordinateY)
  else .ok ⟨Int32.ofNat size.x.toNat, Int32.ofNat size.y.toNat⟩

end Pair

end PixelBlocks
