import PixelBlocks.Single

/-!
# Shortest decimal text

The text of a finite number has the fewest digits that read back as the same
number, written without an exponent. Among the decimals of that length the one
nearest to the number wins, and a tie goes upwards. All comparisons are exact:
a magnitude and the two ends of the interval that rounds to it are natural
numbers in quarters of the last significand bit.
-/

namespace PixelBlocks.Single

/-- A positive decimal `digits * 10 ^ power`. -/
structure Decimal where
  digits : Nat
  power : Int

/-- The numerator of `2 ^ binary * 10 ^ (-decimal)`. -/
private def scaleUp (binary decimal : Int) : Nat :=
  Nat.pow 2 binary.toNat * Nat.pow 10 (-decimal).toNat

/-- The denominator of `2 ^ binary * 10 ^ (-decimal)`. -/
private def scaleDown (binary decimal : Int) : Nat :=
  Nat.pow 2 (-binary).toNat * Nat.pow 10 decimal.toNat

/-- The lower end of the interval that rounds to the number, in quarters of its
    last bit. Below a power of two the neighbour is only half as far away. -/
def lowerQuarters (number : Single) : Nat :=
  if number.fraction = 0 ∧ 1 < number.exponentField
  then 4 * number.significand - 1
  else 4 * number.significand - 2

/-- The decimal of the given power that reads back as the number, if there is
    one: of the two neighbours on that decimal grid the nearer one. -/
def decimalAt? (number : Single) (power : Int) : Option Decimal :=
  let up := scaleUp (number.scale - 2) power
  let down := scaleDown (number.scale - 2) power
  let target := 4 * number.significand * up
  let below := target / down
  let closed := number.significand % 2 = 0
  let lower := number.lowerQuarters * up
  let upper := (4 * number.significand + 2) * up
  let belowFits := if closed then lower ≤ below * down else lower < below * down
  let aboveFits := if closed then (below + 1) * down ≤ upper else (below + 1) * down < upper
  let aboveNearer := (2 * below + 1) * down ≤ 2 * target
  if aboveFits ∧ (¬ belowFits ∨ aboveNearer) then some ⟨below + 1, power⟩
  else if belowFits then some ⟨below, power⟩
  else none

/-- The first power at which a decimal reads back, searching downwards. -/
def searchDecimal (number : Single) : Nat → Int → Decimal
  | 0, power => ⟨0, power⟩
  | steps + 1, power =>
    match number.decimalAt? power with
    | some decimal => decimal
    | none => searchDecimal number steps (power - 1)

/-- Positional digits of a decimal, with a point only before a non-empty
    fraction. -/
def Decimal.text (decimal : Decimal) : String :=
  let digits := Nat.toDigits 10 decimal.digits
  if 0 ≤ decimal.power then
    String.ofList (digits ++ List.replicate decimal.power.toNat '0')
  else
    let places := (-decimal.power).toNat
    let padded := List.replicate (places + 1 - digits.length) '0' ++ digits
    let whole := padded.length - places
    String.ofList (padded.take whole ++ ['.'] ++ padded.drop whole)

/-- The text of a magnitude: `0`, `inf`, or the shortest decimal. The largest
    number is below `10 ^ 39` and 200 powers reach below the smallest one. -/
def magnitudeText (number : Single) : String :=
  if ¬ number.isFinite then "inf"
  else if number.isZero then "0"
  else (searchDecimal number 200 39).text

/-- The decimal text of a number, with a minus sign for set sign bits. -/
def text (number : Single) : String :=
  if number.isNaN then "NaN"
  else if number.negative then "-" ++ number.magnitudeText
  else number.magnitudeText

end PixelBlocks.Single
