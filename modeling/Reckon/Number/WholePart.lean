import Reckon.Number.Double

/-!
Whole parts of doubles: dropping the fraction, the fraction itself, rounding to a whole number
with halves going away from zero, the remainder of a division of whole parts, and the whole part
as an integer between two bounds. All but the fraction are found on natural numbers and come out
as doubles unrounded; a zero keeps the sign of the number it comes from.
-/

namespace Reckon.WholePart

def size (x : Float) : Nat :=
  Double.magnitude x >>> 1074

def truncate (x : Float) : Float :=
  if x.isFinite then Double.withSign (Double.isNegative x) (Double.nearest (size x) 1) else x

/-- An infinity has no fraction: the difference is NaN. -/
def fraction (x : Float) : Float :=
  x - truncate x

def roundHalfAway (x : Float) : Float :=
  if x.isFinite then
    let rounded := (2 * Double.magnitude x + 1 <<< 1074) >>> 1075
    Double.withSign (Double.isNegative x) (Double.nearest rounded 1)
  else x

def remainder (x y : Float) : Float :=
  if !x.isFinite || y.isNaN then Double.notANumber
  else if !y.isFinite then truncate x
  else if size y = 0 then Double.notANumber
  else Double.withSign (Double.isNegative x) (Double.nearest (size x % size y) 1)

/-- The whole part between two bounds, which infinities reach; NaN counts as 0. -/
def clamped (low high : Int) (x : Float) : Int :=
  if x.isNaN then 0
  else if x.isFinite then
    max low (min high (if Double.isNegative x then -(size x : Int) else size x))
  else if Double.isNegative x then low
  else high

end Reckon.WholePart
