import PageShell.Number.Rounding

/-!
# Numbers as whole numbers of 32 bits

Conversion to a whole number of 32 bits gives one for every number: the fraction
is dropped, what is then outside of the range becomes the nearer end of it, and
what is no number becomes zero (`toUInt32`). A number is therefore tested before
it is converted. Its fraction is compared with zero, and the number itself with
both ends of the range, and these are comparisons of numbers: there are two
zeros and they are equal, and what is no number compares with nothing.
-/

namespace PageShell.Number

/-- What is left of the number without its whole part, with its sign; nothing
that is a number, if it is not finite. -/
def fract (x : Number) : Number :=
  let rest := x.units % unitsPerOne
  if x.isFinite then ofUnits (x.negative && rest != 0) rest 1 else notANumber

/-- The place of the number in the order of numbers: magnitudes are in the order
of their sizes. -/
def place (x : Number) : Int :=
  if x.negative then -(x.magnitude.val : Int) else x.magnitude.val

/-- Whether the number is at most the other one; what is no number is never. -/
def le (x y : Number) : Bool := !x.isNaN && !y.isNaN && x.place ≤ y.place

/-- The finite number without its fraction. -/
def towardZero (x : Number) : Int :=
  if x.negative then -(x.wholePart : Int) else x.wholePart

/-- The number converted to a whole number of 32 bits, the nearer end of the
range if it is outside of it. -/
def toUInt32 (x : Number) : Nat :=
  if x.isNaN then 0
  else if x.isInfinite then if x.negative then 0 else maxUInt32
  else (max 0 (min x.towardZero maxUInt32)).toNat

/-- Whether the number has no fraction and is in the range of the whole numbers
of 32 bits. -/
def fitsUInt32 (x : Number) : Bool :=
  x.fract.isZero && zero.le x && x.le (ofNat maxUInt32)

/-- The value as a whole number of 32 bits, when it is one; both zeros are
zero. -/
def toUInt32? (x : Number) : Option Nat :=
  if x.fitsUInt32 then some x.toUInt32 else none

example : (ofDecimal true 15 (-1)).towardZero = -1 := by decide +kernel
example : (ofDecimal true 15 (-1)).toUInt32 = 0 := by decide +kernel
example : (ofDecimal false 42949672955 (-1)).toUInt32 = 4294967295 := by
  decide +kernel
example : (infinity false).toUInt32 = 4294967295 := by decide +kernel
example : (ofDecimal false 42949672955 (-1)).toUInt32? = none := by
  decide +kernel
example : (ofNat 4294967295).toUInt32? = some 4294967295 := by decide +kernel

end PageShell.Number
