import PageShell.Number.Basic

/-!
# The nearest number

One function rounds: `nearestCode` takes a size as a fraction of units and
answers the magnitude nearest to it, a tie going to the even one. Whole numbers,
decimals, products and quotients are all that function at an exact fraction, so
each of them is rounded once and only once.

The shift is the whole of it: sizes below `2^53` units are kept to the unit, and
above that just enough low bits are given up for 53 to remain. A rounding that
carries into the next power of two needs no case of its own, because magnitudes
are consecutive across that border.
-/

namespace PageShell.Number

/-- The whole number nearest to `num / den`, the even one when two are equally
near. -/
def roundHalfEven (num den : Nat) : Nat :=
  let q := num / den
  let r := num % den
  if 2 * r < den then q
  else if den < 2 * r then q + 1
  else q + q % 2

/-- The magnitude nearest to `num / den` units; it may lie past infinity. -/
def nearestCode (num den : Nat) : Nat :=
  let shift := Nat.log2 (num / den) - 52
  shift * binade + roundHalfEven num (den * Nat.pow 2 shift)

/-- The number nearest to `num / den` units. -/
def ofUnits (negative : Bool) (num den : Nat) : Number :=
  ofCode negative (nearestCode num den)

/-- The number nearest to a natural number. -/
def ofNat (n : Nat) : Number := ofUnits false (n * unitsPerOne) 1

/-- The number nearest to an integer; zero is the positive one. -/
def ofInt (i : Int) : Number := (ofNat i.natAbs).withSign (i < 0)

/-- The number nearest to the decimal `digits · 10^exponent`. -/
def ofDecimal (negative : Bool) (digits : Nat) (exponent : Int) : Number :=
  if 0 ≤ exponent then
    ofUnits negative (digits * Nat.pow 10 exponent.toNat * unitsPerOne) 1
  else
    ofUnits negative (digits * unitsPerOne) (Nat.pow 10 (-exponent).toNat)

/-- The same for decimals of any size, such as texts can hold: the powers of ten
that cannot matter any more are not computed. -/
def ofAnyDecimal (negative : Bool) (digits : Nat) (exponent : Int) : Number :=
  if digits = 0 then ofCode negative 0
  else if 310 < exponent then infinity negative
  else if (Nat.log2 digits : Int) + 1 + exponent < -330 then ofCode negative 0
  else ofDecimal negative digits exponent

/-- The product of two finite numbers, rounded once. -/
def mul (x y : Number) : Number :=
  ofUnits (x.negative != y.negative) (x.units * y.units) unitsPerOne

/-- The quotient of a finite number by a finite number other than zero, rounded
once. -/
def div (x y : Number) : Number :=
  ofUnits (x.negative != y.negative) (x.units * unitsPerOne) y.units

/-- The number nearest to a power of ten. -/
def powerOfTen (n : Nat) : Number := ofNat (Nat.pow 10 n)

example : (ofNat 1).magnitude.val = 1023 * binade := by decide +kernel
example : ofNat 9007199254740993 = ofNat 9007199254740992 := by decide +kernel
example : (ofNat 9007199254740995).wholePart = 9007199254740996 := by
  decide +kernel
example : (ofDecimal false 1 309).isInfinite = true := by decide +kernel
example : (ofDecimal false 5 (-324)).units = 1 := by decide +kernel

end PageShell.Number
