import PageShell.Shape

/-!
# JSON numerals

A numeral without fraction and exponent that fits in 64 bits is an integer,
exactly. Every other numeral is a real number, and its value is found in two
steps: as many leading digits as fit in 64 bits become a number, which is then
multiplied or divided by a power of ten. Each step rounds, so the result can be
a neighbour of the number nearest to the decimal as written; a numeral whose
scaled value leaves the finite range is refused.

The rule is the contract of stored documents. It makes reading the inverse of
writing wherever the two steps are exact, as they are for whole numbers below
`2^49`, and not everywhere else.
-/

namespace PageShell

/-- The value of a JSON numeral. -/
inductive Numeral where
  /-- A natural number below `2^64`. -/
  | natural (n : Nat)
  /-- The negative of a positive number up to `2^63`. -/
  | negative (n : Nat)
  | real (x : Number)
deriving DecidableEq

namespace Numeral

/-- The number nearest to the numeral's value. -/
def toNumber : Numeral → Number
  | .natural n => Number.ofNat n
  | .negative n => (Number.ofNat n).neg
  | .real x => x

/-- The numeral as it is named in a complaint. -/
def found : Numeral → Found
  | .natural n => .integer n
  | .negative n => .integer (-n)
  | .real x => .real Number.stored x

/-- A numeral as written: its digits before and after the point and its
exponent. -/
structure Literal where
  isNegative : Bool
  whole : List Nat
  fraction : Option (List Nat)
  exponent : Option Int

/-- Natural numbers are below this: `2^64`. -/
def naturalLimit : Nat := 18446744073709551616

/-- Negative integers are at most this far below zero: `2^63`. -/
def negativeLimit : Nat := 9223372036854775808

/-- Reads digits into a number for as long as it stays below `naturalLimit`;
answers the number and the digits left out. -/
def absorb : Nat → List Nat → Nat × List Nat
  | n, [] => (n, [])
  | n, d :: ds =>
    if n * 10 + d < naturalLimit then absorb (n * 10 + d) ds else (n, d :: ds)

/-- Divides by `10^k`, a power of ten that is itself a finite number at a
time. -/
def shrink (x : Number) (k : Nat) : Number :=
  if k ≤ 308 then x.div (Number.powerOfTen k)
  else if x.isZero then x
  else shrink (x.div (Number.powerOfTen 308)) (k - 308)
termination_by k

/-- The number `digits · 10^exponent`, scaled after the digits are rounded;
nothing when the result is out of range. -/
def scale (digits : Nat) (exponent : Int) : Option Number :=
  let x := Number.ofNat digits
  if exponent < 0 then
    some (shrink x exponent.natAbs)
  else if exponent ≤ 308 then
    let y := x.mul (Number.powerOfTen exponent.toNat)
    if y.isFinite then some y else none
  else if x.isZero then
    some x
  else
    none

/-- The value of a numeral written as an integer that fits in 64 bits. -/
def ofDigits (isNegative : Bool) (n : Nat) : Numeral :=
  if !isNegative then .natural n
  else if 0 < n ∧ n ≤ negativeLimit then .negative n
  else .real (Number.ofNat n).neg

/-- The value of a numeral, unless it is out of range. -/
def Literal.value? (literal : Literal) : Option Numeral :=
  let (n, rest) := absorb 0 literal.whole
  match literal.fraction, literal.exponent, rest with
  | none, none, [] => some (ofDigits literal.isNegative n)
  | fraction, exponent, rest =>
    let places := fraction.getD []
    let (n, dropped) := absorb n places
    let e := (rest.length : Int) - (places.length - dropped.length : Int) +
      exponent.getD 0
    (scale n e).map fun x => .real (if literal.isNegative then x.neg else x)

example :
    Literal.value? ⟨true, [0], none, none⟩ = some (.real Number.zero.neg) := by
  decide +kernel
example : Literal.value? ⟨false, [1], none, some 400⟩ = none := by
  decide +kernel

end Numeral

end PageShell
