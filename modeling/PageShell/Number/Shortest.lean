import PageShell.Number.Rounding

/-!
# The shortest decimal that reads back

A number is written with the fewest digits from which rounding to the nearest
number gives it back, and of the decimals with that many digits with the one
nearest to it. `shortest` looks for it on one decimal grid after another, from
coarse to fine: on each it tries the two neighbours of the exact value, because
a grid that has any point that reads back has one of those two. The first grid
with a hit has the fewest digits. Seventeen digits always suffice, so a few more
steps than that end every search.

Two points of one grid can be equally near; what then happens is left to the
format (`Tie`).
-/

namespace PageShell.Number

/-- Which of two equally near decimals is written. -/
inductive Tie where
  /-- The one whose last digit is even. -/
  | toEven
  /-- The greater one. -/
  | up
deriving DecidableEq

/-- The exact size of `x` on the grid of the multiples of `10^k`, as a
fraction. -/
def onGrid (x : Number) (k : Int) : Nat × Nat :=
  if 0 ≤ k then (x.units, unitsPerOne * Nat.pow 10 k.toNat)
  else (x.units * Nat.pow 10 (-k).toNat, unitsPerOne)

/-- Whether the decimal `d · 10^k` rounds to the magnitude of `x`. -/
def readsBack (x : Number) (d : Nat) (k : Int) : Bool :=
  (ofDecimal false d k).magnitude == x.magnitude

/-- The point of the grid at `10^k` that is written for `x`, if one there reads
back. -/
def gridPoint? (tie : Tie) (x : Number) (k : Int) : Option Nat :=
  let (num, den) := x.onGrid k
  let below := num / den
  let above := below + 1
  match x.readsBack below k, x.readsBack above k with
  | false, false => none
  | true, false => some below
  | false, true => some above
  | true, true =>
    let twice := 2 * (num % den)
    if twice < den then some below
    else if den < twice then some above
    else match tie with
      | .up => some above
      | .toEven => some (if below % 2 = 0 then below else above)

/-- Looks on the grids `10^k`, `10^(k-1)`, … for the first point that reads
back. -/
def search (tie : Tie) (x : Number) : (steps : Nat) → (k : Int) → Nat × Int
  | 0, k => ((x.onGrid k).1 / (x.onGrid k).2, k)
  | steps + 1, k =>
    match x.gridPoint? tie k with
    | some d => (d, k)
    | none => search tie x steps (k - 1)

/-- A decimal exponent at least as great as that of `x`: three tenths exceed the
decimal logarithm of two by less than the slack added. -/
def startGrid (x : Number) : Int :=
  ((Nat.log2 x.units : Int) - 1074) * 30103 / 100000 + 2

/-- The digits and the exponent of the shortest decimal that reads back as the
finite number `x`, its sign apart. -/
def shortest (tie : Tie) (x : Number) : Nat × Int :=
  if x.isZero then (0, 0) else search tie x 24 x.startGrid

example : shortest .toEven (ofDecimal false 1 (-1)) = (1, -1) := by
  decide +kernel
example : shortest .toEven (ofNat 160) = (16, 1) := by decide +kernel
example : shortest .toEven (ofDecimal false 5 (-324)) = (5, -324) := by
  decide +kernel

end PageShell.Number
