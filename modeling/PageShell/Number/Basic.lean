/-!
# Numbers of a document

A number in a document is a binary floating-point number of 64 bits. It is held
as a sign and 63 bits of magnitude, so that all 2^64 patterns are values of the
type and none has to be excluded, and its exact value is read off in one unit,
`2^-1074`: every finite number is a whole number of units. Rounding, scaling and
printing are then arithmetic on natural numbers, which a proof can follow, and
no floating-point operation of the machine is involved anywhere.

The magnitudes of the first two binades are their own number of units; from
there on each binade doubles the distance between neighbours (`unitsOf`).
-/

namespace PageShell

/-- A binary floating-point number of 64 bits: its sign and the 63 bits of its
magnitude. -/
@[ext] structure Number where
  negative : Bool
  magnitude : Fin 9223372036854775808
deriving DecidableEq

namespace Number

/-- The number of units in one: the unit is `2^-1074`. -/
def unitsPerOne : Nat := Nat.pow 2 1074

/-- The number of magnitudes from one power of two to the next: `2^52`. -/
def binade : Nat := 4503599627370496

/-- The magnitude of infinity; every finite magnitude is below it. -/
def infinityCode : Nat := 2047 * binade

/-- How many units the finite magnitude `code` stands for. -/
def unitsOf (code : Nat) : Nat :=
  (if code < binade then code else binade + code % binade) *
    Nat.pow 2 (code / binade - 1)

/-- The number with the given sign and magnitude; a magnitude past infinity is
infinity. -/
def ofCode (negative : Bool) (code : Nat) : Number :=
  ⟨negative, ⟨min code infinityCode,
    Nat.lt_of_le_of_lt (Nat.min_le_right _ _) (by decide)⟩⟩

def zero : Number := ⟨false, 0⟩

def infinity (negative : Bool) : Number := ofCode negative infinityCode

/-- The quiet number that is no number; all patterns above infinity are of its
kind. -/
def notANumber : Number := ⟨false, ⟨infinityCode + binade / 2, by decide⟩⟩

def isFinite (x : Number) : Bool := x.magnitude.val < infinityCode

def isInfinite (x : Number) : Bool := x.magnitude.val == infinityCode

def isNaN (x : Number) : Bool := infinityCode < x.magnitude.val

def isZero (x : Number) : Bool := x.magnitude.val == 0

/-- The size of a finite number, in units. -/
def units (x : Number) : Nat := unitsOf x.magnitude.val

/-- The same number with its sign as given. -/
def withSign (negative : Bool) (x : Number) : Number := { x with negative }

def neg (x : Number) : Number := { x with negative := !x.negative }

/-- A finite number with no fraction. -/
def isWhole (x : Number) : Bool := x.isFinite && x.units % unitsPerOne == 0

/-- The size of a whole number; the fraction of any other is dropped. -/
def wholePart (x : Number) : Nat := x.units / unitsPerOne

/-- The greatest 32-bit whole number. -/
def maxUInt32 : Nat := 4294967295

end Number

end PageShell
