import PageShell.Number.Shortest

/-!
# Number formats

A format is a handful of decisions about the shortest digits of a number: which
decimal exponents are written in positional notation, whether a whole number
keeps a fraction, which way a tie goes. Three are in use. Stored documents
(`stored`) keep a fraction on every number and turn to exponents outside sixteen
places; texts shown to a reader (`shown`) never use exponents and drop an empty
fraction; numbers of a configuration (`configured`) are like the latter with the
fraction kept, so that a whole real number differs from an integer. A complaint
about a number names it in the format of the notation it was read from.
-/

namespace PageShell.Number

/-- The decisions of a number format. -/
structure Format where
  /-- The decimal exponents written in positional notation, if limited: from, up
  to. -/
  positional : Option (Int × Int)
  /-- Whether a whole number in positional notation keeps the fraction `.0`. -/
  keepsFraction : Bool
  tie : Tie

/-- Stored numbers: positional from `10^-5` up to below `10^16`, with a
fraction. -/
def stored : Format := ⟨some (-5, 16), true, .toEven⟩

/-- Shown numbers: always positional, and whole numbers without a fraction. -/
def shown : Format := ⟨none, false, .up⟩

/-- Numbers of a configuration: always positional, with a fraction. -/
def configured : Format := ⟨none, true, .up⟩

def digitsOf (n : Nat) : List Char := Nat.toDigits 10 n

def integerText (i : Int) : List Char :=
  if i < 0 then '-' :: digitsOf i.natAbs else digitsOf i.natAbs

def zeros (n : Nat) : List Char := List.replicate n '0'

/-- The decimal with the given digits and last place `10^k` in positional
notation. -/
def positionalText (keepsFraction : Bool) (digits : List Char) (k : Int) :
    List Char :=
  if 0 ≤ k then
    digits ++ zeros k.toNat ++ (if keepsFraction then ['.', '0'] else [])
  else
    let places := (-k).toNat
    if places < digits.length then
      digits.take (digits.length - places) ++
        '.' :: digits.drop (digits.length - places)
    else
      '0' :: '.' :: (zeros (places - digits.length) ++ digits)

/-- The decimal with the given digits and leading place `10^e`, with an
exponent. -/
def exponentText (digits : List Char) (e : Int) : List Char :=
  digits.take 1 ++ (if digits.length = 1 then [] else '.' :: digits.drop 1) ++
    'e' :: (if e < 0 then '-' else '+') :: digitsOf e.natAbs

/-- The text of a finite number without its sign. -/
def Format.finiteText (format : Format) (x : Number) : List Char :=
  let (d, k) := shortest format.tie x
  let digits := digitsOf d
  let e := k + digits.length - 1
  match format.positional with
  | none => positionalText format.keepsFraction digits k
  | some (low, high) =>
    if low ≤ e ∧ e < high then positionalText format.keepsFraction digits k
    else exponentText digits e

def Format.text (format : Format) (x : Number) : List Char :=
  if x.isNaN then "NaN".toList
  else
    let size := if x.isInfinite then "inf".toList else format.finiteText x
    if x.negative then '-' :: size else size

/-- The text of a number as shown to a reader: a whole number as its exact
integer, any other with its shortest digits. -/
def displayText (x : Number) : List Char :=
  if x.isWhole then
    if x.negative then '-' :: digitsOf x.wholePart else digitsOf x.wholePart
  else
    shown.text x

example : String.ofList (stored.text (ofNat 2)) = "2.0" := by decide +kernel
example : String.ofList (stored.text (ofDecimal true 1 (-6))) = "-1e-6" := by
  decide +kernel
example : String.ofList (stored.text (ofNat 10000000000000000)) = "1e+16" := by
  decide +kernel
example :
    String.ofList (stored.text (ofDecimal false 1 (-5))) = "0.00001" := by
  decide +kernel
example :
    String.ofList (shown.text (ofNat 9223372036854775808)) =
      "9223372036854776000" := by
  decide +kernel
example :
    String.ofList (displayText (ofNat 9223372036854775808)) =
      "9223372036854775808" := by
  decide +kernel

end PageShell.Number
