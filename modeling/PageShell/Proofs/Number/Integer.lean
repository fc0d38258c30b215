import PageShell.Proofs.Number.Exact

/-!
# The integer a number stands for

A finite number stands for a signed number of units, and it is the integer
`v` where these are `v` times the units of one. This is the exact value, read
off the bits without any rounding, and a number is at most one integer. The
other way round an integer may be several numbers: zero has two signs, and
both are the integer zero because no other magnitude has no units.
-/

namespace PageShell.Number

/-- The exact value of a finite number, in units. -/
def signedUnits (x : Number) : Int :=
  if x.negative then -(x.units : Int) else x.units

/-- The exact value of the number is the integer `v`. -/
def IsInteger (x : Number) (v : Int) : Prop :=
  x.isFinite = true ∧ x.signedUnits = v * unitsPerOne

variable {x : Number}

theorem natAbs_signedUnits : x.signedUnits.natAbs = x.units := by
  unfold signedUnits
  split
  · rw [Int.natAbs_neg, Int.natAbs_natCast]
  · rw [Int.natAbs_natCast]

theorem IsInteger.unique {v w : Int} (hv : x.IsInteger v)
    (hw : x.IsInteger w) : v = w := by
  have hne : (unitsPerOne : Int) ≠ 0 :=
    Int.natCast_ne_zero.mpr (Nat.ne_of_gt unitsPerOne_pos)
  exact Int.eq_of_mul_eq_mul_right hne (hv.2.symm.trans hw.2)

/-! ## The sign of zero -/

theorem unitsOf_eq_zero_iff {code : Nat} : unitsOf code = 0 ↔ code = 0 := by
  have hscale : 2 ^ (code / binade - 1) ≠ 0 :=
    Nat.ne_of_gt (Nat.two_pow_pos _)
  have hpos : 0 < binade := by decide
  rw [unitsOf, Nat.pow_eq, Nat.mul_eq_zero, or_iff_left hscale]
  split <;> omega

theorem units_eq_zero_iff : x.units = 0 ↔ x.isZero = true := by
  rw [units, unitsOf_eq_zero_iff, isZero, beq_iff_eq]

/-- A value that is not negative has no minus, or it is the other zero. -/
theorem signedUnits_eq_natCast_iff {m : Nat} :
    x.signedUnits = m ↔
      (!x.negative || x.isZero) = true ∧ x.units = m := by
  rw [Bool.or_eq_true, Bool.not_eq_true', ← units_eq_zero_iff, signedUnits]
  cases x.negative with
  | false =>
      rw [if_neg Bool.false_ne_true, Int.natCast_inj]
      exact (and_iff_right (.inl rfl)).symm
  | true =>
      rw [if_pos rfl, or_iff_right Bool.noConfusion]
      omega

/-! ## Integers as numbers -/

theorem isInteger_zero : zero.IsInteger 0 := by
  refine ⟨by decide, ?_⟩
  rw [Int.zero_mul]
  rfl

theorem isInteger_ofNat {n : Nat} (hn : n < exactLimit) :
    (ofNat n).IsInteger n := by
  refine ⟨isFinite_ofNat hn, ?_⟩
  rw [← Int.natCast_mul, ← units_ofNat hn]
  rfl

theorem isInteger_ofInt {i : Int} (hi : i.natAbs < exactLimit) :
    (ofInt i).IsInteger i := by
  have hunits : (ofInt i).units = i.natAbs * unitsPerOne := units_ofNat hi
  refine ⟨isFinite_ofNat hi, ?_⟩
  rw [signedUnits, hunits, Int.natCast_mul]
  by_cases hneg : i < 0
  · have hsign : (ofInt i).negative = true := decide_eq_true hneg
    rw [if_pos hsign, ← Int.neg_mul, Int.ofNat_natAbs_of_nonpos (by omega),
      Int.neg_neg]
  · have hsign : (ofInt i).negative = false := decide_eq_false hneg
    rw [hsign, Int.natAbs_of_nonneg (by omega)]
    rfl

end PageShell.Number
