import Mathlib.Algebra.Field.Rat
import Mathlib.Algebra.Order.Ring.Rat
import Mathlib.Tactic.FieldSimp
import Mathlib.Tactic.Positivity
import PageShell.Proofs.Number.Integer

/-!
# The exact value of a number

The pattern of a number has three fields, a sign, an exponent of 11 bits and a
fraction of 52 bits, and they give the number its value. The fraction has a
one in front of it, unless the exponent is zero, and the greatest exponent is
left to the infinities and to what is no number (`toRat?`).

Everything else about numbers counts units instead, and the two agree: a value
is its units over the units of one. At exponent zero the fraction counts the
units, and at any other the fraction with its one counts steps, which are a
power of two of units.
-/

namespace PageShell.Number

/-- The size that the fields of an exponent and a fraction stand for. -/
def sizeOfFields (exponent fraction : ℕ) : ℚ :=
  if exponent = 0 then fraction / 2 ^ 52 * 2 ^ (-1022 : ℤ)
  else (1 + fraction / 2 ^ 52) * 2 ^ ((exponent : ℤ) - 1023)

/-- The exact value of the number, as the fields of its pattern give it; the
infinities and what is no number have none. -/
def toRat? (x : Number) : Option ℚ :=
  let exponent := x.magnitude.val / 2 ^ 52
  let fraction := x.magnitude.val % 2 ^ 52
  if exponent = 2047 then none
  else some ((if x.negative then -1 else 1) * sizeOfFields exponent fraction)

/-! ## Fields and units -/

theorem unitsPerOne_eq : (unitsPerOne : ℚ) = 2 ^ ((1074 : ℕ) : ℤ) := by
  unfold unitsPerOne
  generalize 1074 = s
  rw [Nat.pow_eq, Nat.cast_pow, Nat.cast_ofNat, zpow_natCast]

/-- At exponent zero the fraction counts units. -/
theorem sizeOfFields_zero (fraction : ℕ) :
    sizeOfFields 0 fraction * unitsPerOne = fraction := by
  have hpow : (2 : ℚ) ^ (-1022 : ℤ) * 2 ^ ((1074 : ℕ) : ℤ) = 2 ^ 52 := by
    rw [← zpow_add₀ two_ne_zero]
    exact zpow_natCast 2 52
  rw [sizeOfFields, if_pos rfl, unitsPerOne_eq, mul_assoc, hpow]
  exact div_mul_cancel₀ _ (by positivity)

/-- At any other exponent the fraction with its one counts steps. -/
theorem sizeOfFields_succ (k fraction : ℕ) :
    sizeOfFields (k + 1) fraction * unitsPerOne =
      ((2 ^ 52 + fraction) * 2 ^ k : ℕ) := by
  have hpow : (2 : ℚ) ^ (((k + 1 : ℕ) : ℤ) - 1023) * 2 ^ ((1074 : ℕ) : ℤ) =
      2 ^ 52 * 2 ^ k := by
    rw [← zpow_add₀ two_ne_zero, ← pow_add, ← zpow_natCast]
    congr 1
    omega
  rw [sizeOfFields, if_neg (Nat.succ_ne_zero k), unitsPerOne_eq, mul_assoc,
    hpow, Nat.cast_mul, Nat.cast_add, Nat.cast_pow, Nat.cast_pow,
    Nat.cast_ofNat]
  field_simp

/-- The fields of a magnitude give the size that it has in units. -/
theorem sizeOfFields_magnitude (code : ℕ) :
    sizeOfFields (code / 2 ^ 52) (code % 2 ^ 52) * unitsPerOne =
      unitsOf code := by
  unfold unitsOf
  rw [show binade = 2 ^ 52 from rfl]
  by_cases hzero : code / 2 ^ 52 = 0
  · have hlt : code < 2 ^ 52 := (Nat.div_eq_zero_iff_lt (by decide)).mp hzero
    rw [hzero, sizeOfFields_zero, if_pos hlt, Nat.mod_eq_of_lt hlt]
    exact congrArg Nat.cast (Nat.mul_one code).symm
  · obtain ⟨k, hk⟩ := Nat.exists_eq_succ_of_ne_zero hzero
    have hge : ¬code < 2 ^ 52 := fun hlt => hzero (Nat.div_eq_of_lt hlt)
    rw [hk, sizeOfFields_succ, if_neg hge]
    rfl

variable {x : Number}

theorem isFinite_iff_exponent :
    x.isFinite = true ↔ x.magnitude.val / 2 ^ 52 ≠ 2047 := by
  have hlt := x.magnitude.isLt
  have hcode : infinityCode = 2047 * 2 ^ 52 := rfl
  rw [isFinite, decide_eq_true_iff]
  omega

/-- The exact value is the units over the units of one. -/
theorem toRat?_eq_some_iff {q : ℚ} :
    x.toRat? = some q ↔
      x.isFinite = true ∧ (x.signedUnits : ℚ) = q * unitsPerOne := by
  have hone : (unitsPerOne : ℚ) ≠ 0 :=
    Nat.cast_ne_zero.mpr (Nat.ne_of_gt unitsPerOne_pos)
  have hvalue : (x.signedUnits : ℚ) =
      (if x.negative then -1 else 1) *
        sizeOfFields (x.magnitude.val / 2 ^ 52) (x.magnitude.val % 2 ^ 52) *
        unitsPerOne := by
    rw [mul_assoc, sizeOfFields_magnitude, signedUnits, units]
    cases x.negative with
    | false => exact (one_mul _).symm
    | true => exact (Int.cast_neg _).trans (neg_one_mul _).symm
  unfold toRat?
  rw [Option.ite_none_left_eq_some, Option.some_inj, isFinite_iff_exponent,
    hvalue, mul_left_inj' hone]

theorem exists_toRat?_iff : (∃ q, x.toRat? = some q) ↔ x.isFinite = true := by
  rw [isFinite_iff_exponent, toRat?]
  constructor
  · rintro ⟨q, hq⟩
    exact (Option.ite_none_left_eq_some.mp hq).1
  · intro hexponent
    exact ⟨_, if_neg hexponent⟩

/-- The value is an integer where the units are those of an integer. -/
theorem toRat?_eq_intCast_iff {v : ℤ} :
    x.toRat? = some (v : ℚ) ↔ x.IsInteger v := by
  rw [toRat?_eq_some_iff, IsInteger]
  refine and_congr_right fun _ => ?_
  rw [← Int.cast_natCast, ← Int.cast_mul, Int.cast_inj]

end PageShell.Number
