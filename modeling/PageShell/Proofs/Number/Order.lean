import Mathlib.Order.Monotone.Basic
import PageShell.Number.Conversion
import PageShell.Proofs.Number.Integer

/-!
# The order of numbers

Numbers are compared without looking at their values: a magnitude is a place
in a sequence, a minus turns the sequence around, and the two numbers in the
middle are both zero. That this is the order of the exact values rests on one
fact, that each magnitude has more units than the one before it. Within a
binade a step adds a fixed number of units; at the end of one it leads to the
first magnitude of the next, which is the size the step would have had
anyway. The rest is signs.
-/

namespace PageShell.Number

theorem unitsOf_lt_succ (code : Nat) : unitsOf code < unitsOf (code + 1) := by
  rcases Nat.lt_or_ge code binade with hlt | hge
  · rw [unitsOf_small (by omega), unitsOf_small (by omega)]
    exact Nat.lt_succ_self code
  · obtain ⟨q, t, hlo, hhi, rfl⟩ := exists_shifted hge
    have hunit : 0 < 2 ^ t := Nat.two_pow_pos t
    rw [unitsOf_shifted hlo hhi]
    by_cases hlast : q + 1 < 2 * binade
    · rw [Nat.add_assoc, unitsOf_shifted (by omega) hlast]
      exact Nat.mul_lt_mul_of_pos_right (Nat.lt_succ_self q) hunit
    · -- The next magnitude is the first one of the next binade.
      have hnext : t * binade + q + 1 = (t + 1) * binade + binade := by
        rw [Nat.add_mul]
        omega
      rw [hnext, unitsOf_shifted (Nat.le_refl _) (by omega), Nat.pow_succ,
        Nat.mul_comm (2 ^ t), ← Nat.mul_assoc]
      exact Nat.mul_lt_mul_of_pos_right (by omega) hunit

/-- The greater magnitude has more units. -/
theorem strictMono_unitsOf : StrictMono unitsOf :=
  strictMono_nat_of_lt_succ unitsOf_lt_succ

variable {x y : Number}

theorem units_le_units_iff :
    x.units ≤ y.units ↔ x.magnitude.val ≤ y.magnitude.val :=
  strictMono_unitsOf.le_iff_le

/-- The places of numbers are in the order of what they stand for. -/
theorem place_le_place_iff :
    x.place ≤ y.place ↔ x.signedUnits ≤ y.signedUnits := by
  have hle := units_le_units_iff (x := x) (y := y)
  have hge := units_le_units_iff (x := y) (y := x)
  have hx : x.units = 0 ↔ x.magnitude.val = 0 := unitsOf_eq_zero_iff
  have hy : y.units = 0 ↔ y.magnitude.val = 0 := unitsOf_eq_zero_iff
  unfold place signedUnits
  split
  · split <;> omega
  · split <;> omega

/-- Finite numbers compare as their exact values do. -/
theorem le_iff_of_isFinite (hx : x.isFinite = true) (hy : y.isFinite = true) :
    x.le y = true ↔ x.signedUnits ≤ y.signedUnits := by
  rw [le, isNaN_of_isFinite hx, isNaN_of_isFinite hy, ← place_le_place_iff]
  exact decide_eq_true_iff

/-- Numbers that are integers compare as the integers. -/
theorem le_iff_of_isInteger {v w : Int} (hx : x.IsInteger v)
    (hy : y.IsInteger w) : x.le y = true ↔ v ≤ w := by
  have hone : 0 < (unitsPerOne : Int) := Int.natCast_pos.mpr unitsPerOne_pos
  rw [le_iff_of_isFinite hx.1 hy.1, hx.2, hy.2]
  exact Int.mul_le_mul_iff_of_pos_right hone

end PageShell.Number
