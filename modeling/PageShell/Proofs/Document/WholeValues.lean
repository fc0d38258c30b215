import Mathlib.Data.Rat.Lemmas
import PageShell.Document.Attributes
import PageShell.Proofs.Number.Conversion
import PageShell.Proofs.Number.Value

/-!
# Whole numbers in attributes

An attribute is read as a whole number of 32 bits by its exact value and by
nothing else. It is the value that is handed out, though the number went
through a conversion that could have changed it; a value that has a fraction,
is negative or is too great is not handed out in part; and where there is no
value at all, in a text or behind a pattern that stands for none, there is
nothing to read. So a value that was put in as a whole number comes back.

The number theory is done where numbers are converted (`fitsUInt32_iff`). What
is added here is that the value the fields of the pattern give is the one that
was tested there.
-/

namespace PageShell

namespace Number

variable {x : Number}

/-- What is read is the number converted, where that leaves it as it is. -/
theorem toUInt32?_eq_some_iff_unchanged {n : ℕ} :
    x.toUInt32? = some n ↔
      n = x.toUInt32 ∧ x.toRat? = some (x.towardZero : ℚ) ∧
        x.towardZero = x.toUInt32 := by
  rw [toUInt32?, Option.ite_none_right_eq_some, Option.some_inj,
    fitsUInt32_iff, toRat?_eq_intCast_iff, and_comm, eq_comm]

/-- What is read is the exact value. -/
theorem toUInt32?_eq_some_iff_toRat? {n : ℕ} :
    x.toUInt32? = some n ↔ x.toRat? = some (n : ℚ) ∧ n ≤ maxUInt32 := by
  rw [toUInt32?_eq_some_iff, ← toRat?_eq_intCast_iff, Int.cast_natCast]

/-- The values from zero to `m` that have no fraction. -/
theorem exists_natCast_eq_iff {q : ℚ} {m : ℕ} :
    (∃ n : ℕ, q = n ∧ n ≤ m) ↔ q.den = 1 ∧ 0 ≤ q ∧ q ≤ m := by
  constructor
  · rintro ⟨n, rfl, hn⟩
    exact ⟨Rat.den_natCast n, Nat.cast_nonneg n, Nat.cast_le.mpr hn⟩
  · rintro ⟨hden, hlow, hhigh⟩
    obtain ⟨n, hn⟩ := Int.eq_ofNat_of_zero_le (Rat.num_nonneg.mpr hlow)
    have hq : q = n := by
      rw [← (Rat.den_eq_one_iff q).mp hden, hn]
      rfl
    exact ⟨n, hq, Nat.cast_le.mp (hq ▸ hhigh)⟩

/-- Nothing is read from a value with a fraction, a negative one or one that
is too great, and from what has no value. -/
theorem toUInt32?_eq_none_iff :
    x.toUInt32? = none ↔
      x.isNaN = true ∨ x.isInfinite = true ∨
        ∃ q, x.toRat? = some q ∧ (q.den ≠ 1 ∨ q < 0 ∨ maxUInt32 < q) := by
  rw [Option.eq_none_iff_forall_ne_some, ← not_exists]
  simp only [toUInt32?_eq_some_iff_toRat?]
  cases hvalue : x.toRat? with
  | none =>
      -- Only a pattern that is not finite is without a value.
      have hfinite : x.isFinite = false := by
        rw [Bool.eq_false_iff, ne_eq, ← exists_toRat?_iff, hvalue]
        exact fun ⟨q, hq⟩ => nomatch hq
      rw [isFinite_eq, Bool.not_eq_false', Bool.or_eq_true] at hfinite
      refine iff_of_true (fun ⟨n, hn, _⟩ => nomatch hn) ?_
      exact hfinite.imp_right .inl
  | some q =>
      have hfinite : x.isFinite = true := exists_toRat?_iff.mp ⟨q, hvalue⟩
      rw [isNaN_of_isFinite hfinite, isInfinite_of_isFinite hfinite]
      simp only [Option.some_inj, exists_natCast_eq_iff, not_and_or, not_le,
        Bool.false_eq_true, false_or, exists_eq_left', ne_eq]

end Number

namespace AttrValue

/-- The exact value of the attribute, if it has one. -/
def toRat? (value : AttrValue) : Option ℚ := value.number?.bind Number.toRat?

theorem toUInt32?_number (x : Number) :
    toUInt32? (.number x) = x.toUInt32? := rfl

/-- What is read is the exact value, and all of the range is read. -/
theorem toUInt32?_eq_some_iff {value : AttrValue} {n : ℕ} :
    value.toUInt32? = some n ↔
      value.toRat? = some (n : ℚ) ∧ n ≤ Number.maxUInt32 := by
  cases value with
  | text s => exact iff_of_false (fun h => nomatch h) fun h => nomatch h.1
  | number x => exact Number.toUInt32?_eq_some_iff_toRat?

/-- Nothing is read from a text, nor from a number with no such value. -/
theorem toUInt32?_eq_none_iff {value : AttrValue} :
    value.toUInt32? = none ↔ (∃ s, value = .text s) ∨
      ∃ x, value = .number x ∧ x.toUInt32? = none := by
  cases value with
  | text s => exact iff_of_true rfl (.inl ⟨s, rfl⟩)
  | number x =>
      constructor
      · exact fun hnone => .inr ⟨x, rfl, hnone⟩
      · rintro (⟨s, hs⟩ | ⟨y, hy, hnone⟩)
        · cases hs
        · cases hy
          exact hnone

theorem toUInt32?_ofUInt32 (n : UInt32) :
    (ofUInt32 n).toUInt32? = some n.toNat := by
  have hmax : Number.maxUInt32 = 4294967295 := rfl
  have hlimit := Number.maxUInt32_lt
  have hlt := n.toNat_lt
  have hn : n.toNat ≤ Number.maxUInt32 := by omega
  rw [ofUInt32, toUInt32?_number, Number.toUInt32?_eq_some_iff]
  exact ⟨Number.isInteger_ofNat (Nat.lt_of_le_of_lt hn hlimit), hn⟩

theorem toUInt32?_ofInt32 (i : Int32) :
    (ofInt32 i).toUInt32? =
      if 0 ≤ i.toInt then some i.toInt.toNat else none := by
  have hmax : Number.maxUInt32 = 4294967295 := rfl
  have hlimit := Number.maxUInt32_lt
  have hlow := i.le_toInt
  have hhigh := i.toInt_lt
  have hi : (Number.ofInt i.toInt).IsInteger i.toInt :=
    Number.isInteger_ofInt (by omega)
  have hrange : 0 ≤ i.toInt ∧ i.toInt ≤ Number.maxUInt32 ↔ 0 ≤ i.toInt := by
    omega
  rw [ofInt32, toUInt32?_number, Number.toUInt32?_of_isInteger hi]
  exact if_congr hrange rfl rfl

/-- An attribute is read as the whole number `n` of 32 bits exactly if it is a
number whose exact value is `n`, so nothing is read from texts, fractions,
negative or greater values, infinities and what is no number. What is read is
the conversion of the number, which then drops no fraction and does not move
the value. Both zeros are read as zero, every whole number of 32 bits comes
back, and an integer of 32 bits comes back unless it is negative. -/
theorem read_by_exact_value :
    (∀ (value : AttrValue) (n : ℕ), value.toUInt32? = some n ↔
      value.toRat? = some (n : ℚ) ∧ n ≤ 4294967295) ∧
    (∀ value : AttrValue, value.toUInt32? = none ↔
      (∃ s, value = .text s) ∨ ∃ x, value = .number x ∧
        (x.isNaN = true ∨ x.isInfinite = true ∨ ∃ q, x.toRat? = some q ∧
          (q.den ≠ 1 ∨ q < 0 ∨ 4294967295 < q))) ∧
    (∀ (x : Number) (n : ℕ), toUInt32? (.number x) = some n ↔
      n = x.toUInt32 ∧ x.toRat? = some (x.towardZero : ℚ) ∧
        x.towardZero = x.toUInt32) ∧
    (∀ negative : Bool, toUInt32? (.number ⟨negative, 0⟩) = some 0) ∧
    (∀ n : UInt32, (ofUInt32 n).toUInt32? = some n.toNat) ∧
    ∀ i : Int32, (ofInt32 i).toUInt32? =
      if 0 ≤ i.toInt then some i.toInt.toNat else none := by
  have hmax : (Number.maxUInt32 : ℚ) = 4294967295 := by
    rw [Number.maxUInt32, Nat.cast_ofNat]
  refine ⟨fun value n => toUInt32?_eq_some_iff, fun value => ?_,
    fun x n => Number.toUInt32?_eq_some_iff_unchanged, fun negative => ?_,
    toUInt32?_ofUInt32, toUInt32?_ofInt32⟩
  · rw [toUInt32?_eq_none_iff]
    simp only [Number.toUInt32?_eq_none_iff, hmax]
  · cases negative <;> decide +kernel

end AttrValue

end PageShell
