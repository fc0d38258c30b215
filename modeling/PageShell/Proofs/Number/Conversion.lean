import PageShell.Proofs.Number.Order

/-!
# Reading a whole number of 32 bits

Conversion gives a whole number of 32 bits for every number, and for all but
a few of them it is not the value of the number: a fraction is lost, or the
value is moved to an end of the range. The tests before it let through just
those few (`fitsUInt32_iff`), so what is handed out is the exact value.

Each test is about the exact value, though it is made on numbers. The fraction
of a number has no more significant bits than the number, so it is not rounded
and is zero only if there is none. The ends of the range are numbers, exactly,
and numbers are in the order of their values; both zeros stand at zero.
-/

namespace PageShell.Number

variable {x : Number}

/-! ## The fraction -/

/-- Less than a power of two is left by keeping low bits, which are no more
significant bits than there were. -/
theorem exists_mod_two_pow_eq {a : Nat} (ha : a < 2 * binade) (s u : Nat) :
    ∃ b r, b < 2 * binade ∧ r ≤ u ∧ a * 2 ^ s % 2 ^ u = b * 2 ^ r := by
  rcases Nat.le_total s u with hle | hge
  · refine ⟨a % 2 ^ (u - s), s, Nat.lt_of_le_of_lt (Nat.mod_le _ _) ha, hle, ?_⟩
    have hpow : 2 ^ u = 2 ^ (u - s) * 2 ^ s := by
      rw [← Nat.pow_add, Nat.sub_add_cancel hle]
    rw [hpow, Nat.mul_mod_mul_right]
  · refine ⟨0, 0, by decide, Nat.zero_le u, ?_⟩
    rw [Nat.zero_mul]
    exact Nat.mod_eq_zero_of_dvd
      (Nat.dvd_mul_left_of_dvd (Nat.pow_dvd_pow 2 hge) a)

/-- The fraction is exact. -/
theorem units_fract (hx : x.isFinite = true) :
    x.fract.units = x.units % unitsPerOne := by
  obtain ⟨a, s, ha, hunits⟩ := exists_unitsOf_eq x.magnitude.val
  obtain ⟨u, hu, hone⟩ := exists_unitsPerOne
  obtain ⟨b, r, hb, hr, hrest⟩ := exists_mod_two_pow_eq ha s u
  have hmod : x.units % unitsPerOne = b * 2 ^ r := by
    rw [units, hunits, hone, hrest]
  unfold fract
  rw [if_pos hx, hmod]
  exact units_ofUnits _ hb (Nat.le_trans hr hu)

/-- The fraction is zero for the whole numbers and for nothing else. -/
theorem isZero_fract : x.fract.isZero = x.isWhole := by
  cases hx : x.isFinite with
  | true =>
      rw [isWhole, hx, Bool.true_and, Bool.eq_iff_iff, ← units_eq_zero_iff,
        units_fract hx, beq_iff_eq]
  | false =>
      unfold fract isWhole
      rw [hx]
      rfl

/-! ## Rounding toward zero -/

theorem wholePart_of_units {n : Nat} (h : x.units = n * unitsPerOne) :
    x.wholePart = n := by
  rw [wholePart, h, Nat.mul_div_cancel n unitsPerOne_pos]

/-- A whole number is the integer it is rounded to. -/
theorem isInteger_towardZero (hx : x.isWhole = true) :
    x.IsInteger x.towardZero := by
  obtain ⟨hfinite, hunits⟩ := isWhole_iff.mp hx
  refine ⟨hfinite, ?_⟩
  rw [signedUnits, towardZero, hunits, Int.natCast_mul]
  split
  · exact (Int.neg_mul _ _).symm
  · rfl

theorem IsInteger.isWhole {v : Int} (h : x.IsInteger v) : x.isWhole = true := by
  obtain ⟨hfinite, hunits⟩ := h
  have hsize : x.units = v.natAbs * unitsPerOne := by
    rw [← natAbs_signedUnits, hunits, Int.natAbs_mul, Int.natAbs_natCast]
  exact isWhole_iff.mpr ⟨hfinite, by rw [wholePart_of_units hsize, hsize]⟩

theorem IsInteger.towardZero_eq {v : Int} (h : x.IsInteger v) :
    x.towardZero = v :=
  (isInteger_towardZero h.isWhole).unique h

/-! ## The tests -/

/-- The tests pass for the whole numbers from zero to the end of the range. -/
theorem fitsUInt32_iff_isInteger :
    x.fitsUInt32 = true ↔ x.IsInteger x.towardZero ∧
      0 ≤ x.towardZero ∧ x.towardZero ≤ maxUInt32 := by
  have hmax : (ofNat maxUInt32).IsInteger maxUInt32 :=
    isInteger_ofNat maxUInt32_lt
  unfold fitsUInt32
  rw [isZero_fract, Bool.and_eq_true, Bool.and_eq_true]
  constructor
  · rintro ⟨⟨hwhole, hlow⟩, hhigh⟩
    have hx := isInteger_towardZero hwhole
    exact ⟨hx, (le_iff_of_isInteger isInteger_zero hx).mp hlow,
      (le_iff_of_isInteger hx hmax).mp hhigh⟩
  · rintro ⟨hx, hlow, hhigh⟩
    exact ⟨⟨hx.isWhole, (le_iff_of_isInteger isInteger_zero hx).mpr hlow⟩,
      (le_iff_of_isInteger hx hmax).mpr hhigh⟩

/-! ## Conversion -/

theorem toUInt32_of_isFinite (hx : x.isFinite = true) :
    (x.toUInt32 : Int) = max 0 (min x.towardZero maxUInt32) := by
  unfold toUInt32
  rw [isNaN_of_isFinite hx, isInfinite_of_isFinite hx]
  exact Int.toNat_of_nonneg (Int.le_max_left _ _)

/-- The tests let through the numbers that conversion leaves as they are: no
fraction is lost, and the value is not moved into the range. -/
theorem fitsUInt32_iff :
    x.fitsUInt32 = true ↔
      x.IsInteger x.towardZero ∧ x.towardZero = x.toUInt32 := by
  rw [fitsUInt32_iff_isInteger]
  refine and_congr_right fun hx => ?_
  rw [toUInt32_of_isFinite hx.1]
  omega

/-- What is read is the exact value, and all of the range is read. -/
theorem toUInt32?_eq_some_iff {n : Nat} :
    x.toUInt32? = some n ↔ x.IsInteger n ∧ n ≤ maxUInt32 := by
  unfold toUInt32?
  rw [Option.ite_none_right_eq_some, Option.some_inj]
  constructor
  · rintro ⟨hfits, rfl⟩
    obtain ⟨-, -, hhigh⟩ := fitsUInt32_iff_isInteger.mp hfits
    obtain ⟨hx, hsame⟩ := fitsUInt32_iff.mp hfits
    rw [hsame] at hx hhigh
    exact ⟨hx, Int.ofNat_le.mp hhigh⟩
  · rintro ⟨hx, hn⟩
    have hfits : x.fitsUInt32 = true := by
      rw [fitsUInt32_iff_isInteger, hx.towardZero_eq]
      exact ⟨hx, Int.natCast_nonneg n, Int.ofNat_le.mpr hn⟩
    obtain ⟨-, hsame⟩ := fitsUInt32_iff.mp hfits
    rw [hx.towardZero_eq] at hsame
    exact ⟨hfits, (Int.natCast_inj.mp hsame).symm⟩

/-- Whole values are read as far as they are in the range. -/
theorem toUInt32?_of_isInteger {v : Int} (h : x.IsInteger v) :
    x.toUInt32? =
      if 0 ≤ v ∧ v ≤ maxUInt32 then some v.toNat else none := by
  split
  · next hv =>
      obtain ⟨n, rfl⟩ := Int.eq_ofNat_of_zero_le hv.1
      exact toUInt32?_eq_some_iff.mpr ⟨h, Int.ofNat_le.mp hv.2⟩
  · next hv =>
      rw [Option.eq_none_iff_forall_ne_some]
      intro n hn
      obtain ⟨hinteger, hsize⟩ := toUInt32?_eq_some_iff.mp hn
      have := h.unique hinteger
      omega

/-- The same, said of the size and the sign. -/
theorem toUInt32?_eq :
    x.toUInt32? =
      if x.isWhole && (!x.negative || x.isZero) && x.wholePart ≤ maxUInt32 then
        some x.wholePart
      else none := by
  apply Option.ext
  intro n
  rw [toUInt32?_eq_some_iff, IsInteger, ← Int.natCast_mul,
    signedUnits_eq_natCast_iff, Option.ite_none_right_eq_some, Option.some_inj]
  simp only [Bool.and_eq_true, decide_eq_true_eq]
  constructor
  · rintro ⟨⟨hfinite, hsign, hunits⟩, hsize⟩
    have hpart := wholePart_of_units hunits
    have hwhole : x.isWhole = true :=
      isWhole_iff.mpr ⟨hfinite, by rw [hpart, hunits]⟩
    exact ⟨⟨⟨hwhole, hsign⟩, by rwa [hpart]⟩, hpart⟩
  · rintro ⟨⟨⟨hwhole, hsign⟩, hsize⟩, rfl⟩
    obtain ⟨hfinite, hunits⟩ := isWhole_iff.mp hwhole
    exact ⟨⟨hfinite, hsign, hunits⟩, hsize⟩

end PageShell.Number
