import Mathlib.Algebra.Group.Nat.Defs
import PageShell.Number.Rounding

/-!
# Where rounding is exact

A magnitude names a size in units, and `nearestCode` names the magnitude
nearest to a size. The two are inverse to each other wherever they can be:
the size of a magnitude rounds to that magnitude again, and a size of no more
than 53 significant bits is the size of its nearest magnitude. Both facts are
one picture. Sizes below two binades are their own magnitudes; any other size
with 53 significant bits is `q * 2 ^ t` for a `q` of the second binade, and
its magnitude is `t` binades further up, at `t * binade + q`.

Rounding looks at a fraction only through its quotient and through how twice
the remainder compares with the denominator, so a common factor of numerator
and denominator does not matter. With that, a quotient that comes out even is
exact as well, which is all that the decimal point of a whole number asks of
the division.
-/

namespace PageShell.Number

/-- One is a power of two of units; which one does not matter below. -/
theorem exists_unitsPerOne : ∃ s, s ≤ 1074 ∧ unitsPerOne = 2 ^ s := by
  unfold unitsPerOne
  generalize 1074 = s
  exact ⟨s, Nat.le_refl s, Nat.pow_eq⟩

theorem unitsPerOne_pos : 0 < unitsPerOne := by
  obtain ⟨s, -, hs⟩ := exists_unitsPerOne
  rw [hs]
  exact Nat.two_pow_pos s

theorem log2_mul_two_pow {a : Nat} (ha : a ≠ 0) (s : Nat) :
    Nat.log2 (a * 2 ^ s) = Nat.log2 a + s := by
  have hpos : 0 < 2 ^ s := Nat.two_pow_pos s
  obtain ⟨hlo, hhi⟩ := (Nat.log2_eq_iff ha).mp rfl
  rw [Nat.log2_eq_iff (Nat.mul_ne_zero ha (Nat.ne_of_gt hpos))]
  constructor
  · rw [Nat.pow_add]
    exact Nat.mul_le_mul_right _ hlo
  · rw [show a.log2 + s + 1 = a.log2 + 1 + s by omega, Nat.pow_add]
    exact Nat.mul_lt_mul_of_pos_right hhi hpos

/-! ## Rounding -/

/-- A quotient without remainder is not rounded. -/
theorem roundHalfEven_mul {den : Nat} (hden : 0 < den) (q : Nat) :
    roundHalfEven (q * den) den = q := by
  unfold roundHalfEven
  simp only [Nat.mul_mod_left, Nat.mul_div_cancel q hden]
  rw [if_pos (by omega)]

theorem roundHalfEven_scale {c : Nat} (hc : 0 < c) (num den : Nat) :
    roundHalfEven (num * c) (den * c) = roundHalfEven num den := by
  have hbelow : 2 * (num % den * c) < den * c ↔ 2 * (num % den) < den := by
    rw [← Nat.mul_assoc]
    exact Nat.mul_lt_mul_right hc
  have habove : den * c < 2 * (num % den * c) ↔ den < 2 * (num % den) := by
    rw [← Nat.mul_assoc]
    exact Nat.mul_lt_mul_right hc
  unfold roundHalfEven
  simp only [Nat.mul_div_mul_right num den hc, Nat.mul_mod_mul_right, hbelow,
    habove]

theorem nearestCode_scale {c : Nat} (hc : 0 < c) (num den : Nat) :
    nearestCode (num * c) (den * c) = nearestCode num den := by
  unfold nearestCode
  simp only [Nat.mul_div_mul_right num den hc]
  rw [Nat.mul_right_comm, roundHalfEven_scale hc]

/-! ## Sizes of 53 significant bits -/

theorem two_mul_binade : 2 * binade = 2 ^ 53 := by decide

theorem nearestCode_small {num : Nat} (h : num < 2 * binade) :
    nearestCode num 1 = num := by
  have hlog : Nat.log2 num - 52 = 0 := by
    by_cases hz : num = 0
    · rw [hz, Nat.log2_zero]
    · rw [two_mul_binade] at h
      have := (Nat.log2_lt hz).mpr h
      omega
  unfold nearestCode
  simp only [Nat.div_one, hlog, Nat.zero_mul, Nat.zero_add, Nat.one_mul,
    Nat.pow_eq, Nat.pow_zero]
  simpa using roundHalfEven_mul Nat.one_pos num

theorem unitsOf_small {code : Nat} (h : code < 2 * binade) :
    unitsOf code = code := by
  have hpos : 0 < binade := by decide
  unfold unitsOf
  by_cases hlt : code < binade
  · rw [if_pos hlt, Nat.div_eq_of_lt hlt]
    exact Nat.mul_one code
  · have hdiv : code / binade = 1 := by
      rw [Nat.div_eq_iff hpos]
      omega
    have hmod := Nat.div_add_mod code binade
    rw [hdiv, Nat.mul_one] at hmod
    rw [if_neg hlt, hdiv, hmod]
    exact Nat.mul_one code

theorem nearestCode_shifted {q : Nat} (hlo : binade ≤ q)
    (hhi : q < 2 * binade) (t : Nat) :
    nearestCode (q * 2 ^ t) 1 = t * binade + q := by
  have hq : q ≠ 0 := by
    have : 0 < binade := by decide
    omega
  have hlog : Nat.log2 q = 52 := by
    rw [Nat.log2_eq_iff hq, ← two_mul_binade]
    exact ⟨hlo, hhi⟩
  unfold nearestCode
  simp only [Nat.div_one, log2_mul_two_pow hq, hlog, Nat.add_sub_cancel_left,
    Nat.one_mul, Nat.pow_eq]
  rw [roundHalfEven_mul (Nat.two_pow_pos t)]

theorem unitsOf_shifted {q : Nat} (hlo : binade ≤ q) (hhi : q < 2 * binade)
    (t : Nat) : unitsOf (t * binade + q) = q * 2 ^ t := by
  have hpos : 0 < binade := by decide
  have hcode : t * binade + q = (q - binade) + binade * (t + 1) := by
    rw [Nat.mul_add, Nat.mul_comm binade t]
    omega
  have hlt : q - binade < binade := by omega
  unfold unitsOf
  rw [hcode, Nat.add_mul_div_left _ _ hpos, Nat.add_mul_mod_self_left,
    Nat.div_eq_of_lt hlt, Nat.mod_eq_of_lt hlt]
  rw [if_neg (by rw [Nat.mul_add]; omega), Nat.zero_add, Nat.add_sub_cancel,
    Nat.add_sub_cancel' hlo]
  rfl

/-- The two shapes of a size of 53 significant bits. -/
theorem small_or_shifted {a : Nat} (ha : a < 2 * binade) (s : Nat) :
    a * 2 ^ s < 2 * binade ∨ ∃ q t, t ≤ s ∧ binade ≤ q ∧ q < 2 * binade ∧
      a * 2 ^ s = q * 2 ^ t := by
  rcases Nat.lt_or_ge (a * 2 ^ s) (2 * binade) with hlt | hge
  · exact .inl hlt
  · right
    have hz : a ≠ 0 := by
      rintro rfl
      rw [Nat.zero_mul] at hge
      exact absurd hge (by decide)
    obtain ⟨hlo, hhi⟩ := (Nat.log2_eq_iff hz).mp rfl
    have hbits : a.log2 ≤ 52 := by
      rw [two_mul_binade] at ha
      have := (Nat.log2_lt hz).mpr ha
      omega
    have hlarge : 52 ≤ a.log2 + s := by
      rw [two_mul_binade] at hge
      have hne : a * 2 ^ s ≠ 0 := fun h => by
        rw [h] at hge
        exact absurd hge (by decide)
      have := (Nat.le_log2 hne).mpr hge
      rw [log2_mul_two_pow hz] at this
      omega
    have hbinade : binade = 2 ^ a.log2 * 2 ^ (52 - a.log2) := by
      rw [← Nat.pow_add, Nat.add_sub_cancel' hbits]
      rfl
    refine ⟨a * 2 ^ (52 - a.log2), a.log2 + s - 52, by omega, ?_, ?_, ?_⟩
    · rw [hbinade]
      exact Nat.mul_le_mul_right _ hlo
    · rw [hbinade, ← Nat.mul_assoc, Nat.mul_comm 2, ← Nat.pow_succ]
      exact Nat.mul_lt_mul_of_pos_right hhi (Nat.two_pow_pos _)
    · rw [Nat.mul_assoc, ← Nat.pow_add]
      congr 2
      omega

/-- From the second binade on, a magnitude is one of that binade moved up. -/
theorem exists_shifted {code : Nat} (h : binade ≤ code) :
    ∃ q t, binade ≤ q ∧ q < 2 * binade ∧ code = t * binade + q := by
  have hpos : 0 < binade := by decide
  have hmod : code % binade < binade := Nat.mod_lt code hpos
  have hdiv : 1 ≤ code / binade := (Nat.one_le_div_iff hpos).mpr h
  refine ⟨binade + code % binade, code / binade - 1, by omega, by omega, ?_⟩
  have hsum := Nat.div_add_mod code binade
  have hle : binade * 1 ≤ binade * (code / binade) :=
    Nat.mul_le_mul_left _ hdiv
  rw [Nat.sub_mul, Nat.one_mul, Nat.mul_comm]
  omega

/-- The size of a magnitude rounds to the magnitude. -/
theorem nearestCode_unitsOf (code : Nat) :
    nearestCode (unitsOf code) 1 = code := by
  rcases Nat.lt_or_ge code binade with hlt | hge
  · have hsmall : code < 2 * binade := by omega
    rw [unitsOf_small hsmall, nearestCode_small hsmall]
  · obtain ⟨q, t, hlo, hhi, rfl⟩ := exists_shifted hge
    rw [unitsOf_shifted hlo hhi, nearestCode_shifted hlo hhi]

/-- The size of a magnitude has 53 significant bits. -/
theorem exists_unitsOf_eq (code : Nat) :
    ∃ a s, a < 2 * binade ∧ unitsOf code = a * 2 ^ s := by
  rcases Nat.lt_or_ge code binade with hlt | hge
  · have hsmall : code < 2 * binade := by omega
    exact ⟨code, 0, hsmall, by rw [unitsOf_small hsmall]; omega⟩
  · obtain ⟨q, t, hlo, hhi, rfl⟩ := exists_shifted hge
    exact ⟨q, t, hhi, unitsOf_shifted hlo hhi t⟩

/-- A size of 53 significant bits is the size of its nearest magnitude. -/
theorem unitsOf_nearestCode {a : Nat} (ha : a < 2 * binade) (s : Nat) :
    unitsOf (nearestCode (a * 2 ^ s) 1) = a * 2 ^ s := by
  rcases small_or_shifted ha s with hlt | ⟨q, t, -, hlo, hhi, heq⟩
  · rw [nearestCode_small hlt, unitsOf_small hlt]
  · rw [heq, nearestCode_shifted hlo hhi, unitsOf_shifted hlo hhi]

theorem nearestCode_lt {a : Nat} (ha : a < 2 * binade) (s : Nat) :
    nearestCode (a * 2 ^ s) 1 < (s + 2) * binade := by
  rcases small_or_shifted ha s with hlt | ⟨q, t, ht, hlo, hhi, heq⟩
  · rw [nearestCode_small hlt]
    exact Nat.lt_of_lt_of_le hlt (Nat.mul_le_mul_right _ (by omega))
  · rw [heq, nearestCode_shifted hlo hhi]
    have := Nat.mul_le_mul_right binade ht
    rw [Nat.add_mul]
    omega

/-! ## Finite numbers and whole numbers -/

theorem isFinite_eq (x : Number) :
    x.isFinite = !(x.isNaN || x.isInfinite) := by
  rw [Bool.eq_iff_iff]
  simp only [isFinite, isNaN, isInfinite, Bool.not_eq_true',
    Bool.or_eq_false_iff, decide_eq_true_eq, decide_eq_false_iff_not,
    beq_eq_false_iff_ne]
  omega

theorem isNaN_of_isFinite {x : Number} (hx : x.isFinite = true) :
    x.isNaN = false := by
  rw [isFinite_eq, Bool.not_eq_true', Bool.or_eq_false_iff] at hx
  exact hx.1

theorem isInfinite_of_isFinite {x : Number} (hx : x.isFinite = true) :
    x.isInfinite = false := by
  rw [isFinite_eq, Bool.not_eq_true', Bool.or_eq_false_iff] at hx
  exact hx.2

theorem val_magnitude_ofCode (negative : Bool) (code : Nat) :
    (ofCode negative code).magnitude.val = min code infinityCode := rfl

theorem negative_ofUnits (negative : Bool) (num den : Nat) :
    (ofUnits negative num den).negative = negative := rfl

/-- A finite number is the number nearest to its own size. -/
theorem ofUnits_units {x : Number} (hx : x.isFinite = true) :
    ofUnits x.negative x.units 1 = x := by
  have hlt : x.magnitude.val < infinityCode := of_decide_eq_true hx
  have hmagnitude : (ofUnits x.negative x.units 1).magnitude =
      x.magnitude := by
    apply Fin.ext
    rw [ofUnits, val_magnitude_ofCode, units, nearestCode_unitsOf,
      Nat.min_eq_left (Nat.le_of_lt hlt)]
  exact Number.ext (negative_ofUnits _ _ _) hmagnitude

theorem nearestCode_lt_infinityCode {a s : Nat} (ha : a < 2 * binade)
    (hs : s ≤ 1074) : nearestCode (a * 2 ^ s) 1 < infinityCode :=
  Nat.lt_of_lt_of_le (nearestCode_lt ha s)
    (Nat.mul_le_mul_right binade (by omega))

/-- A size of 53 significant bits up to a power of two of ones is kept. -/
theorem units_ofUnits (negative : Bool) {a s : Nat} (ha : a < 2 * binade)
    (hs : s ≤ 1074) : (ofUnits negative (a * 2 ^ s) 1).units = a * 2 ^ s := by
  rw [units, ofUnits, val_magnitude_ofCode,
    Nat.min_eq_left (Nat.le_of_lt (nearestCode_lt_infinityCode ha hs))]
  exact unitsOf_nearestCode ha s

/-- The whole numbers below `2^53`: this many can be told apart. -/
def exactLimit : Nat := 2 * binade

theorem maxUInt32_lt : maxUInt32 < exactLimit := by decide

theorem nearestCode_whole_lt {n : Nat} (hn : n < exactLimit) :
    nearestCode (n * unitsPerOne) 1 < infinityCode := by
  obtain ⟨s, hs, hunits⟩ := exists_unitsPerOne
  rw [hunits]
  exact nearestCode_lt_infinityCode hn hs

theorem val_magnitude_ofNat {n : Nat} (hn : n < exactLimit) :
    (ofNat n).magnitude.val = nearestCode (n * unitsPerOne) 1 := by
  rw [ofNat, ofUnits, val_magnitude_ofCode,
    Nat.min_eq_left (Nat.le_of_lt (nearestCode_whole_lt hn))]

theorem isFinite_ofNat {n : Nat} (hn : n < exactLimit) :
    (ofNat n).isFinite = true := by
  rw [isFinite, val_magnitude_ofNat hn]
  exact decide_eq_true (nearestCode_whole_lt hn)

theorem units_ofNat {n : Nat} (hn : n < exactLimit) :
    (ofNat n).units = n * unitsPerOne := by
  obtain ⟨s, hs, hunits⟩ := exists_unitsPerOne
  rw [ofNat, hunits]
  exact units_ofUnits false hn hs

theorem ofNat_inj {m n : Nat} (hm : m < exactLimit) (hn : n < exactLimit)
    (h : (ofNat m).magnitude = (ofNat n).magnitude) : m = n := by
  have hunits : (ofNat m).units = (ofNat n).units := by rw [units, units, h]
  rw [units_ofNat hm, units_ofNat hn] at hunits
  exact Nat.eq_of_mul_eq_mul_right unitsPerOne_pos hunits

theorem isWhole_ofNat {n : Nat} (hn : n < exactLimit) :
    (ofNat n).isWhole = true := by
  rw [isWhole, isFinite_ofNat hn, units_ofNat hn, Nat.mul_mod_left]
  rfl

theorem wholePart_ofNat {n : Nat} (hn : n < exactLimit) :
    (ofNat n).wholePart = n := by
  rw [wholePart, units_ofNat hn, Nat.mul_div_cancel n unitsPerOne_pos]

theorem isWhole_iff {x : Number} : x.isWhole = true ↔
    x.isFinite = true ∧ x.units = x.wholePart * unitsPerOne := by
  rw [isWhole, Bool.and_eq_true, beq_iff_eq, wholePart, eq_comm (a := x.units)]
  refine and_congr_right fun _ => ?_
  constructor
  · intro hmod
    exact Nat.div_mul_cancel (Nat.dvd_of_mod_eq_zero hmod)
  · intro h
    rw [← h, Nat.mul_mod_left]

@[simp] theorem magnitude_withSign (negative : Bool) (x : Number) :
    (x.withSign negative).magnitude = x.magnitude := rfl

/-- A whole number is its whole part with a sign. -/
theorem eq_withSign_ofNat {x : Number} (hx : x.isWhole = true) :
    x = (ofNat x.wholePart).withSign x.negative := by
  obtain ⟨hfinite, hunits⟩ := isWhole_iff.mp hx
  rw [ofNat, ← hunits]
  exact (ofUnits_units hfinite).symm

/-- Ten times a whole number, divided by ten. -/
theorem div_powerOfTen_one {n : Nat} (hn : n * 10 < exactLimit) :
    (ofNat (n * 10)).div (powerOfTen 1) = ofNat n := by
  have hten : (powerOfTen 1).units = 10 * unitsPerOne :=
    units_ofNat (n := 10) (by decide)
  have hpos : 0 < 10 * unitsPerOne := Nat.mul_pos (by decide) unitsPerOne_pos
  have hfraction : n * 10 * unitsPerOne * unitsPerOne =
      n * unitsPerOne * (10 * unitsPerOne) := by
    generalize unitsPerOne = u
    ac_rfl
  have hscale : nearestCode (n * unitsPerOne * (10 * unitsPerOne))
      (10 * unitsPerOne) = nearestCode (n * unitsPerOne) 1 := by
    have := nearestCode_scale hpos (n * unitsPerOne) 1
    rwa [Nat.one_mul] at this
  unfold div ofUnits
  rw [units_ofNat hn, hten, hfraction, hscale]
  rfl

end PageShell.Number
