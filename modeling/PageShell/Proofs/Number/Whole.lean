import PageShell.Number.Format
import PageShell.Proofs.Number.Exact

/-!
# The text of a whole number

A whole number of 32 bits is stored as its decimal digits and `.0`. The
search for the shortest decimal starts on a coarse grid, where the digits end
in zeros that are not part of it; so the digits that are found, followed by
as many zeros as the grid has, are to be recognized as those of the number.

On a grid `10^k` with a natural `k` every point is a whole number, and one
that reads back as the number is the number itself, for whole numbers are
told apart below `2^53` and the search begins well below that. The search
comes to the grid of ones at last, where the number is a point, so it never
sees a finer grid.
-/

namespace PageShell.Number

/-- A whole number whose size fits in 32 bits. -/
def IsSmallWhole (x : Number) : Prop :=
  x.isWhole = true ∧ x.wholePart ≤ maxUInt32

theorem isSmallWhole_ofNat {n : Nat} (hn : n ≤ maxUInt32) :
    IsSmallWhole (ofNat n) := by
  have hlt : n < exactLimit := Nat.lt_of_le_of_lt hn (by decide)
  exact ⟨isWhole_ofNat hlt, by rwa [wholePart_ofNat hlt]⟩

/-! ## Grids of whole numbers -/

theorem ofDecimal_natCast (d k : Nat) :
    ofDecimal false d (k : Int) = ofNat (d * 10 ^ k) := by
  unfold ofDecimal ofNat
  rw [if_pos (Int.natCast_nonneg k), Int.toNat_natCast, Nat.pow_eq]

theorem onGrid_natCast (x : Number) (k : Nat) :
    x.onGrid (k : Int) = (x.units, unitsPerOne * 10 ^ k) := by
  unfold onGrid
  rw [if_pos (Int.natCast_nonneg k), Int.toNat_natCast, Nat.pow_eq]

/-- A point that is found reads back and is a neighbour of the number. -/
theorem gridPoint?_eq_some {tie : Tie} {x : Number} {k : Int} {d : Nat}
    (h : x.gridPoint? tie k = some d) :
    x.readsBack d k = true ∧ d ≤ (x.onGrid k).1 / (x.onGrid k).2 + 1 := by
  unfold gridPoint? at h
  simp only at h
  split at h
  · cases h
  · next hbelow _ => cases h; exact ⟨hbelow, Nat.le_succ _⟩
  · next _ habove => cases h; exact ⟨habove, Nat.le_refl _⟩
  · next hbelow habove =>
      have hchoice : d = (x.onGrid k).1 / (x.onGrid k).2 ∨
          d = (x.onGrid k).1 / (x.onGrid k).2 + 1 := by
        split at h
        · cases h; exact .inl rfl
        · split at h
          · cases h; exact .inr rfl
          · split at h
            · cases h; exact .inr rfl
            · split at h <;> cases h
              · exact .inl rfl
              · exact .inr rfl
      rcases hchoice with rfl | rfl
      · exact ⟨hbelow, Nat.le_succ _⟩
      · exact ⟨habove, Nat.le_refl _⟩

theorem gridPoint?_ne_none (tie : Tie) {x : Number} {k : Int}
    (h : x.readsBack ((x.onGrid k).1 / (x.onGrid k).2) k = true) :
    x.gridPoint? tie k ≠ none := by
  unfold gridPoint?
  simp only [h]
  split
  · next hfalse _ => cases hfalse
  · exact Option.some_ne_none _
  · next hfalse _ => cases hfalse
  · split
    · exact Option.some_ne_none _
    · split
      · exact Option.some_ne_none _
      · split <;> exact Option.some_ne_none _

variable {x : Number} {n : Nat}

theorem units_of_magnitude (hn : n < exactLimit)
    (hx : x.magnitude = (ofNat n).magnitude) :
    x.units = n * unitsPerOne := by
  rw [← units_ofNat hn, units, units, hx]

/-- On a grid of whole numbers a point that is found is the number. -/
theorem gridPoint?_whole {tie : Tie} {d k : Nat}
    (hn : n + 10 ^ k < exactLimit) (hx : x.magnitude = (ofNat n).magnitude)
    (h : x.gridPoint? tie (k : Int) = some d) : d * 10 ^ k = n := by
  obtain ⟨hback, hnear⟩ := gridPoint?_eq_some h
  have hpos : 0 < 10 ^ k := Nat.pow_pos (by decide)
  have hlt : n < exactLimit := by omega
  rw [onGrid_natCast, units_of_magnitude hlt hx,
    Nat.mul_comm unitsPerOne, Nat.mul_div_mul_right _ _ unitsPerOne_pos]
    at hnear
  have hle : d * 10 ^ k ≤ n + 10 ^ k := by
    calc d * 10 ^ k ≤ (n / 10 ^ k + 1) * 10 ^ k :=
          Nat.mul_le_mul_right _ hnear
      _ = n / 10 ^ k * 10 ^ k + 10 ^ k := by rw [Nat.add_mul, Nat.one_mul]
      _ ≤ n + 10 ^ k := Nat.add_le_add_right (Nat.div_mul_le_self n _) _
  rw [readsBack, ofDecimal_natCast, beq_iff_eq, hx] at hback
  exact ofNat_inj (Nat.lt_of_le_of_lt hle hn) hlt hback

/-- From a grid of whole numbers the search ends on one. -/
theorem search_whole (tie : Tie) (hx : x.magnitude = (ofNat n).magnitude) :
    ∀ (k steps : Nat), k < steps → n + 10 ^ k < exactLimit →
      ∃ d j : Nat, search tie x steps (k : Int) = (d, (j : Int)) ∧
        d * 10 ^ j = n := by
  intro k
  induction k with
  | zero =>
      intro steps hsteps hn
      obtain ⟨steps, rfl⟩ : ∃ m, steps = m + 1 := ⟨steps - 1, by omega⟩
      have hlt : n < exactLimit := by omega
      have hback : x.readsBack
          ((x.onGrid ((0 : Nat) : Int)).1 / (x.onGrid ((0 : Nat) : Int)).2)
          ((0 : Nat) : Int) = true := by
        rw [onGrid_natCast, units_of_magnitude hlt hx, Nat.pow_zero,
          Nat.mul_one, Nat.mul_div_cancel n unitsPerOne_pos, readsBack,
          ofDecimal_natCast, Nat.pow_zero, Nat.mul_one, hx]
        exact beq_self_eq_true _
      obtain ⟨d, hd⟩ := Option.ne_none_iff_exists'.mp
        (gridPoint?_ne_none tie hback)
      exact ⟨d, 0, by rw [search, hd], gridPoint?_whole hn hx hd⟩
  | succ k ih =>
      intro steps hsteps hn
      obtain ⟨steps, rfl⟩ : ∃ m, steps = m + 1 := ⟨steps - 1, by omega⟩
      cases hpoint : x.gridPoint? tie ((k + 1 : Nat) : Int) with
      | some d =>
          exact ⟨d, k + 1, by rw [search, hpoint],
            gridPoint?_whole hn hx hpoint⟩
      | none =>
          have hpow : 10 ^ k ≤ 10 ^ (k + 1) :=
            Nat.pow_le_pow_right (by decide) (Nat.le_succ k)
          obtain ⟨d, j, hsearch, hd⟩ := ih steps (by omega) (by omega)
          have hfiner : ((k + 1 : Nat) : Int) - 1 = (k : Int) := by omega
          refine ⟨d, j, ?_, hd⟩
          rw [search, hpoint, hfiner]
          exact hsearch

theorem log2_units (hn : n ≠ 0) :
    Nat.log2 (n * unitsPerOne) = Nat.log2 n + 1074 := by
  unfold unitsPerOne
  generalize 1074 = s
  rw [Nat.pow_eq]
  exact log2_mul_two_pow hn s

/-- The first grid of the search is one of whole numbers. -/
theorem startGrid_whole (hz : n ≠ 0) (hn : n ≤ maxUInt32)
    (hx : x.magnitude = (ofNat n).magnitude) :
    ∃ k : Nat, k ≤ 11 ∧ x.startGrid = (k : Int) := by
  have hlt : n < exactLimit := Nat.lt_of_le_of_lt hn maxUInt32_lt
  have hlog : Nat.log2 n < 32 :=
    (Nat.log2_lt hz).mpr (Nat.lt_of_le_of_lt hn (by decide))
  refine ⟨Nat.log2 n * 30103 / 100000 + 2, by omega, ?_⟩
  unfold startGrid
  rw [units_of_magnitude hlt hx, log2_units hz]
  omega

theorem shortest_whole (tie : Tie) (hn : n ≤ maxUInt32)
    (hx : x.magnitude = (ofNat n).magnitude) :
    ∃ d j : Nat, shortest tie x = (d, (j : Int)) ∧ d * 10 ^ j = n ∧
      (n = 0 → j = 0) := by
  have hlt : n < exactLimit := Nat.lt_of_le_of_lt hn maxUInt32_lt
  by_cases hz : n = 0
  · subst hz
    have hzero : x.isZero = true := by
      rw [isZero, hx]
      decide +kernel
    exact ⟨0, 0, by rw [shortest, if_pos hzero]; rfl, rfl, fun _ => rfl⟩
  · have hzero : x.isZero = false := by
      rw [isZero, beq_eq_false_iff_ne]
      intro hcode
      have hunits := units_of_magnitude hlt hx
      rw [units, hcode] at hunits
      have hpos := Nat.mul_pos (Nat.pos_of_ne_zero hz) unitsPerOne_pos
      rw [← hunits] at hpos
      exact absurd hpos (by decide)
    obtain ⟨k, hk, hstart⟩ := startGrid_whole hz hn hx
    have hpow : 10 ^ k ≤ 10 ^ 11 := Nat.pow_le_pow_right (by decide) hk
    have hbound : n + 10 ^ k < exactLimit := by
      have : maxUInt32 + 10 ^ 11 < exactLimit := by decide
      omega
    obtain ⟨d, j, hsearch, hd⟩ :=
      search_whole tie hx k 24 (by omega) hbound
    refine ⟨d, j, ?_, hd, fun h => absurd h hz⟩
    rw [shortest, hzero, hstart, hsearch]
    rfl

/-! ## Digits -/

theorem digitsOf_mul_pow {d : Nat} (hd : 0 < d) (j : Nat) :
    digitsOf d ++ zeros j = digitsOf (d * 10 ^ j) := by
  induction j with
  | zero => simp [zeros]
  | succ j ih =>
      have hpos : 0 < d * 10 ^ j := Nat.mul_pos hd (Nat.pow_pos (by decide))
      have hstep := Nat.toDigits_append_toDigits (b := 10) (d := 0)
        (by decide) hpos (by decide)
      rw [Nat.toDigits_zero, Nat.add_zero] at hstep
      rw [zeros, List.replicate_succ', ← zeros, ← List.append_assoc, ih,
        Nat.pow_succ, ← Nat.mul_assoc, Nat.mul_comm (d * 10 ^ j)]
      exact hstep

theorem finiteText_whole (hn : n ≤ maxUInt32)
    (hx : x.magnitude = (ofNat n).magnitude) :
    stored.finiteText x = digitsOf n ++ ['.', '0'] := by
  obtain ⟨d, j, hshortest, hd, hzero⟩ :=
    shortest_whole stored.tie hn hx
  have hdigits : digitsOf d ++ zeros j = digitsOf n := by
    rcases Nat.eq_zero_or_pos d with rfl | hpos
    · rw [Nat.zero_mul] at hd
      rw [hzero hd.symm, ← hd]
      rfl
    · rw [digitsOf_mul_pow hpos, hd]
  have hlen : (digitsOf d).length + j ≤ 10 := by
    have hle : (digitsOf n).length ≤ 10 :=
      (Nat.length_toDigits_le_iff (by decide) (by decide)).mpr
        (Nat.lt_of_le_of_lt hn (by decide))
    rw [← hdigits, List.length_append, zeros, List.length_replicate] at hle
    exact hle
  unfold Format.finiteText
  rw [hshortest]
  simp only [stored]
  rw [if_pos (by omega), positionalText, if_pos (Int.natCast_nonneg j),
    Int.toNat_natCast, hdigits]
  rfl

/-- The stored text of a whole number of 32 bits. -/
theorem stored_text_whole {x : Number} (hx : IsSmallWhole x) :
    stored.text x = (if x.negative then ['-'] else []) ++
      digitsOf x.wholePart ++ ['.', '0'] := by
  obtain ⟨hwhole, hle⟩ := hx
  have hmagnitude := congrArg magnitude (eq_withSign_ofNat hwhole)
  rw [magnitude_withSign] at hmagnitude
  have hfinite : x.isFinite = true := (isWhole_iff.mp hwhole).1
  have hnan : x.isNaN = false := isNaN_of_isFinite hfinite
  have hinf : x.isInfinite = false := isInfinite_of_isFinite hfinite
  unfold Format.text
  rw [hnan, hinf, finiteText_whole hle hmagnitude]
  cases x.negative <;> rfl

end PageShell.Number
