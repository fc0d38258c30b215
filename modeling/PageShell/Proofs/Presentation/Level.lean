import PageShell.Proofs.Number.Conversion
import PageShell.Proofs.Presentation.Recognised

/-!
# The level of a heading

A heading may give its level as any number. Three things stand between the
number and the level that is shown: the reading as a whole number of 32 bits,
the clamp, and the default for what was not read. On the range of the reading
the clamp has the last word, so there the level is the value brought into the
range from one to six. Outside of the range the clamp is not asked. A value
too small or too large is not read at all, and the heading has the level of
one that gives none.

For whole values this makes the level a function of the exact value alone
(`levelFor`), with a step at either end of the range: from -1 to 0 it falls
from two to one, and past the greatest value of 32 bits from six to two.
-/

namespace PageShell

namespace Presentation

/-- The level shown for a whole value. -/
def levelFor (v : Int) : Nat :=
  if 0 ≤ v ∧ v ≤ Number.maxUInt32 then clampLevel v.toNat
  else standardLevel

theorem levelFor_of_readable {v : Int}
    (hv : 0 ≤ v ∧ v ≤ Number.maxUInt32) :
    (levelFor v : Int) = max 1 (min v 6) := by
  rw [levelFor, if_pos hv, clampLevel]
  omega

theorem levelFor_of_unreadable {v : Int}
    (hv : ¬(0 ≤ v ∧ v ≤ Number.maxUInt32)) : levelFor v = standardLevel :=
  if_neg hv

theorem levelFor_mono {v w : Int} (hv : 0 ≤ v) (hle : v ≤ w)
    (hw : w ≤ Number.maxUInt32) : levelFor v ≤ levelFor w := by
  have hlow := levelFor_of_readable ⟨hv, Int.le_trans hle hw⟩
  have hhigh := levelFor_of_readable ⟨Int.le_trans hv hle, hw⟩
  omega

end Presentation

namespace Element

open Presentation

/-- The element is a heading whose level is a number with the whole value
`v`. -/
def HasLevel (e : Element) (v : Int) : Prop :=
  e.name = "Heading" ∧ ∃ x, e.get? "level" = some (.number x) ∧ x.IsInteger v

variable {e : Element} {v : Int}

theorem HasLevel.headingLevel_eq (h : e.HasLevel v) :
    e.headingLevel = levelFor v := by
  obtain ⟨-, x, hget, hinteger⟩ := h
  have hread : e.natural? "level" = x.toUInt32? := natural?_of_get? hget
  rw [headingLevel, hread, Number.toUInt32?_of_isInteger hinteger, levelFor]
  split <;> rfl

theorem HasLevel.present_eq (h : e.HasLevel v) :
    e.present = .heading (levelFor v) e.children := by
  rw [← h.headingLevel_eq]
  unfold present
  rw [h.1]
  rfl

/-- A heading whose level has the whole value `v` is shown at `v` clamped to
the range from one to six if `v` is not negative and has 32 bits, and then a
greater value never has a smaller level; for any other `v` the level counts
as not given. -/
theorem level_is_clamped_where_it_is_read (h : e.HasLevel v) :
    ∃ level : Nat, e.present = .heading level e.children ∧
      (0 ≤ v ∧ v ≤ Number.maxUInt32 → (level : Int) = max 1 (min v 6)) ∧
      (¬(0 ≤ v ∧ v ≤ Number.maxUInt32) → level = standardLevel) ∧
      ∀ (f : Element) (w : Int), f.HasLevel w → 0 ≤ v → v ≤ w →
        w ≤ Number.maxUInt32 →
        ∃ level', f.present = .heading level' f.children ∧
          level ≤ level' := by
  refine ⟨levelFor v, h.present_eq, levelFor_of_readable,
    levelFor_of_unreadable, ?_⟩
  intro f w hf hv hle hw
  exact ⟨levelFor w, hf.present_eq, levelFor_mono hv hle hw⟩

/-- The empty heading that gives `v` as its level. -/
def headingAt (v : Int) : Element :=
  (named "Heading").set "level" (.number (Number.ofInt v))

theorem hasLevel_headingAt (hv : v.natAbs < Number.exactLimit) :
    (headingAt v).HasLevel v :=
  ⟨rfl, Number.ofInt v, rfl, Number.isInteger_ofInt hv⟩

theorem twelfth_level_is_sixth :
    (headingAt 4).HasLevel 4 ∧ (headingAt 12).HasLevel 12 ∧
      (headingAt 4).present = .heading 4 [] ∧
      (headingAt 12).present = .heading 6 [] ∧
      ∃ level, (headingAt 12).present = .heading level [] ∧ 4 ≤ level := by
  have hfour : (headingAt 4).HasLevel 4 := hasLevel_headingAt (by decide)
  have htwelve : (headingAt 12).HasLevel 12 := hasLevel_headingAt (by decide)
  obtain ⟨level, hfourth, hclamped, -, hmono⟩ :=
    level_is_clamped_where_it_is_read hfour
  have hlevel : (level : Int) = 4 := hclamped (by decide)
  obtain rfl : level = 4 := by omega
  obtain ⟨level, htwelfth, hclamped, -, -⟩ :=
    level_is_clamped_where_it_is_read htwelve
  have hlevel : (level : Int) = 6 := hclamped (by decide)
  obtain rfl : level = 6 := by omega
  exact ⟨hfour, htwelve, hfourth, htwelfth,
    hmono _ 12 htwelve (by decide) (by decide) (by decide)⟩

/-- The level is not clamped below the range of the reading nor above it, and
at both ends it falls. -/
theorem level_is_not_always_clamped :
    (headingAt (-1)).HasLevel (-1) ∧
      (headingAt (-1)).present = .heading 2 [] ∧
      (headingAt 0).HasLevel 0 ∧
      (headingAt 0).present = .heading 1 [] ∧
      (headingAt 4294967295).HasLevel 4294967295 ∧
      (headingAt 4294967295).present = .heading 6 [] ∧
      (headingAt 4294967296).HasLevel 4294967296 ∧
      (headingAt 4294967296).present = .heading 2 [] ∧
      ¬∀ (e : Element) (v : Int), e.HasLevel v →
        ∃ level : Nat, e.present = .heading level e.children ∧
          (level : Int) = max 1 (min v 6) := by
  have hbelow : (headingAt (-1)).HasLevel (-1) :=
    hasLevel_headingAt (by decide)
  have hleast : (headingAt 0).HasLevel 0 := hasLevel_headingAt (by decide)
  have hmost : (headingAt 4294967295).HasLevel 4294967295 :=
    hasLevel_headingAt (by decide)
  have habove : (headingAt 4294967296).HasLevel 4294967296 :=
    hasLevel_headingAt (by decide)
  refine ⟨hbelow, hbelow.present_eq, hleast, hleast.present_eq, hmost,
    hmost.present_eq, habove, habove.present_eq, fun hclamped => ?_⟩
  obtain ⟨level, hpresent, hlevel⟩ := hclamped _ _ hbelow
  rw [hbelow.present_eq] at hpresent
  cases hpresent
  exact absurd hlevel (by decide)

end Element

end PageShell
