import Mathlib.Order.Bounds.Basic
import Mathlib.Tactic.Ring

/-!
# Points at equal distances

The points of a grid are those that differ from one of them by multiples of a step.  Before and
after every number there is a nearest one.
-/

namespace Grid

variable {step origin s t : ℤ}

/-- The points up to a number. -/
def upTo (step origin t : ℤ) : Set ℤ := {s | s ≤ t ∧ step ∣ s - origin}

/-- The points from a number on. -/
def onwards (step origin t : ℤ) : Set ℤ := {s | t ≤ s ∧ step ∣ s - origin}

/-- Two points are a step apart, unless they are one. -/
theorem add_le_of_lt {s s' : ℤ} (hs : step ∣ s - origin) (hs' : step ∣ s' - origin) (h : s < s') :
    s + step ≤ s' := by
  have hdvd : step ∣ s' - s := by
    have hsub := Int.dvd_sub hs' hs
    rwa [sub_sub_sub_cancel_right] at hsub
  have hle := Int.le_of_dvd (by omega) hdvd
  omega

/-- The last point up to a number is less than a step before it. -/
theorem isGreatest_iff (hstep : 0 < step) :
    IsGreatest (upTo step origin t) s ↔ step ∣ s - origin ∧ s ≤ t ∧ t < s + step := by
  constructor
  · rintro ⟨⟨hle, hs⟩, hgreatest⟩
    refine ⟨hs, hle, ?_⟩
    by_contra hnext
    have hmem : s + step ∈ upTo step origin t := by
      refine ⟨by omega, ?_⟩
      rw [add_sub_right_comm]
      exact Int.dvd_add hs (Int.dvd_refl step)
    have hmax := hgreatest hmem
    omega
  · rintro ⟨hs, hle, hlt⟩
    refine ⟨⟨hle, hs⟩, ?_⟩
    rintro s' ⟨hle', hs'⟩
    by_contra hlater
    have hnext := add_le_of_lt hs hs' (by omega)
    omega

/-- The first point from a number on is less than a step after it. -/
theorem isLeast_iff (hstep : 0 < step) :
    IsLeast (onwards step origin t) s ↔ step ∣ s - origin ∧ t ≤ s ∧ s < t + step := by
  constructor
  · rintro ⟨⟨hle, hs⟩, hleast⟩
    refine ⟨hs, hle, ?_⟩
    by_contra hlast
    have hmem : s - step ∈ onwards step origin t := by
      refine ⟨by omega, ?_⟩
      rw [sub_right_comm]
      exact Int.dvd_sub hs (Int.dvd_refl step)
    have hmin := hleast hmem
    omega
  · rintro ⟨hs, hle, hlt⟩
    refine ⟨⟨hle, hs⟩, ?_⟩
    rintro s' ⟨hle', hs'⟩
    by_contra hearlier
    have hnext := add_le_of_lt hs' hs (by omega)
    omega

end Grid
