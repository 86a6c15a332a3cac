import Mathlib.Data.Nat.Bitwise
import Mathlib.Data.Nat.Size

/-!
# Rounding up to a power of two

The bits of a number are spread over all the bits below them, by shifts of doubling lengths.  What
comes out is one less than a power of two, and taking a number and it is taking the remainder.
-/

namespace Kungfu.Logic

/-- Every bit of `x` is in `y` at `n` places, its own and those below it. -/
def Covers (x y n : ℕ) : Prop := ∀ j, y.testBit j = true ↔ ∃ i < n, x.testBit (j + i) = true

variable {x y n : ℕ}

theorem Covers.one (x : ℕ) : Covers x x 1 := by
  intro j
  constructor
  · exact fun h => ⟨0, Nat.one_pos, h⟩
  · rintro ⟨i, hi, h⟩
    obtain rfl : i = 0 := by omega
    exact h

/-- A shift by as much as bits are spread already doubles it. -/
theorem Covers.spread (h : Covers x y n) : Covers x (y ||| y >>> n) (2 * n) := by
  intro j
  rw [Nat.testBit_or, Nat.testBit_shiftRight, Bool.or_eq_true, h, h]
  constructor
  · rintro (⟨i, hi, hbit⟩ | ⟨i, hi, hbit⟩)
    · exact ⟨i, by omega, hbit⟩
    · refine ⟨n + i, by omega, ?_⟩
      rwa [show j + (n + i) = n + j + i by omega]
  · rintro ⟨i, hi, hbit⟩
    by_cases hlt : i < n
    · exact .inl ⟨i, hlt, hbit⟩
    · refine .inr ⟨i - n, by omega, ?_⟩
      rwa [show n + j + (i - n) = j + i by omega]

/-- Bits that are spread over the whole of a number fill it. -/
theorem Covers.eq_two_pow_size_sub_one (h : Covers x y n) (hx : x < 2 ^ n) :
    y = 2 ^ x.size - 1 := by
  apply Nat.eq_of_testBit_eq
  intro j
  rw [Nat.testBit_two_pow_sub_one, Bool.eq_iff_iff, h, decide_eq_true_iff]
  constructor
  · rintro ⟨i, -, hbit⟩
    rw [Nat.lt_size]
    exact (Nat.pow_le_pow_right Nat.two_pos (Nat.le_add_right j i)).trans (Nat.ge_two_pow_of_testBit hbit)
  · intro hj
    -- the highest bit is not below this one
    obtain ⟨i, hi, hbit⟩ := Nat.exists_ge_and_testBit_of_ge_two_pow (Nat.lt_size.mp hj)
    obtain ⟨k, rfl⟩ := Nat.exists_eq_add_of_le hi
    refine ⟨k, ?_, hbit⟩
    have hlt : 2 ^ (j + k) < 2 ^ n := (Nat.ge_two_pow_of_testBit hbit).trans_lt hx
    have := (Nat.pow_lt_pow_iff_right (by decide)).mp hlt
    omega

end Kungfu.Logic
