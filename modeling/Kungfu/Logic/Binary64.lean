import Mathlib.Algebra.Order.Ring.Rat
import Mathlib.Data.Int.Log
import Mathlib.Data.Rat.Floor
import Mathlib.Tactic.FieldSimp
import Mathlib.Tactic.Linarith
import Mathlib.Tactic.NormNum
import Mathlib.Tactic.Positivity

/-!
# Double precision

A rational number is rounded to the nearest one of 53 binary digits, in the middle of two to the
even one.  Below the digits end at `2 ^ (-1074)`, above they do not: a result that would be infinite
is outside of this format.  A `Binary64` is a number that rounding keeps, and its operations are
the exact ones, rounded.
-/

namespace Kungfu.Logic

namespace Binary64

/-- The nearest integer, in the middle of two the even one. -/
def roundEven (x : ℚ) : ℤ :=
  if x - ⌊x⌋ < 1 / 2 then ⌊x⌋
  else if 1 / 2 < x - ⌊x⌋ then ⌊x⌋ + 1
  else if ⌊x⌋ % 2 = 0 then ⌊x⌋
  else ⌊x⌋ + 1

/-- The place of the last binary digit that is kept. -/
def lastPlace (x : ℚ) : ℤ := max (Int.log 2 |x| - 52) (-1074)

/-- The nearest double. -/
def round (x : ℚ) : ℚ := roundEven (x / 2 ^ lastPlace x) * 2 ^ lastPlace x

/-! ## Integers -/

@[simp] theorem roundEven_intCast (n : ℤ) : roundEven n = n := by
  simp [roundEven]

theorem abs_roundEven_sub_le (x : ℚ) : |(roundEven x : ℚ) - x| ≤ 1 / 2 := by
  have hle := Int.floor_le x
  have hlt := Int.lt_floor_add_one x
  unfold roundEven
  split_ifs with hbelow habove heven
  all_goals
    push_cast
    exact abs_le.mpr ⟨by linarith, by linarith⟩

theorem roundEven_le {x : ℚ} {n : ℤ} (h : x ≤ n) : roundEven x ≤ n := by
  have hround := (abs_le.mp (abs_roundEven_sub_le x)).2
  have hlt : (roundEven x : ℚ) < (n + 1 : ℤ) := by
    push_cast
    linarith
  exact Int.lt_add_one_iff.mp (by exact_mod_cast hlt)

theorem le_roundEven {x : ℚ} {n : ℤ} (h : (n : ℚ) ≤ x) : n ≤ roundEven x := by
  have hround := (abs_le.mp (abs_roundEven_sub_le x)).1
  have hlt : ((n - 1 : ℤ) : ℚ) < roundEven x := by
    push_cast
    linarith
  exact Int.sub_one_lt_iff.mp (by exact_mod_cast hlt)

theorem abs_roundEven_le {x : ℚ} {n : ℤ} (h : |x| ≤ n) : |roundEven x| ≤ n := by
  obtain ⟨hlo, hhi⟩ := abs_le.mp h
  exact abs_le.mpr ⟨le_roundEven (by push_cast; exact hlo), roundEven_le hhi⟩

/-! ## The error -/

theorem two_zpow_pos (e : ℤ) : (0 : ℚ) < 2 ^ e := zpow_pos two_pos e

theorem abs_round_sub_le (x : ℚ) : |round x - x| ≤ 2 ^ lastPlace x / 2 := by
  have hpos := two_zpow_pos (lastPlace x)
  have hround := abs_roundEven_sub_le (x / 2 ^ lastPlace x)
  have heq : round x - x =
      (roundEven (x / 2 ^ lastPlace x) - x / 2 ^ lastPlace x) * 2 ^ lastPlace x := by
    rw [round, sub_mul, div_mul_cancel₀ _ hpos.ne']
  rw [heq, abs_mul, abs_of_pos hpos]
  calc _ ≤ 1 / 2 * 2 ^ lastPlace x := mul_le_mul_of_nonneg_right hround hpos.le
    _ = _ := by ring

theorem two_zpow_lastPlace_le {x : ℚ} (hx : x ≠ 0) :
    (2 : ℚ) ^ lastPlace x ≤ |x| / 2 ^ 52 + 2 ^ (-1074 : ℤ) := by
  rcases max_choice (Int.log 2 |x| - 52) (-1074) with hmax | hmax
  · have hlog : (2 : ℚ) ^ Int.log 2 |x| ≤ |x| := by
      exact_mod_cast Int.zpow_log_le_self one_lt_two (abs_pos.mpr hx)
    have hpos := two_zpow_pos (-1074)
    rw [lastPlace, hmax, zpow_sub₀ two_ne_zero]
    calc _ ≤ |x| / 2 ^ (52 : ℤ) := div_le_div_of_nonneg_right hlog (two_zpow_pos 52).le
      _ = |x| / 2 ^ 52 := by norm_cast
      _ ≤ _ := by linarith
  · have hpos : 0 ≤ |x| / 2 ^ 52 := by positivity
    rw [lastPlace, hmax]
    linarith

@[simp] theorem round_zero : round 0 = 0 := by simp [round, roundEven]

/-- Rounding changes the first 53 binary digits by at most half of the last one. -/
theorem abs_round_sub_le_div (x : ℚ) : |round x - x| ≤ |x| / 2 ^ 53 + 2 ^ (-1075 : ℤ) := by
  rcases eq_or_ne x 0 with rfl | hx
  · rw [round_zero, sub_zero, abs_zero, zero_div, zero_add]
    exact (two_zpow_pos _).le
  · have hround := abs_round_sub_le x
    have hplace := two_zpow_lastPlace_le hx
    have hhalf : (2 : ℚ) ^ (-1075 : ℤ) = 2 ^ (-1074 : ℤ) / 2 := by
      rw [show (-1075 : ℤ) = -1074 - 1 by norm_num, zpow_sub_one₀ two_ne_zero, div_eq_mul_inv]
    rw [hhalf]
    calc _ ≤ (2 : ℚ) ^ lastPlace x / 2 := hround
      _ ≤ (|x| / 2 ^ 52 + 2 ^ (-1074 : ℤ)) / 2 := by linarith
      _ = _ := by ring

/-! ## What rounding keeps -/

theorem abs_eq_of_le_log {n e : ℤ} (hne : n ≠ 0) (hn : |n| ≤ 2 ^ 53)
    (hlog : e + 53 ≤ Int.log 2 |(n : ℚ) * 2 ^ e|) : |n| = 2 ^ 53 := by
  have hpos := two_zpow_pos e
  have hle : (2 : ℚ) ^ (e + 53) ≤ |(n : ℚ) * 2 ^ e| := by
    have hx : 0 < |(n : ℚ) * 2 ^ e| := abs_pos.mpr (mul_ne_zero (by exact_mod_cast hne) hpos.ne')
    exact_mod_cast (Int.zpow_le_iff_le_log one_lt_two hx).mpr hlog
  rw [abs_mul, abs_of_pos hpos, zpow_add₀ two_ne_zero, mul_comm] at hle
  have hge : (2 : ℚ) ^ (53 : ℤ) ≤ |(n : ℚ)| := le_of_mul_le_mul_right hle hpos
  exact le_antisymm hn (by exact_mod_cast hge)

/-- A number of 53 binary digits is kept. -/
theorem round_mul_zpow {n e : ℤ} (hn : |n| ≤ 2 ^ 53) (he : -1074 ≤ e) :
    round (n * 2 ^ e) = n * 2 ^ e := by
  -- in units of its last place the number is an integer
  obtain ⟨m, hm⟩ : ∃ m : ℤ, (n : ℚ) * 2 ^ e / 2 ^ lastPlace (n * 2 ^ e) = m := by
    rcases le_or_gt (lastPlace (n * 2 ^ e)) e with hle | hlt
    · obtain ⟨k, hk⟩ := Int.eq_ofNat_of_zero_le (sub_nonneg.mpr hle)
      refine ⟨n * 2 ^ k, ?_⟩
      rw [mul_div_assoc, ← zpow_sub₀ two_ne_zero, hk]
      norm_cast
    · rcases eq_or_ne n 0 with rfl | hne
      · exact ⟨0, by simp⟩
      -- more digits there are in `2 ^ 53` only, which is even
      have hplace := hlt
      rw [lastPlace] at hplace
      obtain ⟨hlog, hmax⟩ : e + 53 ≤ Int.log 2 |(n : ℚ) * 2 ^ e| ∧
          lastPlace (n * 2 ^ e) = Int.log 2 |(n : ℚ) * 2 ^ e| - 52 := by
        unfold lastPlace
        omega
      have habs := abs_eq_of_le_log hne hn hlog
      have hpow : |(n : ℚ) * 2 ^ e| = 2 ^ (e + 53) := by
        rw [abs_mul, abs_of_pos (two_zpow_pos e), zpow_add₀ two_ne_zero, mul_comm, ← Int.cast_abs,
          habs]
        norm_cast
      have hlast : lastPlace (n * 2 ^ e) = e + 1 := by
        rw [hmax, hpow, show (2 : ℚ) = ((2 : ℕ) : ℚ) by rfl, Int.log_zpow one_lt_two]
        ring
      rw [hlast, zpow_add_one₀ two_ne_zero, mul_comm (2 ^ e) 2,
        mul_div_mul_right _ _ (two_zpow_pos e).ne']
      rcases (abs_eq (by positivity)).mp habs with rfl | rfl
      · exact ⟨2 ^ 52, by norm_num⟩
      · exact ⟨-2 ^ 52, by norm_num⟩
  rw [round, hm, roundEven_intCast, ← hm, div_mul_cancel₀ _ (two_zpow_pos _).ne']

theorem round_round (x : ℚ) : round (round x) = round x := by
  have hle : |x / 2 ^ lastPlace x| ≤ (2 ^ 53 : ℤ) := by
    have hlog : |x| < 2 ^ (Int.log 2 |x| + 1) := by
      exact_mod_cast Int.lt_zpow_succ_log_self one_lt_two |x|
    have hplace : Int.log 2 |x| + 1 ≤ lastPlace x + 53 := by
      unfold lastPlace
      omega
    rw [abs_div, abs_of_pos (two_zpow_pos _), div_le_iff₀ (two_zpow_pos _)]
    calc |x| ≤ 2 ^ (Int.log 2 |x| + 1) := hlog.le
      _ ≤ 2 ^ (lastPlace x + 53) := zpow_le_zpow_right₀ one_le_two hplace
      _ = _ := by
        rw [zpow_add₀ two_ne_zero, mul_comm]
        norm_cast
  exact round_mul_zpow (abs_roundEven_le hle) (le_max_right _ _)

end Binary64

/-- A number of double precision. -/
structure Binary64 where
  val : ℚ
  round_val : Binary64.round val = val
  deriving DecidableEq

namespace Binary64

/-- The number of double precision next to a rational one. -/
def ofRat (x : ℚ) : Binary64 := ⟨Binary64.round x, Binary64.round_round x⟩

instance : IntCast Binary64 := ⟨fun n => ofRat n⟩

instance (n : ℕ) : OfNat Binary64 n := ⟨ofRat n⟩

instance : Add Binary64 := ⟨fun x y => ofRat (x.val + y.val)⟩

instance : Sub Binary64 := ⟨fun x y => ofRat (x.val - y.val)⟩

instance : Mul Binary64 := ⟨fun x y => ofRat (x.val * y.val)⟩

instance : Div Binary64 := ⟨fun x y => ofRat (x.val / y.val)⟩

instance : Neg Binary64 := ⟨fun x => ofRat (-x.val)⟩

instance : LT Binary64 := ⟨fun x y => x.val < y.val⟩

instance : LE Binary64 := ⟨fun x y => x.val ≤ y.val⟩

instance : DecidableLT Binary64 := fun x y => inferInstanceAs (Decidable (x.val < y.val))

instance : DecidableLE Binary64 := fun x y => inferInstanceAs (Decidable (x.val ≤ y.val))

instance : Min Binary64 := minOfLe

instance : Max Binary64 := maxOfLe

end Binary64

end Kungfu.Logic
