import Kungfu.Logic.Grid

/-!
# Calendar days

Days are counted from the first of January 1970.  A day has a year, a month and a day of the
month in the Gregorian calendar, before 1970 and before its introduction as well.  Months are
counted from zero; a month past the last one belongs to a later year.
-/

namespace Calendar

/-! ## Years -/

/-- A year of 366 days. -/
def isLeap (y : ℤ) : Bool := y % 4 = 0 && (y % 100 ≠ 0 || y % 400 = 0)

/-- The first of January. -/
def jan1 (y : ℤ) : ℤ := 365 * (y - 1970) + ((y - 1) / 4 - (y - 1) / 100 + (y - 1) / 400) - 477

theorem jan1_succ (y : ℤ) : jan1 (y + 1) = jan1 y + if isLeap y then 366 else 365 := by
  simp only [jan1, isLeap, Bool.and_eq_true, Bool.or_eq_true, decide_eq_true_eq]
  split <;> omega

theorem jan1_lt_succ (y : ℤ) : jan1 y < jan1 (y + 1) := by
  rw [jan1_succ]
  split <;> omega

theorem jan1_mono {y y' : ℤ} (h : y ≤ y') : jan1 y ≤ jan1 y' := by
  simp only [jan1]
  omega

/-- A year is 365.2425 days long in the mean. -/
theorem jan1_mean (y : ℤ) :
    146097 * (y - 1970) - 506 ≤ 400 * jan1 y ∧ 400 * jan1 y ≤ 146097 * (y - 1970) + 589 := by
  simp only [jan1]
  omega

/-- The year of a day: a guess from the mean length of a year, and its correction. -/
def yearOf (d : ℤ) : ℤ :=
  let y := 1970 + 400 * d / 146097
  if d < jan1 y then y - 1 else if jan1 (y + 1) ≤ d then y + 1 else y

theorem jan1_yearOf (d : ℤ) : jan1 (yearOf d) ≤ d ∧ d < jan1 (yearOf d + 1) := by
  simp only [yearOf]
  generalize hy : 1970 + 400 * d / 146097 = y
  have hbefore := jan1_mean (y - 1)
  have hafter := jan1_mean (y + 1 + 1)
  split
  · rw [sub_add_cancel]
    omega
  · split
    · omega
    · omega

theorem yearOf_eq_iff {d y : ℤ} : yearOf d = y ↔ jan1 y ≤ d ∧ d < jan1 (y + 1) := by
  obtain ⟨hle, hlt⟩ := jan1_yearOf d
  constructor
  · rintro rfl
    exact ⟨hle, hlt⟩
  · rintro ⟨hle', hlt'⟩
    rcases lt_trichotomy (yearOf d) y with h | h | h
    · have hnext : jan1 (yearOf d + 1) ≤ jan1 y := jan1_mono (by omega)
      omega
    · exact h
    · have hnext : jan1 (y + 1) ≤ jan1 (yearOf d) := jan1_mono (by omega)
      omega

/-! ## Months -/

/-- The days of a month. -/
def monthLength (leap : Bool) : ℕ → ℤ
  | 1 => if leap then 29 else 28
  | 3 | 5 | 8 | 10 => 30
  | _ => 31

/-- The days of a year before a month. -/
def daysBefore (leap : Bool) : ℕ → ℤ
  | 0 => 0
  | m + 1 => daysBefore leap m + monthLength leap m

/-- The first day of a month. -/
def firstOf (y m : ℤ) : ℤ := jan1 (y + m / 12) + daysBefore (isLeap (y + m / 12)) (m % 12).toNat

theorem monthLength_bounds (leap : Bool) (m : ℕ) :
    28 ≤ monthLength leap m ∧ monthLength leap m ≤ 31 := by
  cases leap <;> simp only [monthLength] <;> split <;> decide

theorem firstOf_zero (y : ℤ) : firstOf y 0 = jan1 y := by simp [firstOf, daysBefore]

theorem firstOf_twelve (y : ℤ) : firstOf y 12 = jan1 (y + 1) := by simp [firstOf, daysBefore]

theorem firstOf_succ (y m : ℤ) :
    firstOf y (m + 1) = firstOf y m + monthLength (isLeap (y + m / 12)) (m % 12).toNat := by
  by_cases hlast : m % 12 = 11
  · have hyear : y + (m + 1) / 12 = y + m / 12 + 1 := by omega
    have hmonth : (m + 1) % 12 = 0 := by omega
    rw [firstOf, firstOf, hyear, hmonth, hlast, jan1_succ]
    cases isLeap (y + m / 12)
    · simp [daysBefore, monthLength]
      omega
    · simp [daysBefore, monthLength]
      omega
  · have hyear : (m + 1) / 12 = m / 12 := by omega
    have hmonth : ((m + 1) % 12).toNat = (m % 12).toNat + 1 := by omega
    rw [firstOf, firstOf, hyear, hmonth, daysBefore]
    omega

/-- A month has 28 days at least, and 31 at most. -/
theorem firstOf_bounds (y m : ℤ) :
    firstOf y m + 28 ≤ firstOf y (m + 1) ∧ firstOf y (m + 1) ≤ firstOf y m + 31 := by
  have hlength := monthLength_bounds (isLeap (y + m / 12)) (m % 12).toNat
  rw [firstOf_succ]
  omega

theorem firstOf_add_le (y m : ℤ) (n : ℕ) : firstOf y m + 28 * n ≤ firstOf y (m + n) := by
  induction n with
  | zero => simp
  | succ n ih =>
      have hnext := (firstOf_bounds y (m + n)).1
      push_cast at *
      rw [← add_assoc]
      omega

theorem firstOf_lt {y m m' : ℤ} (h : m < m') : firstOf y m + 28 * (m' - m) ≤ firstOf y m' := by
  have hle := firstOf_add_le y m (m' - m).toNat
  rw [Int.toNat_of_nonneg (by omega), add_sub_cancel] at hle
  exact hle

/-- The month of a day. -/
def monthOf (d : ℤ) : ℕ := (List.range 11).countP fun m : ℕ => firstOf (yearOf d) (m + 1) ≤ d

/-- The months that begin by a day, of the first ones after January. -/
theorem firstOf_countP {y d : ℤ} (hle : jan1 y ≤ d) (n : ℕ) :
    ∃ k : ℕ, (List.range n).countP (fun m : ℕ => firstOf y (m + 1) ≤ d) = k ∧ k ≤ n ∧
      firstOf y k ≤ d ∧ (k < n → d < firstOf y (k + 1)) := by
  induction n with
  | zero => exact ⟨0, rfl, le_rfl, by simpa [firstOf_zero] using hle, fun h => by omega⟩
  | succ n ih =>
      obtain ⟨k, hcount, hkn, hfirst, hnext⟩ := ih
      by_cases hd : firstOf y (n + 1) ≤ d
      · have hall : k = n := by
          by_contra hne
          have hlater := @firstOf_lt y (k + 1) (n + 1) (by omega)
          have hbefore := hnext (by omega)
          omega
        subst hall
        refine ⟨k + 1, ?_, le_rfl, by exact_mod_cast hd, fun h => by omega⟩
        simp [List.range_succ, hcount, hd]
      · refine ⟨k, by simp [List.range_succ, hcount, hd], by omega, hfirst, fun _ => ?_⟩
        by_cases hlast : k = n
        · rw [hlast]
          omega
        · exact hnext (by omega)

/-- A day lies in its month. -/
theorem firstOf_monthOf (d : ℤ) : firstOf (yearOf d) (monthOf d) ≤ d ∧
    d < firstOf (yearOf d) (monthOf d + 1) ∧ monthOf d ≤ 11 := by
  obtain ⟨hle, hlt⟩ := jan1_yearOf d
  obtain ⟨k, hcount, hk, hfirst, hnext⟩ := firstOf_countP hle 11
  rw [monthOf, hcount]
  refine ⟨hfirst, ?_, hk⟩
  by_cases hlast : k = 11
  · subst hlast
    simpa [firstOf_twelve] using hlt
  · exact hnext (by omega)

/-! ## Weeks -/

/-- The day of the week, counted from Sunday; the first of January 1970 is a Thursday. -/
def weekday (d : ℤ) : ℤ := (d + 4) % 7

/-- The first Sunday from a day on. -/
def sundayFrom (d : ℤ) : ℤ := d + (7 - weekday d) % 7

theorem sundayFrom_bounds (d : ℤ) : d ≤ sundayFrom d ∧ sundayFrom d < d + 7 := by
  simp only [sundayFrom, weekday]
  omega

/-- The fourth of January 1970 is a Sunday, and the others are weeks apart from it. -/
theorem isLeast_sundayFrom (d : ℤ) : IsLeast (Grid.onwards 7 3 d) (sundayFrom d) := by
  rw [Grid.isLeast_iff (by decide)]
  refine ⟨?_, sundayFrom_bounds d⟩
  simp only [sundayFrom, weekday]
  omega

end Calendar
