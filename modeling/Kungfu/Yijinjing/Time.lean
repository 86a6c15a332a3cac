import Kungfu.Logic.Checked
import Kungfu.Logic.Grid

/-!
# Days

The days of the exchanges start at midnight in UTC+8, which is 16:00 UTC.  `calendar_day_start`
cuts a time to its day in UTC, and takes the offset away afterwards; from 16:00 UTC on, the day
that it finds is over.  `next_trading_day_end` cuts in the same way, and then asks the clock whether
the day is over, and not its argument.
-/

namespace Kungfu.Yijinjing

/-! ## The functions -/

namespace TimeUnit

def nanosecondsPerSecond : Int64 := 1000 * 1000 * 1000
def secondsPerMinute : Int64 := 60
def minutesPerHour : Int64 := 60
def hoursPerDay : Int64 := 24
def secondsPerHour : Int64 := secondsPerMinute * minutesPerHour
def nanosecondsPerMinute : Int64 := nanosecondsPerSecond * secondsPerMinute
def nanosecondsPerHour : Int64 := nanosecondsPerSecond * secondsPerHour
def nanosecondsPerDay : Int64 := nanosecondsPerHour * hoursPerDay
def utcOffset : Int64 := nanosecondsPerHour * 8

end TimeUnit

open TimeUnit

/-- `time::calendar_day_start`. -/
def calendarDayStart (nanotime : Int64) : Int64 :=
  nanotime - nanotime % nanosecondsPerDay - utcOffset

/-- `time::today_start`; `now` is what `now_in_nano` returns. -/
def todayStart (now : Int64) : Int64 := calendarDayStart now

/-- The end of trading on the day of a time in UTC. -/
def tradingDay (nanotime : Int64) : Int64 :=
  nanotime - nanotime % nanosecondsPerDay - utcOffset +
    (15 * nanosecondsPerHour + 30 * nanosecondsPerMinute)

/-- `time::next_trading_day_end`; there is no result if the last sum overflows. -/
def nextTradingDayEnd (now nanotime : Int64) : Option Int64 :=
  if tradingDay nanotime < now then Checked.add (tradingDay nanotime) nanosecondsPerDay
  else some (tradingDay nanotime)

/-! ## What they are to find -/

/-- The nanoseconds of an hour. -/
def hour : ℤ := 3600000000000

/-- The nanoseconds of a day. -/
def day : ℤ := 24 * hour

/-- The greatest instant up to a time that is midnight in UTC+8. -/
def IsDayStart (t s : Int64) : Prop := IsGreatest (Grid.upTo day (-8 * hour) t.toInt) s.toInt

/-- The day of a time in UTC+8, counted from the first of 1970. -/
def dayOf (t : Int64) : ℤ := (t.toInt + 8 * hour) / day

/-- Times of one day in UTC+8. -/
def SameDay (s t : Int64) : Prop := dayOf s = dayOf t

/-- The first instant from a time on that is 15:30 in UTC+8. -/
def IsTradingDayEnd (t e : Int64) : Prop :=
  IsLeast (Grid.onwards day (15 * hour + hour / 2 - 8 * hour) t.toInt) e.toInt

/-- 15:30 in UTC+8, on the day of a time in UTC. -/
def closing (t : Int64) : ℤ := t.toInt - t.toInt % day + 7 * hour + hour / 2

/-- The day in UTC has not reached the next midnight in UTC+8. -/
def BeforeNight (t : Int64) : Prop := t.toInt % day < 16 * hour

instance : DecidablePred BeforeNight := fun _ => inferInstanceAs (Decidable (_ < _))

/-! ## What they find -/

variable {t t' : Int64}

theorem toInt_utcDay (ht : 0 ≤ t) :
    (t - t % nanosecondsPerDay).toInt = t.toInt - t.toInt % day := by
  have hnonneg : 0 ≤ t.toInt := Int64.le_iff_toInt_le.mp ht
  have hbound := t.toInt_lt
  have hday : nanosecondsPerDay.toInt = day := by decide
  rw [Int64.toInt_sub, Int64.toInt_mod, hday, Int.tmod_eq_emod_of_nonneg hnonneg]
  apply Int.bmod_eq_of_le
  all_goals
    simp only [day, hour]
    omega

theorem toInt_calendarDayStart (ht : 0 ≤ t) :
    (calendarDayStart t).toInt = t.toInt - t.toInt % day - 8 * hour := by
  have hnonneg : 0 ≤ t.toInt := Int64.le_iff_toInt_le.mp ht
  have hbound := t.toInt_lt
  have hoffset : utcOffset.toInt = 8 * hour := by decide
  rw [calendarDayStart, Int64.toInt_sub, toInt_utcDay ht, hoffset]
  apply Int.bmod_eq_of_le
  all_goals
    simp only [day, hour]
    omega

theorem toInt_tradingDay (ht : 0 ≤ t) : (tradingDay t).toInt = closing t := by
  have hnonneg : 0 ≤ t.toInt := Int64.le_iff_toInt_le.mp ht
  have hbound := t.toInt_lt
  have hend : (15 * nanosecondsPerHour + 30 * nanosecondsPerMinute).toInt =
      15 * hour + hour / 2 := by decide
  have hstart := toInt_calendarDayStart ht
  rw [calendarDayStart] at hstart
  rw [tradingDay, Int64.toInt_add, hstart, hend]
  have hsum : t.toInt - t.toInt % day - 8 * hour + (15 * hour + hour / 2) = closing t := by
    rw [closing]
    omega
  rw [hsum]
  apply Int.bmod_eq_of_le
  all_goals
    simp only [closing, day, hour]
    omega

theorem isDayStart_iff (ht : 0 ≤ t) : IsDayStart t (calendarDayStart t) ↔ BeforeNight t := by
  rw [IsDayStart, Grid.isGreatest_iff (by decide), toInt_calendarDayStart ht, BeforeNight]
  simp only [day, hour]
  omega

/-- From the start that is found on, a time is less than a day away. -/
theorem within_day_iff (ht : 0 ≤ t) :
    (0 ≤ t.toInt - (calendarDayStart t).toInt ∧ t.toInt - (calendarDayStart t).toInt < day) ↔
      BeforeNight t := by
  rw [toInt_calendarDayStart ht, BeforeNight]
  simp only [day, hour]
  omega

theorem calendarDayStart_mono (ht : 0 ≤ t) (htt' : t ≤ t') :
    calendarDayStart t ≤ calendarDayStart t' := by
  have hle := Int64.le_iff_toInt_le.mp htt'
  rw [Int64.le_iff_toInt_le, toInt_calendarDayStart ht,
    toInt_calendarDayStart (Int64.le_trans ht htt')]
  simp only [day, hour]
  omega

/-- A start of a day that is not the first one has the one before for its start. -/
theorem calendarDayStart_idem_iff (ht : 0 ≤ t) :
    calendarDayStart (calendarDayStart t) = calendarDayStart t ↔ t.toInt < day := by
  have hnonneg : 0 ≤ t.toInt := Int64.le_iff_toInt_le.mp ht
  have hstart := toInt_calendarDayStart ht
  by_cases hday : t.toInt < day
  · have hfirst : calendarDayStart t = -8 * nanosecondsPerHour := by
      rw [← Int64.toInt_inj, hstart, Int.emod_eq_of_lt hnonneg hday]
      have hoffset : (-8 * nanosecondsPerHour).toInt = - (8 * hour) := by decide
      omega
    rw [hfirst]
    exact iff_of_true (by decide) hday
  · have hpos : 0 ≤ calendarDayStart t := by
      rw [Int64.le_iff_toInt_le, hstart]
      simp only [day, hour] at hday ⊢
      have hzero : (0 : Int64).toInt = 0 := rfl
      omega
    rw [← Int64.toInt_inj, toInt_calendarDayStart hpos, hstart]
    simp only [day, hour] at hday ⊢
    omega

theorem sameDay_iff (ht : 0 ≤ t) : SameDay (todayStart t) t ↔ BeforeNight t := by
  rw [SameDay, dayOf, dayOf, todayStart, toInt_calendarDayStart ht, BeforeNight]
  simp only [day, hour]
  omega

/-- The end of trading is found if the clock is on the same side of 15:30 as the time, as long as
the end can be represented. -/
theorem isTradingDayEnd_iff (now : Int64) (ht : 0 ≤ t) :
    (∃ e, nextTradingDayEnd now t = some e ∧ IsTradingDayEnd t e) ↔
      (closing t < now.toInt ↔ closing t < t.toInt) ∧
        (closing t < t.toInt → Checked.Representable (closing t + day)) := by
  have hend := toInt_tradingDay ht
  have hday : nanosecondsPerDay.toInt = day := by decide
  have hfirst : IsTradingDayEnd t (tradingDay t) ↔ ¬ closing t < t.toInt := by
    rw [IsTradingDayEnd, Grid.isLeast_iff (by decide), hend]
    simp only [closing, day, hour]
    omega
  have hsecond (e : Int64) (he : e.toInt = closing t + day) :
      IsTradingDayEnd t e ↔ closing t < t.toInt := by
    rw [IsTradingDayEnd, Grid.isLeast_iff (by decide), he]
    simp only [closing, day, hour]
    omega
  by_cases hnow : closing t < now.toInt
  · have hpast : tradingDay t < now := by rwa [Int64.lt_iff_toInt_lt, hend]
    have hresult (e : Int64) : nextTradingDayEnd now t = some e ↔ e.toInt = closing t + day := by
      rw [nextTradingDayEnd, if_pos hpast, Checked.add, Checked.ofInt?_eq_some_iff, hend, hday]
    rw [iff_true_left hnow]
    constructor
    · rintro ⟨e, he, htrading⟩
      rw [hresult] at he
      exact ⟨(hsecond e he).mp htrading, fun _ => he ▸ Checked.representable_toInt e⟩
    · rintro ⟨hlt, hfits⟩
      obtain ⟨e, -, he⟩ := Checked.exists_ofInt? (hfits hlt)
      exact ⟨e, (hresult e).mpr he, (hsecond e he).mpr hlt⟩
  · have hpast : ¬ tradingDay t < now := by rwa [Int64.lt_iff_toInt_lt, hend]
    have hresult (e : Int64) : nextTradingDayEnd now t = some e ↔ tradingDay t = e := by
      rw [nextTradingDayEnd, if_neg hpast, Option.some_inj]
    simp only [hresult, exists_eq_left', hfirst]
    rw [iff_false_left hnow]
    exact ⟨fun hlt => ⟨hlt, fun hlt' => absurd hlt' hlt⟩, fun h => h.1⟩

/-- Whatever the time, the clock decides. -/
theorem exists_nextTradingDayEnd_ne (ht : 0 ≤ t) :
    ∃ now now', nextTradingDayEnd now t ≠ nextTradingDayEnd now' t := by
  have hend := toInt_tradingDay ht
  have hday : nanosecondsPerDay.toInt = day := by decide
  have hlt : tradingDay t < Int64.maxValue := by
    have hmax : Int64.maxValue.toInt = 9223372036854775807 := by decide
    have hbound := t.toInt_lt
    rw [Int64.lt_iff_toInt_lt, hend, hmax]
    simp only [closing, day, hour]
    omega
  refine ⟨Int64.maxValue, tradingDay t, ?_⟩
  rw [nextTradingDayEnd, if_pos hlt, nextTradingDayEnd, if_neg Int64.lt_irrefl, Checked.add, hday]
  intro h
  have heq := Checked.ofInt?_eq_some_iff.mp h
  simp only [day, hour] at heq
  omega

/-- For which times the functions find what they are to find. -/
theorem calendar_iff (ht : 0 ≤ t) {now : Int64} (hnow : 0 ≤ now) :
    (IsDayStart t (calendarDayStart t) ↔ BeforeNight t) ∧
      ((0 ≤ t.toInt - (calendarDayStart t).toInt ∧ t.toInt - (calendarDayStart t).toInt < day) ↔
        BeforeNight t) ∧
      (calendarDayStart (calendarDayStart t) = calendarDayStart t ↔ t.toInt < day) ∧
      (∀ t', t ≤ t' → calendarDayStart t ≤ calendarDayStart t') ∧
      (SameDay (todayStart now) now ↔ BeforeNight now) ∧
      ((∃ e, nextTradingDayEnd now t = some e ∧ IsTradingDayEnd t e) ↔
        (closing t < now.toInt ↔ closing t < t.toInt) ∧
          (closing t < t.toInt → Checked.Representable (closing t + day))) ∧
      ∃ now now', nextTradingDayEnd now t ≠ nextTradingDayEnd now' t :=
  ⟨isDayStart_iff ht, within_day_iff ht, calendarDayStart_idem_iff ht,
    fun _ => calendarDayStart_mono ht, sameDay_iff hnow, isTradingDayEnd_iff now ht,
    exists_nextTradingDayEnd_ne ht⟩

/-- Noon in UTC on the first of 2024. -/
theorem calendar_iff_example :
    (0 : Int64) ≤ 1704110400000000000 ∧
      IsDayStart 1704110400000000000 (calendarDayStart 1704110400000000000) := by
  have hnonneg : (0 : Int64) ≤ 1704110400000000000 := by decide
  exact ⟨hnonneg, (calendar_iff hnonneg hnonneg).1.mpr (by decide)⟩

/-- At 16:00 in UTC, the second of January starts in UTC+8; the start that is found is that of the
first. -/
theorem not_isDayStart_of_midnight :
    ¬ IsDayStart 1704124800000000000 (calendarDayStart 1704124800000000000) :=
  mt (isDayStart_iff (by decide)).mp (by decide)

end Kungfu.Yijinjing
