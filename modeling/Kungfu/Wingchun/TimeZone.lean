import Kungfu.Logic.Calendar

/-!
# Exchange local time

The zone table states for each location its offset from UTC, and for some of them when summer
time starts and ends: on a Sunday of a month, at an hour of the local clock.
`TranslateGMTimeToLocalTime` takes these hours for hours of UTC, moved by the offset of the
host, which `mkgmtime` was to remove: it compares the hour of `gmtime` with that of its
argument, but its argument lies in the buffer that `gmtime` has just filled.
`TranslateLocalTimeToGMTime` asks whether it is summer at an instant one hour too late.

The offset of the host does not change over the year.  Times are integers without bounds; in the
code a year past the range of `int` has no `tm`.
-/

namespace Kungfu.Wingchun

open Calendar

/-! ## The C library -/

def oneHourSecond : ℤ := 3600
def oneDaySecond : ℤ := oneHourSecond * 24

/-- `struct tm`, without the fields that nothing reads. -/
structure Tm where
  sec : ℤ
  min : ℤ
  hour : ℤ
  mday : ℤ
  mon : ℤ
  year : ℤ
  wday : ℤ
  deriving DecidableEq, Repr

/-- What `gmtime` computes. -/
def gmtime (time : ℤ) : Tm where
  sec := time % 60
  min := time % oneHourSecond / 60
  hour := time % oneDaySecond / oneHourSecond
  mday := time / oneDaySecond -
    firstOf (yearOf (time / oneDaySecond)) (monthOf (time / oneDaySecond)) + 1
  mon := monthOf (time / oneDaySecond)
  year := yearOf (time / oneDaySecond) - 1900
  wday := weekday (time / oneDaySecond)

/-- The instant of a `tm` that is read as UTC. -/
def Tm.seconds (tm : Tm) : ℤ :=
  (firstOf (tm.year + 1900) tm.mon + tm.mday - 1) * oneDaySecond + tm.hour * oneHourSecond +
    tm.min * 60 + tm.sec

/-- The zone of the host: seconds to the east of UTC. -/
structure Host where
  offset : ℤ
  gt : -oneDaySecond < offset
  lt : offset < oneDaySecond

/-- Where a `tm` lies: in the buffer whose address `gmtime` returns, or elsewhere. -/
inductive TmPtr
  | buffer | own
  deriving DecidableEq, Repr

/-- The buffer of `gmtime`, and a `tm` of the caller. -/
structure TmStore where
  buffer : Tm
  own : Tm

namespace TmStore

def read (s : TmStore) : TmPtr → Tm
  | .buffer => s.buffer
  | .own => s.own

def write (s : TmStore) (tm : Tm) : TmPtr → TmStore
  | .buffer => { s with buffer := tm }
  | .own => { s with own := tm }

end TmStore

/-- `mktime`: the `tm` is read in the zone of the host, and its fields are brought into range. -/
def mktime (host : Host) (unixdate : TmPtr) (s : TmStore) : ℤ × TmStore :=
  let seconds := (s.read unixdate).seconds
  (seconds - host.offset, s.write (gmtime seconds) unixdate)

/-! ## The functions -/

/-- `mkgmtime`. -/
def mkgmtime (host : Host) (unixdate : TmPtr) (s : TmStore) : ℤ × TmStore :=
  let (unixTime, s) := mktime host unixdate s
  let s := s.write (gmtime unixTime) .buffer
  let offset := (s.read .buffer).hour - (s.read unixdate).hour
  let offset := if offset > 12 then 24 - offset else offset
  (unixTime - offset * oneHourSecond, s)

/-- `SummerDayTime`: months are counted from zero, Sundays from one, or back from -1. -/
structure SummerDayTime where
  month : ℤ
  sundayIndex : ℤ
  hour : ℤ
  deriving DecidableEq, Repr

/-- `CalculateSummerDayTimeByMonth_Sunday_Hour`. -/
def calculateSummerDayTime (host : Host) (time : ℤ) (t : SummerDayTime) (s : TmStore) :
    ℤ × TmStore :=
  let s := s.write (gmtime time) .buffer
  -- `summer_day` is the same buffer as `t_gmt`
  let s := s.write (gmtime time) .buffer
  let mon := if t.sundayIndex > 0 then t.month else t.month + 1
  let summerDay : Tm :=
    { s.read .buffer with mon, mday := 1, hour := t.hour, min := 0, sec := 0 }
  let s := s.write summerDay .buffer
  let (summerDaySeconds, s) := mkgmtime host .buffer s
  let s := s.write (gmtime summerDaySeconds) .buffer
  let week := (s.read .buffer).wday
  let offsetWeeks := if t.sundayIndex > 0 then t.sundayIndex - 1 else t.sundayIndex
  (summerDaySeconds + (7 - week) % 7 * oneDaySecond + offsetWeeks * 7 * oneDaySecond, s)

/-- `LocationTimeType`. -/
inductive LocationTimeType
  | london | beijing | singapore | tokyo | americaEastern | americaCentral | australiaEastern
  | berlin | amsterdam | finland | jakarta | korea | malaysia | paris | switzerland | thailand
  | toronto
  deriving DecidableEq, Repr

/-- `ZoneTimeType`. -/
inductive ZoneTimeType
  | bst | bdt | bj | jst | sgt | est | edt | cst | cdt | aest | aedt | cet | cest | krat | kst
  deriving DecidableEq, Repr

/-- `LocationTimeData`. -/
structure LocationTimeData where
  zone : ℤ
  hasSummerDay : Bool
  summerBegin : SummerDayTime
  summerEnd : SummerDayTime
  zoneTimes : List ZoneTimeType
  deriving DecidableEq, Repr

/-- The constructor for a location without summer time. -/
def LocationTimeData.standard (zone : ℤ) (type : ZoneTimeType) : LocationTimeData :=
  ⟨zone, false, ⟨0, 0, 0⟩, ⟨0, 0, 0⟩, [type]⟩

/-- The constructor for a location with summer time. -/
def LocationTimeData.daylight (zone : ℤ) (beg fin : SummerDayTime)
    (type daylightType : ZoneTimeType) : LocationTimeData :=
  ⟨zone, true, beg, fin, [type, daylightType]⟩

open LocationTimeData in
/-- `g_locationTimeMap`.  It has every location type, so that `GetLocationTimeDataByType` finds
each of them. -/
def locationTimeMap : LocationTimeType → LocationTimeData
  | .beijing => standard 8 .bj
  | .singapore => standard 8 .sgt
  | .tokyo => standard 9 .jst
  | .amsterdam => standard 9 .cet
  | .finland => standard 9 .cest
  | .jakarta => standard 9 .krat
  | .korea => standard 9 .kst
  | .malaysia => standard 9 .bj
  | .paris => standard 9 .cet
  | .switzerland => standard 9 .cet
  | .thailand => standard 9 .krat
  | .toronto => standard 9 .est
  | .americaEastern => daylight (-5) ⟨2, 2, 2⟩ ⟨10, 1, 2⟩ .est .edt
  | .americaCentral => daylight (-6) ⟨2, 2, 2⟩ ⟨10, 1, 2⟩ .cst .cdt
  | .london => daylight 0 ⟨2, -1, 1⟩ ⟨9, -1, 2⟩ .bst .bdt
  | .australiaEastern => daylight 10 ⟨9, 1, 2⟩ ⟨3, 1, 3⟩ .aest .aedt
  | .berlin => daylight 1 ⟨2, -1, 2⟩ ⟨9, -1, 3⟩ .cest .cet

/-- `LocalTimeInfo`; the zone type is that at the index of `zone_times`, if there is one. -/
structure LocalTimeInfo where
  seconds : ℤ
  hasSummerDay : Bool
  isSummerDay : Bool
  zoneTimeType : Option ZoneTimeType
  deriving DecidableEq, Repr

/-- `TranslateGMTimeToLocalTime`. -/
def translateGMTimeToLocalTime (host : Host) (gmt : ℤ) (info : LocationTimeData) (s : TmStore) :
    LocalTimeInfo × TmStore :=
  let seconds := gmt + info.zone * oneHourSecond
  if info.hasSummerDay then
    let (beginTime, s) := calculateSummerDayTime host gmt info.summerBegin s
    let (endTime, s) := calculateSummerDayTime host gmt info.summerEnd s
    let isSummerDay := decide (gmt ≥ min beginTime endTime ∧ gmt ≤ max beginTime endTime) ^^
      decide (beginTime > endTime)
    (⟨if isSummerDay then seconds + oneHourSecond else seconds, true, isSummerDay,
      info.zoneTimes[isSummerDay.toNat]?⟩, s)
  else (⟨seconds, false, false, info.zoneTimes[0]?⟩, s)

/-- `TranslateLocalTimeToGMTime`: the instant, and what is written to `info`. -/
def translateLocalTimeToGMTime (host : Host) (localSeconds : ℤ) (data : LocationTimeData)
    (s : TmStore) : (ℤ × LocalTimeInfo) × TmStore :=
  let assumeGmt := localSeconds - data.zone * oneHourSecond
  let (ret, s) := translateGMTimeToLocalTime host assumeGmt data s
  if ret.isSummerDay then
    ((assumeGmt - oneHourSecond, { ret with seconds := ret.seconds - oneHourSecond }), s)
  else ((assumeGmt, ret), s)

/-- To local time, and back. -/
def roundTrip (host : Host) (gmt : ℤ) (info : LocationTimeData) (s : TmStore) : ℤ :=
  let (t, s) := translateGMTimeToLocalTime host gmt info s
  (translateLocalTimeToGMTime host t.seconds info s).1.1

/-! ## What the table states -/

namespace SummerDayTime

/-- The bounds of a rule. -/
structure Sound (t : SummerDayTime) : Prop where
  month : 1 ≤ t.month ∧ t.month ≤ 10
  hour : 0 ≤ t.hour ∧ t.hour < 24
  sundayIndex : t.sundayIndex ≠ 0 ∧ -4 ≤ t.sundayIndex ∧ t.sundayIndex ≤ 4

/-- The first of the seven days of the month, or of its last days, that the Sunday is one of. -/
def weekStart (t : SummerDayTime) (y : ℤ) : ℤ :=
  if 0 < t.sundayIndex then firstOf y t.month + 7 * (t.sundayIndex - 1)
  else firstOf y (t.month + 1) + 7 * t.sundayIndex

/-- The Sunday of a year. -/
def sunday (t : SummerDayTime) (y : ℤ) : ℤ := sundayFrom (t.weekStart y)

/-- The Sundays are those seven days apart from the fourth of January 1970. -/
theorem isLeast_sunday (t : SummerDayTime) (y : ℤ) :
    IsLeast (Grid.onwards 7 3 (t.weekStart y)) (t.sunday y) :=
  isLeast_sundayFrom (t.weekStart y)

/-- The transition that is found on a host: the first Sunday that is reached from the hour of the
host's clock, at the time of day in UTC. -/
def foundOn (t : SummerDayTime) (offset y : ℤ) : ℤ :=
  let start := t.weekStart y * oneDaySecond + t.hour * oneHourSecond - offset
  sundayFrom (start / oneDaySecond) * oneDaySecond + start % oneDaySecond

end SummerDayTime

namespace LocationTimeData

variable (info : LocationTimeData)

/-- Summer time starts when the clock shows the hour in standard time. -/
def start (y : ℤ) : ℤ :=
  info.summerBegin.sunday y * oneDaySecond + (info.summerBegin.hour - info.zone) * oneHourSecond

/-- Summer time ends when the clock shows the hour in summer time. -/
def finish (y : ℤ) : ℤ :=
  info.summerEnd.sunday y * oneDaySecond + (info.summerEnd.hour - info.zone - 1) * oneHourSecond

/-- Summer starts and ends in the same year. -/
def North : Prop := info.summerBegin.month < info.summerEnd.month

instance : Decidable info.North := inferInstanceAs (Decidable (_ < _))

/-- Summer time, from a start to the next end. -/
def IsSummer (g : ℤ) : Prop :=
  info.hasSummerDay = true ∧
    ∃ y, info.start y ≤ g ∧ g < info.finish (if info.North then y else y + 1)

/-- An instant farther than one hour from the transitions. -/
def Far (g : ℤ) : Prop :=
  info.hasSummerDay = true → ∀ y, oneHourSecond < |g - info.start y| ∧
    oneHourSecond < |g - info.finish y|

/-- The bounds that the rules of the table keep. -/
structure Sound : Prop where
  zone : -12 ≤ info.zone ∧ info.zone ≤ 12
  summerBegin : info.summerBegin.Sound
  summerEnd : info.summerEnd.Sound
  apart : info.summerBegin.month + 2 ≤ info.summerEnd.month ∨
    info.summerEnd.month + 2 ≤ info.summerBegin.month

end LocationTimeData

theorem locationTimeMap_sound (loc : LocationTimeType)
    (h : (locationTimeMap loc).hasSummerDay = true) : (locationTimeMap loc).Sound := by
  cases loc <;> first
    | exact absurd h (by decide)
    | exact ⟨by decide, ⟨by decide, by decide, by decide⟩, ⟨by decide, by decide, by decide⟩,
        by decide⟩

/-! ## The functions of the C library -/

variable {host : Host} {s : TmStore} {g : ℤ}

theorem seconds_gmtime (t : ℤ) : (gmtime t).seconds = t := by
  simp only [Tm.seconds, gmtime, sub_add_cancel]
  simp only [oneDaySecond, oneHourSecond]
  omega

/-- The difference of a field from itself removes no offset. -/
theorem mkgmtime_buffer : (mkgmtime host .buffer s).1 = s.buffer.seconds - host.offset := by
  simp [mkgmtime, mktime, TmStore.read, TmStore.write]

/-- From the buffer, `mkgmtime` undoes `gmtime` on a host in UTC only. -/
theorem mkgmtime_gmtime_buffer_iff (t : ℤ) :
    (mkgmtime host .buffer (s.write (gmtime t) .buffer)).1 = t ↔ host.offset = 0 := by
  rw [mkgmtime_buffer, TmStore.write, seconds_gmtime]
  omega

theorem mkgmtime_own {t n : ℤ} (hn : (gmtime (t - host.offset)).hour - (gmtime t).hour = n) :
    (mkgmtime host .own (s.write (gmtime t) .own)).1 =
      t - host.offset - (if n > 12 then 24 - n else n) * oneHourSecond := by
  subst hn
  simp only [mkgmtime, mktime, TmStore.read, TmStore.write, seconds_gmtime]

/-- From elsewhere, it does so on a host with whole hours, not too far to the west, as long as the
day is the same on the host. -/
theorem mkgmtime_gmtime_own_iff (t : ℤ) :
    (mkgmtime host .own (s.write (gmtime t) .own)).1 = t ↔ oneHourSecond ∣ host.offset ∧
      -12 * oneHourSecond ≤ host.offset ∧
      (t - host.offset) / oneDaySecond = t / oneDaySecond := by
  have hgt := host.gt
  have hlt := host.lt
  obtain ⟨n, hn⟩ : ∃ n, (gmtime (t - host.offset)).hour - (gmtime t).hour = n := ⟨_, rfl⟩
  rw [mkgmtime_own hn]
  simp only [gmtime, oneDaySecond, oneHourSecond] at *
  split_ifs with hwrap
  · omega
  · omega

/-! ## The transitions that are found -/

/-- What is computed depends on the year of the instant in UTC, and on the zone of the host. -/
theorem calculateSummerDayTime_fst (time : ℤ) (t : SummerDayTime) :
    (calculateSummerDayTime host time t s).1 =
      t.foundOn host.offset (yearOf (time / oneDaySecond)) := by
  simp only [calculateSummerDayTime, mkgmtime_buffer, TmStore.write, TmStore.read]
  simp only [Tm.seconds, gmtime, sub_add_cancel, SummerDayTime.foundOn, SummerDayTime.weekStart]
  generalize yearOf (time / oneDaySecond) = y
  simp only [sundayFrom, weekday, oneDaySecond, oneHourSecond]
  split
  · omega
  · omega

namespace SummerDayTime

variable {t : SummerDayTime} {y offset : ℤ}

/-- Within a day of a month. -/
def Near (t : SummerDayTime) (y i : ℤ) : Prop :=
  (firstOf y t.month - 1) * oneDaySecond < i ∧ i < (firstOf y (t.month + 1) + 1) * oneDaySecond

/-- The seven days lie in the month. -/
theorem Sound.weekStart_bounds (H : t.Sound) (y : ℤ) :
    firstOf y t.month ≤ t.weekStart y ∧ t.weekStart y + 7 ≤ firstOf y (t.month + 1) := by
  have hmonth := firstOf_lt (y := y) (lt_add_one t.month)
  have hindex := H.sundayIndex
  rw [weekStart]
  split <;> omega

/-- A transition at the hour of a clock that is less than a day from UTC. -/
theorem Sound.near_sunday (H : t.Sound) (hgt : -oneDaySecond < offset)
    (hlt : offset < oneDaySecond) :
    t.Near y (t.sunday y * oneDaySecond + t.hour * oneHourSecond - offset) := by
  have hweek := H.weekStart_bounds y
  have hsunday := sundayFrom_bounds (t.weekStart y)
  have hhour := H.hour
  simp only [Near, sunday, oneDaySecond, oneHourSecond] at *
  constructor <;> omega

theorem Sound.near_foundOn (H : t.Sound) (hgt : -oneDaySecond < offset)
    (hlt : offset < oneDaySecond) : t.Near y (t.foundOn offset y) := by
  have hweek := H.weekStart_bounds y
  have hhour := H.hour
  simp only [Near, foundOn, sundayFrom, weekday, oneDaySecond, oneHourSecond] at *
  constructor <;> omega

/-- Near its month is far from the turn of the year. -/
theorem Near.in_year {i : ℤ} (h : t.Near y i) (H : t.Sound) :
    (jan1 y + 27) * oneDaySecond < i ∧ i < (jan1 (y + 1) - 27) * oneDaySecond := by
  have hmonth := H.month
  have hbefore := @firstOf_lt y 0 t.month (by omega)
  have hafter := @firstOf_lt y (t.month + 1) 12 (by omega)
  rw [firstOf_zero] at hbefore
  rw [firstOf_twelve] at hafter
  simp only [Near, oneDaySecond, oneHourSecond] at *
  constructor <;> omega

/-- Rules of months that are not next to each other. -/
theorem Near.lt {t' : SummerDayTime} {i j : ℤ} (h : t.Near y i) (h' : t'.Near y j)
    (hmonth : t.month + 2 ≤ t'.month) : i + 26 * oneDaySecond < j := by
  have hbetween := @firstOf_lt y (t.month + 1) t'.month (by omega)
  simp only [Near, oneDaySecond, oneHourSecond] at *
  omega

end SummerDayTime

/-! ## Summer time -/

namespace LocationTimeData

variable {info : LocationTimeData} {y : ℤ}

theorem Sound.near_start (H : info.Sound) (y : ℤ) : info.summerBegin.Near y (info.start y) := by
  have hzone := H.zone
  have hnear := @SummerDayTime.Sound.near_sunday info.summerBegin y (info.zone * oneHourSecond)
    H.summerBegin (by simp only [oneDaySecond, oneHourSecond]; omega)
    (by simp only [oneDaySecond, oneHourSecond]; omega)
  rwa [add_sub_assoc, ← sub_mul] at hnear

theorem Sound.near_finish (H : info.Sound) (y : ℤ) : info.summerEnd.Near y (info.finish y) := by
  have hzone := H.zone
  have hnear := @SummerDayTime.Sound.near_sunday info.summerEnd y ((info.zone + 1) * oneHourSecond)
    H.summerEnd (by simp only [oneDaySecond, oneHourSecond]; omega)
    (by simp only [oneDaySecond, oneHourSecond]; omega)
  rwa [add_sub_assoc, ← sub_mul, ← sub_sub] at hnear

/-- A start and an end are in the order of their months. -/
theorem Sound.order (H : info.Sound) {i j : ℤ} (hi : info.summerBegin.Near y i)
    (hj : info.summerEnd.Near y j) :
    if info.North then i + 26 * oneDaySecond < j else j + 26 * oneDaySecond < i := by
  have hapart := H.apart
  by_cases hnorth : info.North
  · rw [if_pos hnorth]
    rw [North] at hnorth
    exact hi.lt hj (by omega)
  · rw [if_neg hnorth]
    rw [North] at hnorth
    exact hj.lt hi (by omega)

/-- The start and the end that are found for an instant. -/
def foundStart (info : LocationTimeData) (host : Host) (g : ℤ) : ℤ :=
  info.summerBegin.foundOn host.offset (yearOf (g / oneDaySecond))

def foundFinish (info : LocationTimeData) (host : Host) (g : ℤ) : ℤ :=
  info.summerEnd.foundOn host.offset (yearOf (g / oneDaySecond))

theorem Sound.near_foundStart (H : info.Sound) (host : Host) (g : ℤ) :
    info.summerBegin.Near (yearOf (g / oneDaySecond)) (info.foundStart host g) :=
  H.summerBegin.near_foundOn host.gt host.lt

theorem Sound.near_foundFinish (H : info.Sound) (host : Host) (g : ℤ) :
    info.summerEnd.Near (yearOf (g / oneDaySecond)) (info.foundFinish host g) :=
  H.summerEnd.near_foundOn host.gt host.lt

/-- An instant lies in its year. -/
theorem in_year (g : ℤ) : jan1 (yearOf (g / oneDaySecond)) * oneDaySecond ≤ g ∧
    g < jan1 (yearOf (g / oneDaySecond) + 1) * oneDaySecond := by
  have hyear := jan1_yearOf (g / oneDaySecond)
  simp only [oneDaySecond, oneHourSecond] at *
  constructor <;> omega

theorem translate_isSummerDay (hsummer : info.hasSummerDay = true) :
    (translateGMTimeToLocalTime host g info s).1.isSummerDay = true ↔
      ¬ ((min (info.foundStart host g) (info.foundFinish host g) ≤ g ∧
        g ≤ max (info.foundStart host g) (info.foundFinish host g)) ↔
          info.foundFinish host g < info.foundStart host g) := by
  simp only [translateGMTimeToLocalTime, hsummer, if_true, calculateSummerDayTime_fst, foundStart,
    foundFinish]
  exact bne_iff_ne.trans (not_congr decide_eq_decide)

/-- What is reported, by the transitions that are found. -/
theorem Sound.isSummerDay_iff (H : info.Sound) (hsummer : info.hasSummerDay = true) :
    (translateGMTimeToLocalTime host g info s).1.isSummerDay = true ↔
      if info.North then info.foundStart host g ≤ g ∧ g ≤ info.foundFinish host g
      else info.foundStart host g < g ∨ g < info.foundFinish host g := by
  have hlt := H.order (H.near_foundStart host g) (H.near_foundFinish host g)
  rw [translate_isSummerDay hsummer]
  by_cases hnorth : info.North
  · simp only [if_pos hnorth, oneDaySecond, oneHourSecond] at *
    omega
  · simp only [if_neg hnorth, oneDaySecond, oneHourSecond] at *
    omega

/-- Summer time, by the transitions of the year of the instant in UTC. -/
theorem Sound.isSummer_iff (H : info.Sound) (hsummer : info.hasSummerDay = true) :
    info.IsSummer g ↔ if info.North then
      info.start (yearOf (g / oneDaySecond)) ≤ g ∧ g < info.finish (yearOf (g / oneDaySecond))
      else info.start (yearOf (g / oneDaySecond)) ≤ g ∨
        g < info.finish (yearOf (g / oneDaySecond)) := by
  have hyear := in_year g
  have hstart y := (H.near_start y).in_year H.summerBegin
  have hfinish y := (H.near_finish y).in_year H.summerEnd
  generalize yearOf (g / oneDaySecond) = Y at hyear ⊢
  simp only [oneDaySecond, oneHourSecond] at hyear hstart hfinish
  by_cases hnorth : info.North
  · rw [if_pos hnorth]
    refine ⟨?_, fun hin => ⟨hsummer, Y, hin.1, by rw [if_pos hnorth]; exact hin.2⟩⟩
    rintro ⟨-, y, hle, hlt⟩
    rw [if_pos hnorth] at hlt
    have hbegin := (hstart y).1
    have hend := (hfinish y).2
    rcases lt_trichotomy y Y with hy | rfl | hy
    · have hmono : jan1 (y + 1) ≤ jan1 Y := jan1_mono (by omega)
      omega
    · exact ⟨hle, hlt⟩
    · have hmono : jan1 (Y + 1) ≤ jan1 y := jan1_mono (by omega)
      omega
  · rw [if_neg hnorth]
    constructor
    · rintro ⟨-, y, hle, hlt⟩
      rw [if_neg hnorth] at hlt
      have hbegin := (hstart y).1
      have hend := (hfinish (y + 1)).2
      rcases lt_trichotomy y Y with hy | rfl | hy
      · rcases Int.lt_or_eq_of_le (Int.add_one_le_of_lt hy) with hy | rfl
        · have hmono : jan1 (y + 1 + 1) ≤ jan1 Y := jan1_mono (by omega)
          omega
        · exact Or.inr hlt
      · exact Or.inl hle
      · have hmono : jan1 (Y + 1) ≤ jan1 y := jan1_mono (by omega)
        omega
    · rintro (hle | hlt)
      · refine ⟨hsummer, Y, hle, ?_⟩
        have hnext := hfinish (Y + 1)
        rw [if_neg hnorth]
        omega
      · refine ⟨hsummer, Y - 1, ?_, ?_⟩
        · have hlast := hstart (Y - 1)
          rw [sub_add_cancel] at hlast
          omega
        · rwa [if_neg hnorth, sub_add_cancel]

/-- An instant is on the same side of the transitions that are found as of the transitions.  The
code counts the instant of the end as summer where summer is inside the year, and the instant
of the start as winter where it is not. -/
def OnItsSide (info : LocationTimeData) (host : Host) (g : ℤ) : Prop :=
  info.hasSummerDay = true →
    if info.North then
      (info.foundStart host g ≤ g ↔ info.start (yearOf (g / oneDaySecond)) ≤ g) ∧
        (g ≤ info.foundFinish host g ↔ g < info.finish (yearOf (g / oneDaySecond)))
    else
      (info.foundStart host g < g ↔ info.start (yearOf (g / oneDaySecond)) ≤ g) ∧
        (g < info.foundFinish host g ↔ g < info.finish (yearOf (g / oneDaySecond)))

theorem isSummerDay_of_not (hsummer : ¬ info.hasSummerDay = true) :
    (translateGMTimeToLocalTime host g info s).1.isSummerDay = false := by
  simp [translateGMTimeToLocalTime, hsummer]

/-- When summer time is reported rightly. -/
theorem reports_iff (H : info.hasSummerDay = true → info.Sound) :
    ((translateGMTimeToLocalTime host g info s).1.isSummerDay = true ↔ info.IsSummer g) ↔
      info.OnItsSide host g := by
  by_cases hsummer : info.hasSummerDay = true
  · have H := H hsummer
    have hfound := H.near_foundStart host g
    have hfound' := H.near_foundFinish host g
    have hstart := H.near_start (yearOf (g / oneDaySecond))
    have hfinish := H.near_finish (yearOf (g / oneDaySecond))
    -- no start is near an end, whether it is found or not
    have h₁ := H.order hfound hfound'
    have h₂ := H.order hfound hfinish
    have h₃ := H.order hstart hfound'
    have h₄ := H.order hstart hfinish
    rw [H.isSummerDay_iff hsummer, H.isSummer_iff hsummer, OnItsSide]
    by_cases hnorth : info.North
    · simp only [if_pos hnorth, hsummer, true_imp_iff, oneDaySecond, oneHourSecond] at *
      omega
    · simp only [if_neg hnorth, hsummer, true_imp_iff, oneDaySecond, oneHourSecond] at *
      omega
  · rw [isSummerDay_of_not hsummer]
    simp [IsSummer, OnItsSide, hsummer]

/-! ## To local time and back -/

/-- What is reported does not depend on what the buffer held. -/
theorem isSummerDay_congr (s s' : TmStore) :
    (translateGMTimeToLocalTime host g info s).1.isSummerDay =
      (translateGMTimeToLocalTime host g info s').1.isSummerDay := by
  by_cases hsummer : info.hasSummerDay = true
  · exact Bool.eq_iff_iff.mpr ((translate_isSummerDay hsummer).trans
      (translate_isSummerDay hsummer).symm)
  · rw [isSummerDay_of_not hsummer, isSummerDay_of_not hsummer]

theorem translate_seconds : (translateGMTimeToLocalTime host g info s).1.seconds =
    g + info.zone * oneHourSecond +
      if (translateGMTimeToLocalTime host g info s).1.isSummerDay then oneHourSecond else 0 := by
  rw [translateGMTimeToLocalTime]
  split
  · simp only
    split <;> omega
  · simp

theorem translate_back (l : ℤ) : (translateLocalTimeToGMTime host l info s).1.1 =
    l - info.zone * oneHourSecond -
      if (translateGMTimeToLocalTime host (l - info.zone * oneHourSecond) info s).1.isSummerDay then
        oneHourSecond else 0 := by
  obtain ⟨ret, s', hret⟩ : ∃ ret s',
      translateGMTimeToLocalTime host (l - info.zone * oneHourSecond) info s = (ret, s') :=
    ⟨_, _, rfl⟩
  simp only [translateLocalTimeToGMTime, hret]
  split <;> simp

/-- The way back misses by an hour where the report has ended an hour later. -/
theorem roundTrip_eq_iff : roundTrip host g info s = g ↔
    ¬ ((translateGMTimeToLocalTime host g info s).1.isSummerDay = true ∧
      ¬ (translateGMTimeToLocalTime host (g + oneHourSecond) info s).1.isSummerDay = true) := by
  have hback : roundTrip host g info s = (translateLocalTimeToGMTime host
      (translateGMTimeToLocalTime host g info s).1.seconds info
      (translateGMTimeToLocalTime host g info s).2).1.1 := rfl
  rw [hback, translate_back, translate_seconds]
  cases hsummer : (translateGMTimeToLocalTime host g info s).1.isSummerDay with
  | false =>
      have hsame : g + info.zone * oneHourSecond + 0 - info.zone * oneHourSecond = g := by omega
      simp only [Bool.false_eq_true, if_false, hsame, isSummerDay_congr _ s, hsummer]
      simp
  | true =>
      have hlater : g + info.zone * oneHourSecond + oneHourSecond - info.zone * oneHourSecond =
          g + oneHourSecond := by omega
      simp only [if_true, hlater, isSummerDay_congr _ s]
      split <;> simp_all [oneHourSecond]

/-- The last hour of summer time that is found. -/
def InLastHour (info : LocationTimeData) (host : Host) (g : ℤ) : Prop :=
  info.hasSummerDay = true ∧
    if info.North then info.foundFinish host g - oneHourSecond < g ∧ g ≤ info.foundFinish host g
    else info.foundFinish host g - oneHourSecond ≤ g ∧ g < info.foundFinish host g

/-- An hour after an instant it is the same year, or it is new year. -/
theorem year_later (g : ℤ) :
    yearOf ((g + oneHourSecond) / oneDaySecond) = yearOf (g / oneDaySecond) ∨
      yearOf ((g + oneHourSecond) / oneDaySecond) = yearOf (g / oneDaySecond) + 1 ∧
        jan1 (yearOf (g / oneDaySecond) + 1) * oneDaySecond ≤ g + oneHourSecond := by
  have hyear := in_year g
  have hnext := jan1_lt_succ (yearOf (g / oneDaySecond) + 1)
  simp only [yearOf_eq_iff]
  generalize yearOf (g / oneDaySecond) = Y at *
  simp only [oneDaySecond, oneHourSecond] at *
  omega

theorem roundTrip_iff (H : info.hasSummerDay = true → info.Sound) :
    roundTrip host g info s = g ↔ ¬ info.InLastHour host g := by
  rw [roundTrip_eq_iff, not_iff_not]
  by_cases hsummer : info.hasSummerDay = true
  · have H := H hsummer
    have hyear := in_year g
    have hfound := (H.near_foundStart host g).in_year H.summerBegin
    have hfound' := (H.near_foundFinish host g).in_year H.summerEnd
    have hlater := (H.near_foundFinish host (g + oneHourSecond)).in_year H.summerEnd
    have hlt := H.order (H.near_foundStart host g) (H.near_foundFinish host g)
    have hmono := jan1_lt_succ (yearOf (g / oneDaySecond) + 1)
    rw [H.isSummerDay_iff hsummer, H.isSummerDay_iff hsummer, InLastHour]
    simp only [hsummer, true_and]
    rcases year_later g with heq | ⟨heq, hnew⟩
    · have hstart : info.foundStart host (g + oneHourSecond) = info.foundStart host g := by
        rw [foundStart, heq, foundStart]
      have hfinish : info.foundFinish host (g + oneHourSecond) = info.foundFinish host g := by
        rw [foundFinish, heq, foundFinish]
      rw [hstart, hfinish]
      by_cases hnorth : info.North
      · simp only [if_pos hnorth, oneDaySecond, oneHourSecond] at *
        omega
      · simp only [if_neg hnorth, oneDaySecond, oneHourSecond] at *
        omega
    · -- at new year it is winter or summer all around
      rw [heq] at hlater
      by_cases hnorth : info.North
      · simp only [if_pos hnorth, oneDaySecond, oneHourSecond] at *
        omega
      · simp only [if_neg hnorth, oneDaySecond, oneHourSecond] at *
        omega
  · simp [isSummerDay_of_not hsummer, InLastHour, hsummer]

end LocationTimeData

/-- When summer time is reported rightly, when the way to local time and back leads to the same
instant, and when `mkgmtime` undoes `gmtime`, in its buffer and elsewhere. -/
theorem localTime_iff (host : Host) (loc : LocationTimeType) (g : ℤ) (s : TmStore) :
    (((translateGMTimeToLocalTime host g (locationTimeMap loc) s).1.isSummerDay = true ↔
        (locationTimeMap loc).IsSummer g) ↔ (locationTimeMap loc).OnItsSide host g) ∧
      (((locationTimeMap loc).Far g → roundTrip host g (locationTimeMap loc) s = g) ↔
        ¬ ((locationTimeMap loc).Far g ∧ (locationTimeMap loc).InLastHour host g)) ∧
      ((mkgmtime host .buffer (s.write (gmtime g) .buffer)).1 = g ↔ host.offset = 0) ∧
      ((mkgmtime host .own (s.write (gmtime g) .own)).1 = g ↔ oneHourSecond ∣ host.offset ∧
        -12 * oneHourSecond ≤ host.offset ∧
        (g - host.offset) / oneDaySecond = g / oneDaySecond) := by
  have H := locationTimeMap_sound loc
  refine ⟨LocationTimeData.reports_iff H, ?_, mkgmtime_gmtime_buffer_iff g,
    mkgmtime_gmtime_own_iff g⟩
  rw [LocationTimeData.roundTrip_iff H, not_and]

/-- On a host in UTC it is reported to be summer in New York on the tenth of March 2024 at 03:00
UTC, which is 22:00 of the day before there. -/
theorem not_isSummer_before_start :
    ¬ ((translateGMTimeToLocalTime ⟨0, by decide, by decide⟩ 1710039600
        (locationTimeMap .americaEastern) ⟨gmtime 0, gmtime 0⟩).1.isSummerDay = true ↔
      (locationTimeMap .americaEastern).IsSummer 1710039600) := by
  rw [LocationTimeData.reports_iff (locationTimeMap_sound .americaEastern)]
  intro hside
  exact absurd (hside rfl) (by decide)

end Kungfu.Wingchun
