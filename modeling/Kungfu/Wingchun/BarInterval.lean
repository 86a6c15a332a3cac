import Kungfu.Logic.Checked
import Kungfu.Logic.Outcome
import Kungfu.Wingchun.Bar
import Kungfu.Yijinjing.Time
import Mathlib.Data.List.TakeWhile

/-!
# The interval of bars

The length of the bars is configured as a text, of which the first number is taken and the last
character as its unit.  A number too large for an `int` is refused, but nothing keeps the number
from being zero, nor the product with its unit from leaving its range.  Of a zero interval the
handler of quotes takes a remainder.

With a positive interval the handler does what `BarGenerator.onQuote` says, unless the end of a bar
cannot be represented.
-/

namespace Kungfu.Wingchun

open Checked Logic Outcome Yijinjing.TimeUnit

/-- What may end the code before it returns. -/
inductive BarFault
  /-- `std::runtime_error`. -/
  | runtimeError (message : String)
  /-- What `std::stoi` throws. -/
  | thrown (fault : Fault)
  /-- A signed operation leaves the range of its type. -/
  | overflow
  | divisionByZero
  | outOfFuel
  deriving DecidableEq, Repr

/-! ## The parser -/

/-- `std::regex_search` for `[0-9]+`: the first match, or nothing. -/
def searchDigits (s : List Char) : List Char :=
  (s.dropWhile fun c => !c.isDigit).takeWhile Char.isDigit

/-- `endswith`. -/
def endswith (str suffix : String) : Bool := suffix.toList.isSuffixOf str.toList

/-- A number of the unit that a text ends with. -/
def withUnit (s : String) (n : ℤ) : Except BarFault ℤ :=
  if endswith s "s" then checked .overflow (n * nanosecondsPerSecond.toInt)
  else if endswith s "m" then checked .overflow (n * nanosecondsPerMinute.toInt)
  else if endswith s "h" then checked .overflow (n * nanosecondsPerHour.toInt)
  else if endswith s "d" then checked .overflow (n * nanosecondsPerDay.toInt)
  else .error (.runtimeError ("invalid time_interval: " ++ s))

/-- `parse_time_interval`. -/
def parseTimeInterval (s : String) : Except BarFault ℤ :=
  match searchDigits s.toList with
  | [] => .error (.runtimeError ("invalid time interval: " ++ s))
  | c :: m => do
      let n ← (stoi (String.ofList (c :: m))).mapError .thrown
      withUnit s n

/-! ## The handler of quotes -/

namespace Bar

/-- The bar that an instrument starts with. -/
def create (timeInterval : ℤ) (event : QuoteEvent) : Except BarFault Bar :=
  if timeInterval = 0 then .error .divisionByZero
  else do
    let startTime := event.genTime - event.genTime.tmod timeInterval
    let _ ← checked .overflow (startTime + timeInterval)
    .ok (ofQuote timeInterval event.genTime event.quote)

/-- The loop over intervals without quotes. -/
def skip (timeInterval dataTime : ℤ) : ℕ → ℤ → Except BarFault ℤ
  | 0, _ => .error .outOfFuel
  | fuel + 1, startTime => do
      let endTime ← checked .overflow (startTime + timeInterval)
      if endTime < dataTime then skip timeInterval dataTime fuel endTime else .ok startTime

/-- The bar starts anew at a time. -/
def restart (timeInterval startTime : ℤ) (quote : Quote) (bar : Bar) : Bar :=
  let bar := { bar with
    startTime := startTime
    endTime := startTime + timeInterval }
  if bar.startTime ≤ quote.dataTime then
    { bar with
      tickCount := 1
      startVolume := quote.volume
      volume := 0
      highPrice := quote.lastPrice
      lowPrice := quote.lastPrice
      openPrice := quote.lastPrice
      closePrice := quote.lastPrice }
  else
    { bar with
      tickCount := 0
      startVolume := 0
      volume := 0
      highPrice := 0
      lowPrice := 0
      openPrice := 0
      closePrice := 0 }

end Bar

/-- What a `BarGenerator` changes, and the bars that it wrote. -/
structure BarTable where
  bars : UInt32 → Option Bar
  written : List Bar

namespace BarTable

/-- The entry of an instrument, which is made if there is none. -/
def entry (timeInterval : ℤ) (table : BarTable) (event : QuoteEvent) : Except BarFault Bar :=
  match table.bars event.quote.instrumentKey with
  | some bar => .ok bar
  | none => Bar.create timeInterval event

/-- The handler of quotes in `BarGenerator::on_start`, with an interval that is not known to be
positive. -/
def onQuote (fuel : ℕ) (timeInterval : ℤ) (table : BarTable) (event : QuoteEvent) :
    Except BarFault BarTable := do
  let quote := event.quote
  let instrumentKey := quote.instrumentKey
  let bar ← table.entry timeInterval event
  let bar :=
    if bar.startTime ≤ quote.dataTime ∧ quote.dataTime ≤ bar.endTime then bar.countTick quote
    else bar
  if bar.endTime ≤ quote.dataTime then
    let startTime ← Bar.skip timeInterval quote.dataTime fuel bar.endTime
    .ok {
      bars := Function.update table.bars instrumentKey
        (some (bar.restart timeInterval startTime quote))
      written := table.written ++ [bar] }
  else .ok { table with bars := Function.update table.bars instrumentKey (some bar) }

/-- A generator that has started. -/
def start : BarTable := ⟨fun _ => none, []⟩

/-- A stream of quotes. -/
def run (fuel : ℕ) (timeInterval : ℤ) (events : List QuoteEvent) : Except BarFault BarTable :=
  events.foldlM (onQuote fuel timeInterval) start

end BarTable

/-! ## What a text says -/

/-- The nanoseconds of a unit. -/
def unitOf : Char → Option ℤ
  | 's' => some 1000000000
  | 'm' => some 60000000000
  | 'h' => some 3600000000000
  | 'd' => some 86400000000000
  | _ => none

/-- The first number in a text, and the unit that it ends with. -/
structure Reads (s : String) (number : ℕ) (unit : ℤ) : Prop where
  number : ∃ before digits after, s.toList = before ++ digits ++ after ∧
    (∀ c ∈ before, ¬ c.isDigit) ∧ digits ≠ [] ∧ (∀ c ∈ digits, c.isDigit) ∧
    (∀ c ∈ after.head?, ¬ c.isDigit) ∧ Nat.ofDigitChars 10 digits 0 = number
  unit : ∃ c, s.toList.getLast? = some c ∧ unitOf c = some unit

/-- A text is refused, or it gives an interval as it says, with which no quote of a stream stops the
generator or keeps it in its loop. -/
def SafeInterval (s : String) (events : List QuoteEvent) : Prop :=
  match parseTimeInterval s with
  | .error (.runtimeError _) | .error (.thrown _) => True
  | .error _ => False
  | .ok timeInterval => 0 < timeInterval ∧
      (∃ number unit, Reads s number unit ∧ timeInterval = number * unit) ∧
      ∃ fuel table, BarTable.run fuel timeInterval events = .ok table

/-! ## What the parser does -/

section Parser

variable {s : String} {number : ℕ} {unit : ℤ} {digits : List Char}

/-- The numbers that an `int` has room for. -/
def intMax : ℕ := 2147483647

theorem searchDigits_eq {before after : List Char} (hbefore : ∀ c ∈ before, ¬ c.isDigit)
    (hne : digits ≠ []) (hdigits : ∀ c ∈ digits, c.isDigit)
    (hafter : ∀ c ∈ after.head?, ¬ c.isDigit) :
    searchDigits (before ++ digits ++ after) = digits := by
  have hdrop : (before ++ digits ++ after).dropWhile (fun c => !c.isDigit) = digits ++ after := by
    rw [List.append_assoc, List.dropWhile_append_of_pos (by simpa using hbefore)]
    cases digits with
    | nil => exact absurd rfl hne
    | cons c digits => simp [hdigits c List.mem_cons_self]
  rw [searchDigits, hdrop, List.takeWhile_append_of_pos hdigits]
  cases after with
  | nil => simp
  | cons c after => simp [hafter c rfl]

theorem exists_searchDigits (s : List Char) :
    ∃ before after, s = before ++ searchDigits s ++ after ∧ (∀ c ∈ before, ¬ c.isDigit) ∧
      (∀ c ∈ searchDigits s, c.isDigit) ∧ ∀ c ∈ after.head?, ¬ c.isDigit := by
  refine ⟨s.takeWhile fun c => !c.isDigit,
    (s.dropWhile fun c => !c.isDigit).dropWhile Char.isDigit, ?_, ?_, ?_, ?_⟩
  · rw [searchDigits, List.append_assoc, List.takeWhile_append_dropWhile,
      List.takeWhile_append_dropWhile]
  · intro c hc
    simpa using List.mem_takeWhile_imp hc
  · intro c hc
    exact List.mem_takeWhile_imp hc
  · intro c hc
    have hnot := List.head?_dropWhile_not Char.isDigit (s.dropWhile fun c => !c.isDigit)
    rw [hc] at hnot
    simp [hnot]

/-- The value of digits, as `std::stoi` finds it. -/
theorem foldl_digits (hdigits : ∀ c ∈ digits, c.isDigit) (n : ℕ) :
    digits.foldl (fun (n : ℤ) c => 10 * n + (c.toNat - '0'.toNat)) n =
      Nat.ofDigitChars 10 digits n := by
  induction digits generalizing n with
  | nil => simp
  | cons c digits ih =>
    have hdigit : '0'.toNat ≤ c.toNat := by
      have hc := hdigits c List.mem_cons_self
      simp only [Char.isDigit, Bool.and_eq_true, decide_eq_true_eq] at hc
      exact hc.1
    have hzero : '0'.toNat = 48 := rfl
    have hvalue : (10 * (n : ℤ) + (c.toNat - '0'.toNat)) =
        ((10 * n + (c.toNat - '0'.toNat) : ℕ) : ℤ) := by omega
    rw [List.foldl_cons, hvalue, ih fun c' hc' => hdigits c' (List.mem_cons_of_mem c hc'),
      Nat.ofDigitChars_cons]

theorem stoi_digits (hne : digits ≠ []) (hdigits : ∀ c ∈ digits, c.isDigit) :
    stoi (String.ofList digits) =
      if Nat.ofDigitChars 10 digits 0 ≤ intMax then .ok (Nat.ofDigitChars 10 digits 0)
      else .error .outOfRange := by
  have htake : digits.takeWhile Char.isDigit = digits := List.takeWhile_eq_self_iff.mpr hdigits
  have hvalue := foldl_digits hdigits 0
  rw [Nat.cast_zero] at hvalue
  cases digits with
  | nil => exact absurd rfl hne
  | cons c digits =>
    have hdigit := hdigits c List.mem_cons_self
    have hspace : isSpace c = false := by
      have hzero : '0'.toNat ≤ c.toNat := by
        simp only [Char.isDigit, Bool.and_eq_true, decide_eq_true_eq] at hdigit
        exact hdigit.1
      have hne : c ≠ ' ' := by
        rintro rfl
        exact absurd hzero (by decide)
      have hlate : ¬ c ≤ '\r' := fun hle => absurd (Nat.le_trans hzero hle) (by decide)
      simp [isSpace, hne, hlate]
    have hminus : c ≠ '-' := by
      rintro rfl
      exact absurd hdigit (by decide)
    have hplus : c ≠ '+' := by
      rintro rfl
      exact absurd hdigit (by decide)
    have hskip : (c :: digits).dropWhile isSpace = c :: digits := by simp [hspace]
    simp only [stoi, String.toList_ofList, hskip]
    simp only [List.cons.injEq, hminus, hplus, false_and, imp_self, implies_true, htake, hvalue]
    simp only [List.isEmpty_cons, Bool.false_eq_true, if_false]
    have hmax : intMax = 2147483647 := rfl
    by_cases hint : Nat.ofDigitChars 10 (c :: digits) 0 ≤ intMax
    · rw [if_pos hint, if_neg (by omega)]
    · rw [if_neg hint, if_pos (by omega)]

theorem endswith_iff {c : Char} {t : String} (ht : t.toList = [c]) :
    endswith s t = true ↔ s.toList.getLast? = some c := by
  rw [endswith, ht, List.isSuffixOf_iff_suffix]
  constructor
  · rintro ⟨init, hinit⟩
    rw [← hinit, List.getLast?_concat]
  · intro hlast
    obtain ⟨init, hinit⟩ := List.getLast?_eq_some_iff.mp hlast
    exact ⟨init, hinit.symm⟩

theorem withUnit_eq (s : String) (n : ℤ) :
    withUnit s n = match s.toList.getLast?.bind unitOf with
      | some unit => checked .overflow (n * unit)
      | none => .error (.runtimeError ("invalid time_interval: " ++ s)) := by
  have hs := endswith_iff (s := s) (c := 's') (t := "s") rfl
  have hm := endswith_iff (s := s) (c := 'm') (t := "m") rfl
  have hh := endswith_iff (s := s) (c := 'h') (t := "h") rfl
  have hd := endswith_iff (s := s) (c := 'd') (t := "d") rfl
  have hsecond : nanosecondsPerSecond.toInt = 1000000000 := by decide
  have hminute : nanosecondsPerMinute.toInt = 60000000000 := by decide
  have hhour : nanosecondsPerHour.toInt = 3600000000000 := by decide
  have hday : nanosecondsPerDay.toInt = 86400000000000 := by decide
  simp only [withUnit, hs, hm, hh, hd, hsecond, hminute, hhour, hday]
  cases s.toList.getLast? with
  | none => rfl
  | some c =>
    rw [Option.bind_some]
    fun_cases unitOf c with
    | case5 => simp_all
    | _ => simp

theorem getLast?_bind_unitOf : s.toList.getLast?.bind unitOf = some unit ↔
    ∃ c, s.toList.getLast? = some c ∧ unitOf c = some unit := Option.bind_eq_some_iff

/-- What is made of a text that has a number and a unit. -/
theorem parseTimeInterval_of_reads (h : Reads s number unit) :
    parseTimeInterval s =
      if number ≤ intMax then checked .overflow (number * unit)
      else .error (.thrown .outOfRange) := by
  obtain ⟨⟨before, digits, after, hs, hbefore, hne, hdigits, hafter, rfl⟩, hunit⟩ := h
  have hsearch : searchDigits s.toList = digits := by
    rw [hs, searchDigits_eq hbefore hne hdigits hafter]
  have hstoi := stoi_digits hne hdigits
  obtain ⟨c, m, rfl⟩ := List.exists_cons_of_ne_nil hne
  simp only [parseTimeInterval, hsearch, hstoi]
  by_cases hint : Nat.ofDigitChars 10 (c :: m) 0 ≤ intMax
  · rw [if_pos hint, if_pos hint]
    simp only [Except.mapError, ok_bind, withUnit_eq, getLast?_bind_unitOf.mpr hunit]
  · rw [if_neg hint, if_neg hint]
    rfl

/-- Any other text is refused. -/
theorem parseTimeInterval_throws (h : ∀ number unit, ¬ Reads s number unit) :
    (∃ message, parseTimeInterval s = .error (.runtimeError message)) ∨
      parseTimeInterval s = .error (.thrown .outOfRange) := by
  obtain ⟨before, after, hs, hbefore, hdigits, hafter⟩ := exists_searchDigits s.toList
  cases hsearch : searchDigits s.toList with
  | nil => exact .inl ⟨"invalid time interval: " ++ s, by simp only [parseTimeInterval, hsearch]⟩
  | cons c m =>
    rw [hsearch] at hs hdigits
    simp only [parseTimeInterval, hsearch, stoi_digits (List.cons_ne_nil c m) hdigits]
    by_cases hint : Nat.ofDigitChars 10 (c :: m) 0 ≤ intMax
    · rw [if_pos hint]
      simp only [Except.mapError, ok_bind, withUnit_eq]
      cases hunit : s.toList.getLast?.bind unitOf with
      | none => exact .inl ⟨_, rfl⟩
      | some unit =>
        exact absurd ⟨⟨before, c :: m, after, hs, hbefore, List.cons_ne_nil c m, hdigits, hafter,
          rfl⟩, getLast?_bind_unitOf.mp hunit⟩ (h _ unit)
    · rw [if_neg hint]
      exact .inr rfl

end Parser

/-! ## The loop -/

section Loop

variable {timeInterval dataTime startTime : ℤ} {fuel : ℕ}

/-- The end of an interval that is not over at a time can be represented. -/
def EndFits (timeInterval dataTime startTime : ℤ) : Prop :=
  ∃ rounds : ℕ, dataTime ≤ startTime + (rounds + 1) * timeInterval ∧
    Representable (startTime + (rounds + 1) * timeInterval)

theorem endFits_of_skip {t : ℤ} (h : Bar.skip timeInterval dataTime fuel startTime = .ok t) :
    EndFits timeInterval dataTime startTime := by
  induction fuel generalizing startTime with
  | zero => cases h
  | succ fuel ih =>
    obtain ⟨endTime, hend, h⟩ := exists_of_bind h
    obtain ⟨hfits, rfl⟩ := checked_eq_ok_iff.mp hend
    split at h
    · obtain ⟨rounds, hrounds, hrepresentable⟩ := ih h
      refine ⟨rounds + 1, ?_⟩
      have hshift : startTime + ((rounds + 1 : ℕ) + 1) * timeInterval =
          startTime + timeInterval + (rounds + 1) * timeInterval := by
        push_cast
        ring
      rw [hshift]
      exact ⟨hrounds, hrepresentable⟩
    · refine ⟨0, ?_⟩
      simp only [Nat.cast_zero, zero_add, one_mul]
      exact ⟨by omega, hfits⟩

theorem exists_skip (hpositive : 0 < timeInterval) (hstart : Representable startTime)
    (h : EndFits timeInterval dataTime startTime) :
    ∃ fuel t, Bar.skip timeInterval dataTime fuel startTime = .ok t := by
  obtain ⟨rounds, hrounds, hfits⟩ := h
  induction rounds generalizing startTime with
  | zero =>
    simp only [Nat.cast_zero, zero_add, one_mul] at hrounds hfits
    refine ⟨1, startTime, ?_⟩
    rw [Bar.skip, checked_of_representable hfits, ok_bind, if_neg (by omega)]
  | succ rounds ih =>
    have hshift : startTime + ((rounds + 1 : ℕ) + 1) * timeInterval =
        startTime + timeInterval + (rounds + 1) * timeInterval := by
      push_cast
      ring
    rw [hshift] at hrounds hfits
    have hnext : Representable (startTime + timeInterval) := by
      have hlater : 0 ≤ (rounds + 1) * timeInterval := Int.mul_nonneg (by omega) (by omega)
      exact ⟨by have := hstart.1; omega, by have := hfits.2; omega⟩
    by_cases hbefore : startTime + timeInterval < dataTime
    · obtain ⟨fuel, t, ht⟩ := ih hnext hrounds hfits
      refine ⟨fuel + 1, t, ?_⟩
      rw [Bar.skip, checked_of_representable hnext, ok_bind, if_pos hbefore, ht]
    · refine ⟨1, startTime, ?_⟩
      rw [Bar.skip, checked_of_representable hnext, ok_bind, if_neg hbefore]

/-- More rounds than it takes change nothing. -/
theorem skip_of_le {fuel' : ℕ} {t : ℤ} (hle : fuel ≤ fuel')
    (h : Bar.skip timeInterval dataTime fuel startTime = .ok t) :
    Bar.skip timeInterval dataTime fuel' startTime = .ok t := by
  induction fuel generalizing fuel' startTime with
  | zero => cases h
  | succ fuel ih =>
    obtain ⟨fuel', rfl⟩ : ∃ k, fuel' = k + 1 := ⟨fuel' - 1, by omega⟩
    obtain ⟨endTime, hend, h⟩ := exists_of_bind h
    rw [Bar.skip, hend, ok_bind]
    split at h
    · rename_i hbefore
      rw [if_pos hbefore]
      exact ih (by omega) h
    · rename_i hbefore
      rw [if_neg hbefore]
      exact h

/-- The loop ends where it is to end. -/
theorem eq_skipTo_of_skip (hpositive : 0 < timeInterval) {rounds : ℕ} {t : ℤ}
    (hrounds : dataTime - startTime ≤ rounds)
    (h : Bar.skip timeInterval dataTime fuel startTime = .ok t) :
    t = Bar.skipTo timeInterval dataTime rounds startTime := by
  induction fuel generalizing startTime rounds with
  | zero => cases h
  | succ fuel ih =>
    obtain ⟨endTime, hend, h⟩ := exists_of_bind h
    obtain ⟨-, rfl⟩ := checked_eq_ok_iff.mp hend
    split at h
    · rename_i hbefore
      obtain ⟨rounds, rfl⟩ : ∃ k, rounds = k + 1 := ⟨rounds - 1, by omega⟩
      rw [Bar.skipTo, if_pos hbefore]
      exact ih (by push_cast at hrounds; omega) h
    · rename_i hbefore
      cases h
      cases rounds with
      | zero => rfl
      | succ rounds => rw [Bar.skipTo, if_neg hbefore]

theorem representable_skip {t : ℤ} (h : Bar.skip timeInterval dataTime fuel startTime = .ok t) :
    Representable (t + timeInterval) := by
  induction fuel generalizing startTime with
  | zero => cases h
  | succ fuel ih =>
    obtain ⟨endTime, hend, h⟩ := exists_of_bind h
    obtain ⟨hfits, rfl⟩ := checked_eq_ok_iff.mp hend
    split at h
    · exact ih h
    · cases h
      exact hfits

end Loop

/-! ## One quote -/

namespace BarTable

open BarRun

variable {table table' : BarTable} {g : BarGenerator} {event : QuoteEvent}
  {events : List QuoteEvent}
  {fuel : ℕ} {bar : Bar}

/-- The bar that a quote meets. -/
def current (g : BarGenerator) (event : QuoteEvent) : Bar :=
  (g.bars event.quote.instrumentKey).getD (Bar.ofQuote g.timeInterval event.genTime event.quote)

/-- The end of the bar that a quote meets can be represented, and if the quote is not before it, the
end of a later one that is not over. -/
def Serves (g : BarGenerator) (event : QuoteEvent) : Prop :=
  Representable (current g event).endTime ∧ ((current g event).endTime ≤ event.quote.dataTime →
    EndFits g.timeInterval event.quote.dataTime (current g event).endTime)

/-- A table with the bars of a generator, whose ends were all represented. -/
structure Shows (table : BarTable) (g : BarGenerator) : Prop where
  bars : table.bars = g.bars
  written : table.written = g.written
  fits : ∀ key bar, g.bars key = some bar → Representable bar.endTime

theorem entry_eq_ok_iff (h : Shows table g) : table.entry g.timeInterval event = .ok bar ↔
    current g event = bar ∧ Representable (current g event).endTime := by
  rw [entry, h.bars, current]
  cases hbar : g.bars event.quote.instrumentKey with
  | some bar' =>
    have hfits := h.fits _ _ hbar
    simp only [Except.ok.injEq, Option.getD_some]
    exact ⟨fun heq => ⟨heq, hfits⟩, And.left⟩
  | none =>
    have hne : g.timeInterval ≠ 0 := g.positive.ne'
    simp only [Bar.create, if_neg hne, Option.getD_none]
    by_cases hfits :
        Representable (event.genTime - event.genTime.tmod g.timeInterval + g.timeInterval)
    · rw [checked_of_representable hfits, ok_bind, Except.ok.injEq]
      exact ⟨fun heq => ⟨heq, hfits⟩, And.left⟩
    · rw [checked_of_not_representable hfits]
      exact ⟨(nomatch ·), fun hbar => absurd hbar.2 hfits⟩

/-- The handler, after the bar was found. -/
theorem onQuote_of_entry
    (hentry : table.entry g.timeInterval event = .ok (current g event)) :
    onQuote fuel g.timeInterval table event =
      if (counted g event).endTime ≤ event.quote.dataTime then
        (Bar.skip g.timeInterval event.quote.dataTime fuel (counted g event).endTime).map
          fun startTime =>
          { bars := Function.update table.bars event.quote.instrumentKey
              (some ((counted g event).restart g.timeInterval startTime event.quote))
            written := table.written ++ [counted g event] }
      else .ok { table with
        bars :=
          Function.update table.bars event.quote.instrumentKey (some (counted g event)) } := by
  simp only [onQuote, hentry, ok_bind]
  rfl

/-- An entry is changed. -/
theorem Shows.update (h : Shows table g) (hfits : Representable bar.endTime) {key : UInt32}
    {g' : BarGenerator} {written : List Bar}
    (hbars : g'.bars = Function.update g.bars key (some bar))
    (hwritten : g'.written = written) :
    Shows ⟨Function.update table.bars key (some bar), written⟩ g' := by
  refine ⟨by rw [hbars, h.bars], hwritten.symm, fun key' bar' hbar' => ?_⟩
  rw [hbars] at hbar'
  by_cases hkey : key' = key
  · subst hkey
    rw [Function.update_self, Option.some_inj] at hbar'
    exact hbar' ▸ hfits
  · rw [Function.update_of_ne hkey] at hbar'
    exact h.fits key' bar' hbar'

theorem endTime_restart (bar : Bar) (timeInterval startTime : ℤ) (quote : Quote) :
    (bar.restart timeInterval startTime quote).endTime = startTime + timeInterval := by
  simp only [Bar.restart]
  split <;> rfl

/-- A quote that is handled is served, and handled as it is to be. -/
theorem of_onQuote (h : Shows table g)
    (hok : onQuote fuel g.timeInterval table event = .ok table') :
    Serves g event ∧ Shows table' (g.onQuote event) := by
  obtain ⟨bar, hentry, -⟩ := exists_of_bind hok
  obtain ⟨rfl, hfits⟩ := (entry_eq_ok_iff h).mp hentry
  rw [onQuote_of_entry hentry] at hok
  have hend : (counted g event).endTime = (current g event).endTime := endTime_counted
  split at hok
  · rename_i hover
    obtain ⟨startTime, hskip, rfl⟩ := exists_of_map hok
    have hlast := representable_skip hskip
    have hrounds : event.quote.dataTime - (counted g event).endTime ≤
        (event.quote.dataTime - (counted g event).endTime).toNat := by omega
    refine ⟨⟨hfits, fun _ => hend ▸ endFits_of_skip hskip⟩, ?_⟩
    apply h.update (by rwa [endTime_restart])
    · rw [onQuote_eq, if_pos hover, eq_skipTo_of_skip g.positive hrounds hskip]
      rfl
    · rw [onQuote_eq, if_pos hover, h.written]
  · rename_i hover
    cases hok
    refine ⟨⟨hfits, fun hlate => absurd (hend ▸ hlate) hover⟩, ?_⟩
    apply h.update (hend ▸ hfits)
    · rw [onQuote_eq, if_neg hover]
    · rw [onQuote_eq, if_neg hover, h.written]

theorem exists_onQuote (h : Shows table g) (hserves : Serves g event) :
    ∃ fuel table', onQuote fuel g.timeInterval table event = .ok table' := by
  have hentry := (entry_eq_ok_iff h).mpr ⟨rfl, hserves.1⟩
  have hend : (counted g event).endTime = (current g event).endTime := endTime_counted
  by_cases hover : (counted g event).endTime ≤ event.quote.dataTime
  · obtain ⟨fuel, startTime, hskip⟩ := exists_skip g.positive (hend ▸ hserves.1)
      (hend ▸ hserves.2 (hend ▸ hover))
    refine ⟨fuel, ?_⟩
    rw [onQuote_of_entry hentry, if_pos hover, hskip]
    exact ⟨_, rfl⟩
  · refine ⟨0, ?_⟩
    rw [onQuote_of_entry hentry, if_neg hover]
    exact ⟨_, rfl⟩

/-- More rounds than it takes change nothing. -/
theorem onQuote_of_le {timeInterval : ℤ} {fuel' : ℕ} (hle : fuel ≤ fuel')
    (hok : onQuote fuel timeInterval table event = .ok table') :
    onQuote fuel' timeInterval table event = .ok table' := by
  obtain ⟨bar, hentry, -⟩ := exists_of_bind hok
  simp only [onQuote, hentry, ok_bind] at hok ⊢
  generalize (if bar.startTime ≤ event.quote.dataTime ∧ event.quote.dataTime ≤ bar.endTime then
    bar.countTick event.quote else bar) = counted at hok ⊢
  split at hok
  · rename_i hover
    obtain ⟨startTime, hskip, hstart⟩ := exists_of_bind hok
    rw [if_pos hover, skip_of_le hle hskip, ok_bind, hstart]
  · rename_i hover
    rw [if_neg hover, hok]

/-! ## Streams of quotes -/

theorem foldlM_of_le {timeInterval : ℤ} {fuel' : ℕ} (hle : fuel ≤ fuel')
    (hok : events.foldlM (onQuote fuel timeInterval) table = .ok table') :
    events.foldlM (onQuote fuel' timeInterval) table = .ok table' := by
  induction events generalizing table with
  | nil => exact hok
  | cons event events ih =>
    obtain ⟨table₁, hstep, hrest⟩ := exists_of_bind hok
    rw [List.foldlM_cons, onQuote_of_le hle hstep, ok_bind, ih hrest]

/-- A stream is handled just if its quotes are served. -/
theorem exists_foldlM_iff (h : Shows table g) :
    (∃ fuel table', events.foldlM (onQuote fuel g.timeInterval) table = .ok table') ↔
      Along BarGenerator.onQuote Serves g events := by
  induction events generalizing table g with
  | nil => exact iff_of_true ⟨0, table, rfl⟩ trivial
  | cons event events ih =>
    constructor
    · rintro ⟨fuel, table', hrun⟩
      obtain ⟨table₁, hstep, hrest⟩ := exists_of_bind hrun
      obtain ⟨hserves, h₁⟩ := of_onQuote h hstep
      refine ⟨hserves, (ih h₁).mp ⟨fuel, table', ?_⟩⟩
      rwa [timeInterval_onQuote]
    · rintro ⟨hserves, hrest⟩
      obtain ⟨fuel, table₁, hstep⟩ := exists_onQuote h hserves
      have h₁ := (of_onQuote h hstep).2
      obtain ⟨fuel', table', hrun⟩ := (ih h₁).mpr hrest
      rw [timeInterval_onQuote] at hrun
      refine ⟨max fuel fuel', table', ?_⟩
      rw [List.foldlM_cons, onQuote_of_le (le_max_left ..) hstep, ok_bind]
      exact foldlM_of_le (le_max_right ..) hrun

end BarTable

theorem Reads.eq {s : String} {number number' : ℕ} {unit unit' : ℤ} (h : Reads s number unit)
    (h' : Reads s number' unit') : number = number' ∧ unit = unit' := by
  obtain ⟨⟨before, digits, after, hs, hbefore, hne, hdigits, hafter, rfl⟩, c, hc, hunit⟩ := h
  obtain ⟨⟨before', digits', after', hs', hbefore', hne', hdigits', hafter', rfl⟩, c', hc',
    hunit'⟩ := h'
  constructor
  · have heq := searchDigits_eq hbefore hne hdigits hafter
    rw [← hs, hs', searchDigits_eq hbefore' hne' hdigits' hafter'] at heq
    rw [heq]
  · obtain rfl : c = c' := Option.some.inj (hc.symm.trans hc')
    exact Option.some.inj (hunit.symm.trans hunit')

/-- A text is safe for a stream just if its number is too large for an `int`, or the interval is
positive and can be represented, and every quote is served. -/
theorem safeInterval_iff (s : String) (events : List QuoteEvent) :
    SafeInterval s events ↔ ∀ number unit, Reads s number unit → number ≤ intMax →
      Representable (number * unit) ∧ ∃ positive : 0 < number * unit,
        Along BarGenerator.onQuote BarTable.Serves (BarRun.start (number * unit) positive).generator
          events := by
  by_cases hreads : ∃ number unit, Reads s number unit
  · obtain ⟨number, unit, hreads⟩ := hreads
    have hparse := parseTimeInterval_of_reads hreads
    by_cases hint : number ≤ intMax
    · rw [if_pos hint] at hparse
      have hrun (positive : 0 < number * unit) : (∃ fuel table,
          BarTable.run fuel (number * unit) events = .ok table) ↔ Along BarGenerator.onQuote
            BarTable.Serves (BarRun.start (number * unit) positive).generator events :=
        BarTable.exists_foldlM_iff (g := (BarRun.start (number * unit) positive).generator)
          ⟨rfl, rfl, fun _ _ hbar => by cases hbar⟩
      constructor
      · intro hsafe number' unit' hreads' _
        obtain ⟨rfl, rfl⟩ := hreads.eq hreads'
        by_cases hfits : Representable (number * unit)
        · rw [checked_of_representable hfits] at hparse
          rw [SafeInterval, hparse] at hsafe
          obtain ⟨positive, -, hhandled⟩ := hsafe
          exact ⟨hfits, positive, (hrun positive).mp hhandled⟩
        · rw [checked_of_not_representable hfits] at hparse
          rw [SafeInterval, hparse] at hsafe
          exact hsafe.elim
      · intro h
        obtain ⟨hfits, positive, halong⟩ := h number unit hreads hint
        rw [checked_of_representable hfits] at hparse
        rw [SafeInterval, hparse]
        exact ⟨positive, ⟨number, unit, hreads, rfl⟩, (hrun positive).mpr halong⟩
    · rw [if_neg hint] at hparse
      rw [SafeInterval, hparse]
      refine iff_of_true trivial fun number' unit' hreads' hint' => ?_
      obtain ⟨rfl, -⟩ := hreads.eq hreads'
      exact absurd hint' hint
  · push Not at hreads
    refine iff_of_true ?_ fun number unit h => absurd h (hreads number unit)
    rcases parseTimeInterval_throws hreads with ⟨message, hthrows⟩ | hthrows
    · rw [SafeInterval, hthrows]
      trivial
    · rw [SafeInterval, hthrows]
      trivial

/-- A quote of an instrument that has no bar yet. -/
def firstQuote : QuoteEvent :=
  ⟨1704110400000000000, ⟨"600000", "SSE", 1704110400000000000, 10, 100⟩⟩

/-- With an interval of no seconds, the first quote divides by zero. -/
theorem not_safeInterval_zero :
    parseTimeInterval "0s" = .ok 0 ∧
      (∀ fuel, BarTable.run fuel 0 [firstQuote] = .error .divisionByZero) ∧
      ¬ SafeInterval "0s" [firstQuote] := by
  have hparse : parseTimeInterval "0s" = .ok 0 := by decide +kernel
  refine ⟨hparse, fun fuel => rfl, ?_⟩
  rw [SafeInterval, hparse]
  exact fun h => absurd h.1 (by decide)

end Kungfu.Wingchun
