import Kungfu.Wingchun.Quote
import Kungfu.Logic.Run
import Mathlib.Tactic.Ring

/-!
# Bars

A bar sums up the quotes of an instrument in an interval of time.  The generator has one bar for
each hash of an instrument; a quote is counted in it, and one at its end or later has it written and
starts the next one.
-/

namespace Kungfu.Wingchun

open Longfist

/-- `longfist::types::Bar`; `openPrice` and so on are `open`, `close`, `low` and `high`. -/
structure Bar where
  instrumentId : String
  exchangeId : String
  startTime : ℤ
  endTime : ℤ
  openPrice : ℚ
  closePrice : ℚ
  lowPrice : ℚ
  highPrice : ℚ
  volume : ℤ
  startVolume : ℤ
  tickCount : ℤ
  deriving DecidableEq, Repr

def Quote.instrumentKey (quote : Quote) : UInt32 := hashInstrument quote.exchangeId quote.instrumentId

namespace Bar

def instrumentKey (bar : Bar) : UInt32 := hashInstrument bar.exchangeId bar.instrumentId

/-- The bar that an instrument starts with. -/
def ofQuote (timeInterval genTime : ℤ) (quote : Quote) : Bar where
  instrumentId := quote.instrumentId
  exchangeId := quote.exchangeId
  startTime := genTime - genTime.tmod timeInterval
  endTime := genTime - genTime.tmod timeInterval + timeInterval
  openPrice := 0
  closePrice := 0
  lowPrice := 0
  highPrice := 0
  volume := 0
  startVolume := 0
  tickCount := 0

/-- A quote is counted. -/
def countTick (quote : Quote) (bar : Bar) : Bar :=
  let bar :=
    if bar.tickCount = 0 then
      { bar with
        highPrice := quote.lastPrice
        lowPrice := quote.lastPrice
        openPrice := quote.lastPrice
        closePrice := quote.lastPrice
        startVolume := quote.volume }
    else bar
  { bar with
    tickCount := bar.tickCount + 1
    volume := quote.volume - bar.startVolume
    highPrice := max bar.highPrice quote.lastPrice
    lowPrice := min bar.lowPrice quote.lastPrice
    closePrice := quote.lastPrice }

/-- The loop over intervals without quotes, with as many rounds as it can have. -/
def skipTo (timeInterval dataTime : ℤ) : ℕ → ℤ → ℤ
  | 0, startTime => startTime
  | rounds + 1, startTime =>
      if startTime + timeInterval < dataTime then
        skipTo timeInterval dataTime rounds (startTime + timeInterval)
      else startTime

/-- The bar after one that was written. -/
def next (timeInterval : ℤ) (quote : Quote) (bar : Bar) : Bar :=
  let startTime :=
    skipTo timeInterval quote.dataTime (quote.dataTime - bar.endTime).toNat bar.endTime
  let bar := { bar with
    startTime := startTime
    endTime := startTime + timeInterval }
  if bar.startTime ≤ quote.dataTime then
    { bar with
      tickCount := 1
      startVolume := quote.volume
      volume := 0
      highPrice := quote.lastPrice
      lowPrice := quote.lastPrice
      openPrice := quote.lastPrice
      closePrice := quote.lastPrice }
  else
    { bar with
      tickCount := 0
      startVolume := 0
      volume := 0
      highPrice := 0
      lowPrice := 0
      openPrice := 0
      closePrice := 0 }

end Bar

/-- `BarGenerator`, with the bars that it wrote. -/
structure BarGenerator where
  timeInterval : ℤ
  positive : 0 < timeInterval
  bars : UInt32 → Option Bar
  written : List Bar

/-- A quote with the time of its frame. -/
structure QuoteEvent where
  genTime : ℤ
  quote : Quote

namespace BarGenerator

/-- The handler of quotes in `BarGenerator::on_start`. -/
def onQuote (g : BarGenerator) (event : QuoteEvent) : BarGenerator :=
  let quote := event.quote
  let instrumentKey := quote.instrumentKey
  let bar := (g.bars instrumentKey).getD (Bar.ofQuote g.timeInterval event.genTime quote)
  let bar :=
    if bar.startTime ≤ quote.dataTime ∧ quote.dataTime ≤ bar.endTime then bar.countTick quote else bar
  if bar.endTime ≤ quote.dataTime then
    { g with
      bars := Function.update g.bars instrumentKey (some (bar.next g.timeInterval quote))
      written := g.written ++ [bar] }
  else { g with bars := Function.update g.bars instrumentKey (some bar) }

/-- The bars under a key: those that were written, and the one that quotes are counted in. -/
def barsOf (g : BarGenerator) (key : UInt32) : List Bar :=
  g.written.filter (·.instrumentKey = key) ++ (g.bars key).toList

end BarGenerator

/-! ## What bars are to say -/

namespace Bar

/-- A bar is for a time. -/
def Contains (bar : Bar) (time : ℤ) : Prop := bar.startTime ≤ time ∧ time < bar.endTime

instance (bar : Bar) : DecidablePred bar.Contains := fun _ => inferInstanceAs (Decidable (_ ∧ _))

/-- The quotes that a bar is for. -/
def quotesIn (bar : Bar) (quotes : List Quote) : List Quote :=
  quotes.filter fun q => bar.Contains q.dataTime

end Bar

/-- A bar says what there is to say of its quotes. -/
structure Summarises (bar : Bar) (quotes : List Quote) : Prop where
  tickCount : bar.tickCount = quotes.length
  first : ∃ q, quotes.head? = some q ∧ q.lastPrice = bar.openPrice ∧ q.volume = bar.startVolume
  last : ∃ q, quotes.getLast? = some q ∧ q.lastPrice = bar.closePrice ∧
    q.volume = bar.startVolume + bar.volume
  high : (∃ q ∈ quotes, q.lastPrice = bar.highPrice) ∧ ∀ q ∈ quotes, q.lastPrice ≤ bar.highPrice
  low : (∃ q ∈ quotes, q.lastPrice = bar.lowPrice) ∧ ∀ q ∈ quotes, bar.lowPrice ≤ q.lastPrice

namespace Summarises

variable {bar : Bar} {quotes : List Quote} {quote : Quote}

theorem ne_nil (h : Summarises bar quotes) : quotes ≠ [] := by
  rintro rfl
  obtain ⟨q, hq, -⟩ := h.first
  cases hq

theorem one_le_tickCount (h : Summarises bar quotes) : 1 ≤ bar.tickCount := by
  rw [h.tickCount]
  have hpos := List.length_pos_iff.mpr h.ne_nil
  omega

/-- One more quote is counted. -/
theorem countTick (h : Summarises bar quotes) :
    Summarises (bar.countTick quote) (quotes ++ [quote]) := by
  have hcount : ¬ bar.tickCount = 0 := by
    have hone := h.one_le_tickCount
    omega
  obtain ⟨first, hfirst, hopen, hstart⟩ := h.first
  obtain ⟨⟨highest, hhighest, hhigh⟩, hle⟩ := h.high
  obtain ⟨⟨lowest, hlowest, hlow⟩, hge⟩ := h.low
  simp only [Bar.countTick, if_neg hcount]
  refine ⟨?_, ⟨first, ?_, hopen, hstart⟩, ⟨quote, by simp, rfl, by simp⟩, ⟨?_, ?_⟩, ⟨?_, ?_⟩⟩
  · simp [h.tickCount]
  · rw [List.head?_append, hfirst]
    rfl
  · rcases max_choice bar.highPrice quote.lastPrice with hmax | hmax
    · exact ⟨highest, by simp [hhighest], by rw [hmax, hhigh]⟩
    · exact ⟨quote, by simp, by rw [hmax]⟩
  · intro q hq
    rcases List.mem_append.mp hq with hq | hq
    · exact (hle q hq).trans (le_max_left ..)
    · rw [List.mem_singleton.mp hq]
      exact le_max_right ..
  · rcases min_choice bar.lowPrice quote.lastPrice with hmin | hmin
    · exact ⟨lowest, by simp [hlowest], by rw [hmin, hlow]⟩
    · exact ⟨quote, by simp, by rw [hmin]⟩
  · intro q hq
    rcases List.mem_append.mp hq with hq | hq
    · exact (min_le_left ..).trans (hge q hq)
    · rw [List.mem_singleton.mp hq]
      exact min_le_right ..

/-- A bar of one quote. -/
theorem singleton (hcount : bar.tickCount = 1) (hopen : bar.openPrice = quote.lastPrice)
    (hclose : bar.closePrice = quote.lastPrice) (hhigh : bar.highPrice = quote.lastPrice)
    (hlow : bar.lowPrice = quote.lastPrice) (hstart : bar.startVolume = quote.volume)
    (hvolume : bar.volume = 0) : Summarises bar [quote] := by
  refine ⟨by simp [hcount], ⟨quote, rfl, hopen.symm, hstart.symm⟩, ⟨quote, rfl, hclose.symm, ?_⟩,
    ⟨⟨quote, by simp, hhigh.symm⟩, ?_⟩, ⟨⟨quote, by simp, hlow.symm⟩, ?_⟩⟩
  · rw [hstart, hvolume, add_zero]
  · intro q hq
    rw [List.mem_singleton.mp hq, hhigh]
  · intro q hq
    rw [List.mem_singleton.mp hq, hlow]

end Summarises

/-! ## Where bars start -/

namespace Bar

variable {timeInterval dataTime startTime : ℤ} {rounds : ℕ} {bar : Bar} {quote : Quote}

/-- The loop ends in front of a time, as long as it has rounds enough. -/
theorem skipTo_spec (hpositive : 0 < timeInterval) (hrounds : dataTime - startTime ≤ rounds) :
    startTime ≤ skipTo timeInterval dataTime rounds startTime ∧
      timeInterval ∣ skipTo timeInterval dataTime rounds startTime - startTime ∧
      dataTime ≤ skipTo timeInterval dataTime rounds startTime + timeInterval ∧
      (skipTo timeInterval dataTime rounds startTime = startTime ∨
        skipTo timeInterval dataTime rounds startTime < dataTime) := by
  induction rounds generalizing startTime with
  | zero =>
      rw [skipTo]
      refine ⟨le_rfl, by simp, ?_, .inl rfl⟩
      push_cast at hrounds
      omega
  | succ rounds ih =>
      rw [skipTo]
      split
      · rename_i hbefore
        have hrounds' : dataTime - (startTime + timeInterval) ≤ rounds := by
          push_cast at hrounds
          omega
        obtain ⟨hle, hdvd, hend, hlast⟩ := ih hrounds'
        refine ⟨by omega, ?_, hend, .inr ?_⟩
        · have hsplit : skipTo timeInterval dataTime rounds (startTime + timeInterval) - startTime =
              skipTo timeInterval dataTime rounds (startTime + timeInterval) -
                (startTime + timeInterval) + timeInterval := by ring
          rw [hsplit]
          exact Int.dvd_add hdvd (Int.dvd_refl _)
        · omega
      · exact ⟨le_rfl, by simp, by omega, .inl rfl⟩

/-- The bar after a time that was not before the end of the one before. -/
structure Follows (timeInterval : ℤ) (quote : Quote) (bar bar' : Bar) : Prop where
  instrumentId : bar'.instrumentId = bar.instrumentId
  exchangeId : bar'.exchangeId = bar.exchangeId
  endTime : bar'.endTime = bar'.startTime + timeInterval
  aligned : timeInterval ∣ bar'.startTime - bar.endTime
  le_startTime : bar.endTime ≤ bar'.startTime
  startTime_le : bar'.startTime ≤ quote.dataTime
  le_endTime : quote.dataTime ≤ bar'.endTime
  startTime_lt : bar'.startTime = bar.endTime ∨ bar'.startTime < quote.dataTime
  summarises : Summarises bar' [quote]
  volume : bar'.volume = 0

theorem follows_next (hpositive : 0 < timeInterval) (hend : bar.endTime ≤ quote.dataTime) :
    Follows timeInterval quote bar (bar.next timeInterval quote) := by
  have hrounds : quote.dataTime - bar.endTime ≤ ((quote.dataTime - bar.endTime).toNat : ℤ) := by
    omega
  obtain ⟨hle, hdvd, hend', hlast⟩ := skipTo_spec hpositive hrounds
  have hstart : skipTo timeInterval quote.dataTime (quote.dataTime - bar.endTime).toNat bar.endTime ≤
      quote.dataTime := by omega
  simp only [next, if_pos hstart]
  exact ⟨rfl, rfl, rfl, hdvd, hle, hstart, hend', hlast,
    Summarises.singleton rfl rfl rfl rfl rfl rfl rfl, rfl⟩

@[simp] theorem startTime_countTick : (bar.countTick quote).startTime = bar.startTime := by
  simp only [countTick]
  split <;> rfl

@[simp] theorem endTime_countTick : (bar.countTick quote).endTime = bar.endTime := by
  simp only [countTick]
  split <;> rfl

@[simp] theorem instrumentId_countTick : (bar.countTick quote).instrumentId = bar.instrumentId := by
  simp only [countTick]
  split <;> rfl

@[simp] theorem exchangeId_countTick : (bar.countTick quote).exchangeId = bar.exchangeId := by
  simp only [countTick]
  split <;> rfl

theorem tickCount_countTick : (bar.countTick quote).tickCount = bar.tickCount + 1 := by
  simp only [countTick]
  split <;> rfl

theorem volume_countTick (h : bar.tickCount ≠ 0) :
    (bar.countTick quote).volume = quote.volume - bar.startVolume := by
  simp only [countTick, if_neg h]

theorem contains_countTick {time : ℤ} : (bar.countTick quote).Contains time ↔ bar.Contains time := by
  simp [Contains]

end Bar

/-! ## Bars that divide quotes among them -/

/-- Bars divide quotes among them: they are one after the other at multiples of an interval, every
quote belongs to one, each says what there is to say of its own quotes, and no volume is lost. -/
structure Divides (timeInterval : ℤ) (quotes : List Quote) (bars : List Bar) : Prop where
  sameInstrument : ∀ q ∈ quotes, ∀ bar ∈ bars,
    bar.instrumentId = q.instrumentId ∧ bar.exchangeId = q.exchangeId
  aligned : ∀ bar ∈ bars, timeInterval ∣ bar.startTime ∧ bar.endTime = bar.startTime + timeInterval
  ordered : bars.Pairwise fun bar bar' => bar.endTime ≤ bar'.startTime
  summarises : ∀ bar ∈ bars, Summarises bar (bar.quotesIn quotes)
  covered : ∀ q ∈ quotes, ∃ bar ∈ bars, bar.Contains q.dataTime
  volume : ∀ first ∈ quotes.head?, ∀ last ∈ quotes.getLast?,
    (bars.map (·.volume)).sum = last.volume - first.volume

namespace Divides

variable {timeInterval : ℤ} {quotes : List Quote} {bars earlier : List Bar} {bar bar' : Bar}
  {quote : Quote}

theorem quotesIn_append_singleton : bar.quotesIn (quotes ++ [quote]) =
    bar.quotesIn quotes ++ if bar.Contains quote.dataTime then [quote] else [] := by
  rw [Bar.quotesIn, List.filter_append, ← Bar.quotesIn]
  congr 1
  by_cases h : bar.Contains quote.dataTime <;> simp [h]

theorem nil (timeInterval : ℤ) : Divides timeInterval [] [] := by
  constructor <;> simp

/-- Without quotes there are no bars. -/
theorem eq_nil (h : Divides timeInterval [] bars) : bars = [] := by
  apply List.eq_nil_iff_forall_not_mem.mpr
  intro bar hbar
  exact (h.summarises bar hbar).ne_nil rfl

/-- Every bar has a quote. -/
theorem exists_quote (h : Divides timeInterval quotes bars) (hbar : bar ∈ bars) :
    ∃ q ∈ quotes, bar.Contains q.dataTime := by
  obtain ⟨q, hq⟩ := List.exists_mem_of_ne_nil _ (h.summarises bar hbar).ne_nil
  rw [Bar.quotesIn, List.mem_filter] at hq
  exact ⟨q, hq.1, by simpa using hq.2⟩

section Last

variable (h : Divides timeInterval quotes (earlier ++ [bar])) (hpositive : 0 < timeInterval)

include h

theorem endTime_le_startTime {b : Bar} (hb : b ∈ earlier) : b.endTime ≤ bar.startTime :=
  (List.pairwise_append.mp h.ordered).2.2 b hb bar (by simp)

/-- The quotes so far come before the end of the last bar. -/
theorem dataTime_lt_endTime (hpositive : 0 < timeInterval) {q : Quote} (hq : q ∈ quotes) :
    q.dataTime < bar.endTime := by
  obtain ⟨b, hb, -, hend⟩ := h.covered q hq
  rcases List.mem_append.mp hb with hb | hb
  · have hle := h.endTime_le_startTime hb
    have hbar := (h.aligned bar (by simp)).2
    omega
  · rwa [List.mem_singleton.mp hb] at hend

variable (hsorted : (quotes ++ [quote]).Pairwise fun q q' => q.dataTime ≤ q'.dataTime)

include hsorted

/-- A quote that comes next does not come before the last bar. -/
theorem startTime_le_dataTime : bar.startTime ≤ quote.dataTime := by
  obtain ⟨q, hq, hstart, -⟩ := h.exists_quote (by simp : bar ∈ _)
  have hle := (List.pairwise_append.mp hsorted).2.2 q hq quote (by simp)
  omega

theorem not_contains_of_mem_earlier {b : Bar} (hb : b ∈ earlier) : ¬ b.Contains quote.dataTime := by
  rintro ⟨-, hend⟩
  have hle := h.endTime_le_startTime hb
  have hstart := h.startTime_le_dataTime hsorted
  omega

/-- The last quote is counted in the last bar. -/
theorem volume_getLast (hpositive : 0 < timeInterval) {last : Quote}
    (hlast : quotes.getLast? = some last) : last.volume = bar.startVolume + bar.volume := by
  obtain ⟨init, rfl⟩ := List.getLast?_eq_some_iff.mp hlast
  obtain ⟨q, hq, hstart, -⟩ := h.exists_quote (by simp : bar ∈ _)
  have hle : q.dataTime ≤ last.dataTime := by
    rcases List.mem_append.mp hq with hq | hq
    · have hinit := (List.pairwise_append.mp hsorted).1
      exact (List.pairwise_append.mp hinit).2.2 q hq last (by simp)
    · rw [List.mem_singleton.mp hq]
  have hend := h.dataTime_lt_endTime hpositive (q := last) (by simp)
  obtain ⟨q', hq', -, hvolume⟩ := (h.summarises bar (by simp)).last
  rw [quotesIn_append_singleton, if_pos ⟨by omega, hend⟩, List.getLast?_append] at hq'
  cases hq'
  exact hvolume

/-- The volume up to the next quote. -/
theorem volume_append (hpositive : 0 < timeInterval) :
    ∀ first ∈ (quotes ++ [quote]).head?, ∀ last ∈ (quotes ++ [quote]).getLast?,
      (earlier.map (·.volume)).sum + (quote.volume - bar.startVolume) =
        last.volume - first.volume := by
  intro first hfirst last hlast
  obtain ⟨q, hq, -⟩ := h.exists_quote (by simp : bar ∈ _)
  obtain ⟨last₀, hlast₀⟩ := Option.isSome_iff_exists.mp
    (List.getLast?_isSome.mpr (List.ne_nil_of_mem hq))
  obtain ⟨first₀, hfirst₀⟩ := Option.isSome_iff_exists.mp
    (List.isSome_head?.mpr (List.ne_nil_of_mem hq))
  rw [List.head?_append, hfirst₀] at hfirst
  rw [List.getLast?_concat] at hlast
  cases hfirst
  cases hlast
  have hvolume := h.volume _ hfirst₀ _ hlast₀
  rw [h.volume_getLast hsorted hpositive hlast₀, List.map_append, List.sum_append] at hvolume
  simp only [List.map_cons, List.map_nil, List.sum_cons, List.sum_nil] at hvolume
  omega

omit hsorted in
theorem sameInstrument_append
    (hsame : bar.instrumentId = quote.instrumentId ∧ bar.exchangeId = quote.exchangeId) :
    ∀ q ∈ quotes ++ [quote], ∀ b ∈ earlier ++ [bar],
      b.instrumentId = q.instrumentId ∧ b.exchangeId = q.exchangeId := by
  intro q hq b hb
  rcases List.mem_append.mp hq with hq | hq
  · exact h.sameInstrument q hq b hb
  · obtain ⟨q₀, hq₀, -⟩ := h.exists_quote (by simp : bar ∈ _)
    obtain ⟨hid, hexchange⟩ := h.sameInstrument q₀ hq₀ bar (by simp)
    obtain ⟨hid', hexchange'⟩ := h.sameInstrument q₀ hq₀ b hb
    rw [List.mem_singleton.mp hq, hid', hexchange', ← hid, ← hexchange]
    exact hsame

/-- A quote that falls into the last bar is counted in it. -/
theorem countTick (hpositive : 0 < timeInterval)
    (hsame : bar.instrumentId = quote.instrumentId ∧ bar.exchangeId = quote.exchangeId)
    (hbefore : quote.dataTime < bar.endTime) :
    Divides timeInterval (quotes ++ [quote]) (earlier ++ [bar.countTick quote]) := by
  have hcontains : bar.Contains quote.dataTime := ⟨h.startTime_le_dataTime hsorted, hbefore⟩
  have hsummary := h.summarises bar (by simp)
  have hold := h.sameInstrument_append hsame
  have hordered := List.pairwise_append.mp h.ordered
  constructor
  · intro q hq b hb
    rcases List.mem_append.mp hb with hb | hb
    · exact hold q hq b (List.mem_append_left _ hb)
    · rw [List.mem_singleton.mp hb]
      simpa using hold q hq bar (by simp)
  · intro b hb
    rcases List.mem_append.mp hb with hb | hb
    · exact h.aligned b (List.mem_append_left _ hb)
    · rw [List.mem_singleton.mp hb]
      simpa using h.aligned bar (by simp)
  · refine List.pairwise_append.mpr ⟨hordered.1, List.pairwise_singleton .., ?_⟩
    intro b hb b' hb'
    rw [List.mem_singleton.mp hb', Bar.startTime_countTick]
    exact h.endTime_le_startTime hb
  · intro b hb
    rcases List.mem_append.mp hb with hb | hb
    · rw [quotesIn_append_singleton, if_neg (h.not_contains_of_mem_earlier hsorted hb),
        List.append_nil]
      exact h.summarises b (List.mem_append_left _ hb)
    · rw [List.mem_singleton.mp hb]
      have hquotes : (bar.countTick quote).quotesIn (quotes ++ [quote]) =
          bar.quotesIn quotes ++ [quote] := by
        rw [quotesIn_append_singleton, if_pos (Bar.contains_countTick.mpr hcontains)]
        simp only [Bar.quotesIn, Bar.contains_countTick]
      rw [hquotes]
      exact hsummary.countTick
  · intro q hq
    rcases List.mem_append.mp hq with hq | hq
    · obtain ⟨b, hb, hb'⟩ := h.covered q hq
      rcases List.mem_append.mp hb with hb | hb
      · exact ⟨b, List.mem_append_left _ hb, hb'⟩
      · rw [List.mem_singleton.mp hb] at hb'
        exact ⟨bar.countTick quote, by simp, Bar.contains_countTick.mpr hb'⟩
    · rw [List.mem_singleton.mp hq]
      exact ⟨bar.countTick quote, by simp, Bar.contains_countTick.mpr hcontains⟩
  · intro first hfirst last hlast
    have hone := hsummary.one_le_tickCount
    rw [← h.volume_append hsorted hpositive first hfirst last hlast, List.map_append,
      List.sum_append, List.map_cons, List.map_nil, List.sum_singleton,
      Bar.volume_countTick (by omega)]

omit hsorted in
/-- The quotes so far do not belong to a bar that comes next. -/
theorem quotesIn_next (hpositive : 0 < timeInterval)
    (hfollows : Bar.Follows timeInterval quote bar bar') : bar'.quotesIn quotes = [] := by
  apply List.filter_eq_nil_iff.mpr
  intro q hq hcontains
  have hend := h.dataTime_lt_endTime hpositive hq
  have hle := hfollows.le_startTime
  have hstart := (of_decide_eq_true hcontains).1
  omega

/-- A later quote is the first of a bar of its own, if its time is not where bars meet and nothing
was traded since the quote before. -/
theorem next (hpositive : 0 < timeInterval)
    (hsame : bar.instrumentId = quote.instrumentId ∧ bar.exchangeId = quote.exchangeId)
    (hfollows : Bar.Follows timeInterval quote bar bar') (hinside : ¬ timeInterval ∣ quote.dataTime)
    (hvolume : quote.volume = bar.startVolume + bar.volume) :
    Divides timeInterval (quotes ++ [quote]) ((earlier ++ [bar]) ++ [bar']) := by
  obtain ⟨halign, hend⟩ := h.aligned bar (by simp)
  have haligned : timeInterval ∣ bar'.startTime := by
    have hsplit : bar'.startTime = (bar'.startTime - bar.endTime) + (bar.startTime + timeInterval) := by
      omega
    rw [hsplit]
    exact Int.dvd_add hfollows.aligned (Int.dvd_add halign (Int.dvd_refl _))
  have hcontains : bar'.Contains quote.dataTime := by
    refine ⟨hfollows.startTime_le, lt_of_le_of_ne hfollows.le_endTime ?_⟩
    rintro heq
    rw [heq, hfollows.endTime] at hinside
    exact hinside (Int.dvd_add haligned (Int.dvd_refl _))
  have hearlier : ∀ b ∈ earlier ++ [bar], ¬ b.Contains quote.dataTime := by
    intro b hb
    rcases List.mem_append.mp hb with hb | hb
    · exact h.not_contains_of_mem_earlier hsorted hb
    · rw [List.mem_singleton.mp hb]
      rintro ⟨-, hbefore⟩
      have hle := hfollows.le_startTime
      have hstart := hfollows.startTime_le
      omega
  have hold := h.sameInstrument_append hsame
  constructor
  · intro q hq b hb
    rcases List.mem_append.mp hb with hb | hb
    · exact hold q hq b hb
    · rw [List.mem_singleton.mp hb, hfollows.instrumentId, hfollows.exchangeId]
      exact hold q hq bar (by simp)
  · intro b hb
    rcases List.mem_append.mp hb with hb | hb
    · exact h.aligned b hb
    · rw [List.mem_singleton.mp hb]
      exact ⟨haligned, hfollows.endTime⟩
  · refine List.pairwise_append.mpr ⟨h.ordered, List.pairwise_singleton .., ?_⟩
    intro b hb b' hb'
    rw [List.mem_singleton.mp hb']
    have hle := hfollows.le_startTime
    rcases List.mem_append.mp hb with hb | hb
    · have hle' := h.endTime_le_startTime hb
      omega
    · rw [List.mem_singleton.mp hb]
      exact hle
  · intro b hb
    rcases List.mem_append.mp hb with hb | hb
    · rw [quotesIn_append_singleton, if_neg (hearlier b hb), List.append_nil]
      exact h.summarises b hb
    · rw [List.mem_singleton.mp hb, quotesIn_append_singleton,
        h.quotesIn_next hpositive hfollows, if_pos hcontains]
      exact hfollows.summarises
  · intro q hq
    rcases List.mem_append.mp hq with hq | hq
    · obtain ⟨b, hb, hb'⟩ := h.covered q hq
      exact ⟨b, List.mem_append_left _ hb, hb'⟩
    · rw [List.mem_singleton.mp hq]
      exact ⟨bar', by simp, hcontains⟩
  · intro first hfirst last hlast
    rw [← h.volume_append hsorted hpositive first hfirst last hlast]
    simp only [List.map_append, List.sum_append, List.map_cons, List.map_nil, List.sum_cons,
      List.sum_nil, hfollows.volume]
    omega

end Last

end Divides

/-! ## Streams -/

/-- A generator with the quotes that it was given. -/
structure BarRun where
  generator : BarGenerator
  quotes : List Quote

/-- The times of each instrument do not decrease. -/
def Nondecreasing (quotes : List Quote) : Prop :=
  quotes.Pairwise fun q q' => q.instrumentId = q'.instrumentId → q.exchangeId = q'.exchangeId →
    q.dataTime ≤ q'.dataTime

instance (quotes : List Quote) : Decidable (Nondecreasing quotes) :=
  inferInstanceAs (Decidable (List.Pairwise _ _))

namespace BarRun

def step (s : BarRun) (event : QuoteEvent) : BarRun where
  generator := s.generator.onQuote event
  quotes := s.quotes ++ [event.quote]

/-- The quotes under a key. -/
def quotesOf (s : BarRun) (key : UInt32) : List Quote := s.quotes.filter (·.instrumentKey = key)

def barsOf (s : BarRun) (key : UInt32) : List Bar := s.generator.barsOf key

/-- The bars of an instrument divide its quotes among them. -/
def Partitions (key : UInt32) (s : BarRun) : Prop :=
  Divides s.generator.timeInterval (s.quotesOf key) (s.barsOf key)

/-- A quote that is counted rightly: the first of an instrument falls into the interval of its
frame; and a later one, which is of the same instrument, either falls into the bar, or into the
middle of a later interval without a volume that was traded since the quote before. -/
def Counts (timeInterval : ℤ) (event : QuoteEvent) : Option Bar → Prop
  | none => (Bar.ofQuote timeInterval event.genTime event.quote).Contains event.quote.dataTime
  | some bar =>
      (bar.instrumentId = event.quote.instrumentId ∧ bar.exchangeId = event.quote.exchangeId) ∧
        (event.quote.dataTime < bar.endTime ∨
          bar.endTime ≤ event.quote.dataTime ∧ ¬ timeInterval ∣ event.quote.dataTime ∧
            event.quote.volume = bar.startVolume + bar.volume)

instance (timeInterval : ℤ) (event : QuoteEvent) : DecidablePred (Counts timeInterval event)
  | none => inferInstanceAs (Decidable (Bar.Contains _ _))
  | some _ => inferInstanceAs (Decidable (_ ∧ _))

/-- A quote under a key is counted rightly. -/
def Keeps (key : UInt32) (s : BarRun) (event : QuoteEvent) : Prop :=
  event.quote.instrumentKey = key →
    Counts s.generator.timeInterval event (s.generator.bars key)

instance (key : UInt32) (s : BarRun) (event : QuoteEvent) : Decidable (Keeps key s event) :=
  inferInstanceAs (Decidable (_ → _))

/-! ## One quote -/

/-- Every bar is under the key of its instrument. -/
def WellKeyed (g : BarGenerator) : Prop := ∀ key bar, g.bars key = some bar → bar.instrumentKey = key

/-- The bar after a quote was counted in it, if it falls into it. -/
def counted (g : BarGenerator) (event : QuoteEvent) : Bar :=
  let bar := (g.bars event.quote.instrumentKey).getD
    (Bar.ofQuote g.timeInterval event.genTime event.quote)
  if bar.startTime ≤ event.quote.dataTime ∧ event.quote.dataTime ≤ bar.endTime then
    bar.countTick event.quote
  else bar

variable {key : UInt32} {s : BarRun} {event : QuoteEvent} {g : BarGenerator}

theorem onQuote_eq (g : BarGenerator) (event : QuoteEvent) : g.onQuote event =
    if (counted g event).endTime ≤ event.quote.dataTime then
      { g with
        bars := Function.update g.bars event.quote.instrumentKey
          (some ((counted g event).next g.timeInterval event.quote))
        written := g.written ++ [counted g event] }
    else
      { g with
        bars := Function.update g.bars event.quote.instrumentKey (some (counted g event)) } :=
  rfl

theorem bars_onQuote (g : BarGenerator) (event : QuoteEvent) :
    (g.onQuote event).bars = Function.update g.bars event.quote.instrumentKey
      (some (if (counted g event).endTime ≤ event.quote.dataTime then
        (counted g event).next g.timeInterval event.quote else counted g event)) := by
  rw [onQuote_eq]
  split <;> rfl

theorem written_onQuote (g : BarGenerator) (event : QuoteEvent) :
    (g.onQuote event).written = g.written ++
      if (counted g event).endTime ≤ event.quote.dataTime then [counted g event] else [] := by
  rw [onQuote_eq]
  split
  · rfl
  · rw [List.append_nil]

@[simp] theorem timeInterval_onQuote : (g.onQuote event).timeInterval = g.timeInterval := by
  rw [onQuote_eq]
  split <;> rfl

theorem instrumentKey_counted (hkeyed : WellKeyed g) :
    (counted g event).instrumentKey = event.quote.instrumentKey := by
  have hbar : ((g.bars event.quote.instrumentKey).getD
      (Bar.ofQuote g.timeInterval event.genTime event.quote)).instrumentKey =
        event.quote.instrumentKey := by
    cases h : g.bars event.quote.instrumentKey with
    | none => rfl
    | some bar => exact hkeyed _ _ h
  rw [counted]
  split
  · rw [Bar.instrumentKey, Bar.instrumentId_countTick, Bar.exchangeId_countTick]
    exact hbar
  · exact hbar

theorem instrumentKey_next (bar : Bar) (timeInterval : ℤ) (quote : Quote) :
    (bar.next timeInterval quote).instrumentKey = bar.instrumentKey := by
  simp only [Bar.instrumentKey, Bar.next]
  split <;> rfl

theorem WellKeyed.onQuote (hkeyed : WellKeyed g) : WellKeyed (g.onQuote event) := by
  intro key bar hbar
  rw [bars_onQuote] at hbar
  by_cases hkey : key = event.quote.instrumentKey
  · subst hkey
    rw [Function.update_self, Option.some.injEq] at hbar
    subst hbar
    split
    · rw [instrumentKey_next, instrumentKey_counted hkeyed]
    · exact instrumentKey_counted hkeyed
  · rw [Function.update_of_ne hkey] at hbar
    exact hkeyed key bar hbar

/-- A quote of another key changes nothing. -/
theorem barsOf_onQuote_of_ne (hkeyed : WellKeyed g) (hkey : event.quote.instrumentKey ≠ key) :
    (g.onQuote event).barsOf key = g.barsOf key := by
  rw [BarGenerator.barsOf, bars_onQuote, written_onQuote, Function.update_of_ne (Ne.symm hkey)]
  split
  · simp [BarGenerator.barsOf, instrumentKey_counted hkeyed, hkey]
  · simp [BarGenerator.barsOf]

/-- A quote is counted, and if it is at the end of the bar or after it, there is a new one. -/
theorem barsOf_onQuote (event : QuoteEvent) (hkeyed : WellKeyed g) :
    (g.onQuote event).barsOf event.quote.instrumentKey =
      g.written.filter (·.instrumentKey = event.quote.instrumentKey) ++
        if (counted g event).endTime ≤ event.quote.dataTime then
          [counted g event, (counted g event).next g.timeInterval event.quote]
        else [counted g event] := by
  rw [BarGenerator.barsOf, bars_onQuote, written_onQuote, Function.update_self]
  split
  · simp [instrumentKey_counted hkeyed]
  · simp

/-- What is needed of a stream to tell the bars of a key. -/
structure Fits (key : UInt32) (s : BarRun) (events : List QuoteEvent) : Prop where
  wellKeyed : WellKeyed s.generator
  started : s.quotesOf key ≠ [] → (s.generator.bars key).isSome
  nondecreasing : Nondecreasing (s.quotes ++ events.map (·.quote))

theorem Fits.step {events : List QuoteEvent} (h : Fits key s (event :: events)) :
    Fits key (s.step event) events := by
  refine ⟨h.wellKeyed.onQuote, fun hne => ?_, by simpa [BarRun.step] using h.nondecreasing⟩
  simp only [BarRun.step, bars_onQuote, Function.update_apply]
  split
  · rfl
  · rename_i hkey
    apply h.started
    simpa [quotesOf, BarRun.step, List.filter_append, Ne.symm hkey] using hne

theorem quotesOf_step (hkey : event.quote.instrumentKey = key) :
    (s.step event).quotesOf key = s.quotesOf key ++ [event.quote] := by
  simp [quotesOf, step, List.filter_append, hkey]

/-- The times of the quotes of one instrument do not decrease. -/
theorem Fits.pairwise {events : List QuoteEvent} (h : Fits key s (event :: events))
    (hsame : ∀ q ∈ s.quotesOf key ++ [event.quote], q.instrumentId = event.quote.instrumentId ∧
      q.exchangeId = event.quote.exchangeId) :
    (s.quotesOf key ++ [event.quote]).Pairwise fun q q' => q.dataTime ≤ q'.dataTime := by
  have hsublist : (s.quotesOf key ++ [event.quote]).Sublist
      (s.quotes ++ (event :: events).map (·.quote)) := by
    apply List.Sublist.append List.filter_sublist
    simp
  refine (h.nondecreasing.sublist hsublist).imp_of_mem fun hq hq' hle => ?_
  exact hle ((hsame _ hq).1.trans (hsame _ hq').1.symm) ((hsame _ hq).2.trans (hsame _ hq').2.symm)

theorem counted_eq_of_contains {bar : Bar} (hbar : (g.bars event.quote.instrumentKey).getD
      (Bar.ofQuote g.timeInterval event.genTime event.quote) = bar)
    (hcontains : bar.Contains event.quote.dataTime) :
    counted g event = bar.countTick event.quote := by
  rw [counted, hbar, if_pos ⟨hcontains.1, hcontains.2.le⟩]

@[simp] theorem startTime_counted : (counted g event).startTime =
    ((g.bars event.quote.instrumentKey).getD
      (Bar.ofQuote g.timeInterval event.genTime event.quote)).startTime := by
  rw [counted]
  split <;> simp

@[simp] theorem endTime_counted : (counted g event).endTime =
    ((g.bars event.quote.instrumentKey).getD
      (Bar.ofQuote g.timeInterval event.genTime event.quote)).endTime := by
  rw [counted]
  split <;> simp

@[simp] theorem instrumentId_counted : (counted g event).instrumentId =
    ((g.bars event.quote.instrumentKey).getD
      (Bar.ofQuote g.timeInterval event.genTime event.quote)).instrumentId := by
  rw [counted]
  split <;> simp

@[simp] theorem exchangeId_counted : (counted g event).exchangeId =
    ((g.bars event.quote.instrumentKey).getD
      (Bar.ofQuote g.timeInterval event.genTime event.quote)).exchangeId := by
  rw [counted]
  split <;> simp

/-- A bar of an instrument's first quote. -/
theorem divides_first
    (hcontains : (Bar.ofQuote g.timeInterval event.genTime event.quote).Contains
      event.quote.dataTime) :
    Divides g.timeInterval [event.quote]
      [(Bar.ofQuote g.timeInterval event.genTime event.quote).countTick event.quote] := by
  have hsummary : Summarises
      ((Bar.ofQuote g.timeInterval event.genTime event.quote).countTick event.quote)
      [event.quote] := by
    apply Summarises.singleton <;> simp [Bar.countTick, Bar.ofQuote]
  constructor
  · intro q hq bar hbar
    rw [List.mem_singleton.mp hq, List.mem_singleton.mp hbar]
    simp [Bar.ofQuote]
  · intro bar hbar
    rw [List.mem_singleton.mp hbar]
    simp only [Bar.startTime_countTick, Bar.endTime_countTick, Bar.ofQuote, and_true]
    exact Int.dvd_self_sub_tmod
  · exact List.pairwise_singleton ..
  · intro bar hbar
    rw [List.mem_singleton.mp hbar, Bar.quotesIn,
      List.filter_cons_of_pos (by simpa using Bar.contains_countTick.mpr hcontains)]
    exact hsummary
  · intro q hq
    rw [List.mem_singleton.mp hq]
    exact ⟨_, List.mem_singleton_self _, Bar.contains_countTick.mpr hcontains⟩
  · intro first hfirst last hlast
    cases hfirst
    cases hlast
    simp [Bar.countTick, Bar.ofQuote]

/-- The first quote of an instrument. -/
theorem partitions_step_iff_of_none {events : List QuoteEvent} (hfits : Fits key s (event :: events))
    (h : Partitions key s) (hkey : event.quote.instrumentKey = key)
    (hnone : s.generator.bars key = none) :
    Partitions key (s.step event) ↔
      (Bar.ofQuote s.generator.timeInterval event.genTime event.quote).Contains
        event.quote.dataTime := by
  subst hkey
  have hquotes : s.quotesOf event.quote.instrumentKey = [] := by
    by_contra hne
    simpa [hnone] using hfits.started hne
  have hbars : s.barsOf event.quote.instrumentKey = [] := by
    unfold Partitions at h
    rw [hquotes] at h
    exact h.eq_nil
  have hwritten : s.generator.written.filter
      (·.instrumentKey = event.quote.instrumentKey) = [] :=
    (List.append_eq_nil_iff.mp hbars).1
  have hbar : (s.generator.bars event.quote.instrumentKey).getD
      (Bar.ofQuote s.generator.timeInterval event.genTime event.quote) =
        Bar.ofQuote s.generator.timeInterval event.genTime event.quote := by
    rw [hnone]
    rfl
  have hbars' := barsOf_onQuote event hfits.wellKeyed
  rw [hwritten, List.nil_append] at hbars'
  rw [Partitions, quotesOf_step rfl, hquotes, barsOf, List.nil_append]
  simp only [step, timeInterval_onQuote, hbars']
  constructor
  · intro hdivides
    split at hdivides
    · -- a bar is written that has no quote of its own
      rename_i hend
      obtain ⟨q, hq, -, hbefore⟩ := hdivides.exists_quote List.mem_cons_self
      rw [List.mem_singleton.mp hq] at hbefore
      omega
    · obtain ⟨bar, hmem, hcontains⟩ := hdivides.covered event.quote (by simp)
      rw [List.mem_singleton.mp hmem] at hcontains
      simpa [Bar.Contains, hbar] using hcontains
  · intro hcontains
    rw [if_neg, counted_eq_of_contains hbar hcontains]
    · exact divides_first hcontains
    · rw [endTime_counted, hbar]
      exact not_le.mpr hcontains.2

/-- If the bars are right after a quote at the end of the last bar or later, the quote is not where
bars meet, and nothing was traded since the quote before. -/
theorem inside_of_divides_next {quotes : List Quote} {earlier : List Bar} {bar : Bar}
    (h : Divides g.timeInterval quotes (earlier ++ [bar]))
    (hsorted : (quotes ++ [event.quote]).Pairwise fun q q' => q.dataTime ≤ q'.dataTime)
    (hend : bar.endTime ≤ event.quote.dataTime)
    (hget : (g.bars event.quote.instrumentKey).getD
      (Bar.ofQuote g.timeInterval event.genTime event.quote) = bar)
    (hafter : Divides g.timeInterval (quotes ++ [event.quote])
      (earlier ++ [counted g event, (counted g event).next g.timeInterval event.quote])) :
    ¬ g.timeInterval ∣ event.quote.dataTime ∧
      event.quote.volume = bar.startVolume + bar.volume := by
  have hpositive := g.positive
  have hsummary := h.summarises bar (by simp)
  have hlast : bar.endTime < event.quote.dataTime := by
    refine lt_of_le_of_ne hend fun heq => ?_
    -- the quote is counted in a bar that it does not belong to
    have hstart := h.startTime_le_dataTime hsorted
    have hcounted : counted g event = bar.countTick event.quote := by
      rw [counted, hget, if_pos ⟨hstart, heq.ge⟩]
    rw [hcounted] at hafter
    have hsummary' := hafter.summarises (bar.countTick event.quote) (by simp)
    have hquotes : (bar.countTick event.quote).quotesIn (quotes ++ [event.quote]) =
        bar.quotesIn quotes := by
      rw [Divides.quotesIn_append_singleton, if_neg, List.append_nil]
      · simp only [Bar.quotesIn, Bar.contains_countTick]
      · rw [Bar.contains_countTick]
        rintro ⟨-, hbefore⟩
        omega
    have hcount := hsummary'.tickCount
    rw [hquotes, Bar.tickCount_countTick, hsummary.tickCount] at hcount
    omega
  have hcounted : counted g event = bar := by
    rw [counted, hget, if_neg]
    rintro ⟨-, hle⟩
    omega
  rw [hcounted] at hafter
  have hfollows := Bar.follows_next hpositive hend
  constructor
  · -- a quote where bars meet is put into the bar before
    intro hdvd
    obtain ⟨hstart, -⟩ := hafter.aligned (bar.next g.timeInterval event.quote) (by simp)
    obtain ⟨q, hq, hle, hbefore⟩ :=
      hafter.exists_quote (by simp : bar.next g.timeInterval event.quote ∈ _)
    have hend' := hfollows.endTime
    have hle' := hfollows.le_startTime
    rcases List.mem_append.mp hq with hq | hq
    · have hq' := h.dataTime_lt_endTime hpositive hq
      omega
    · rw [List.mem_singleton.mp hq] at hle hbefore
      have hdvd' := Int.dvd_sub hdvd hstart
      have hzero := Int.eq_zero_of_dvd_of_nonneg_of_lt (by omega) (by omega) hdvd'
      rcases hfollows.startTime_lt with hfirst | hlater <;> omega
  · obtain ⟨first, hfirst⟩ := Option.isSome_iff_exists.mp
      (List.isSome_head?.mpr (List.append_ne_nil_of_right_ne_nil quotes (List.cons_ne_nil event.quote [])))
    have hvolume := h.volume_append hsorted hpositive first hfirst event.quote
      List.getLast?_concat
    have hvolume' := hafter.volume first hfirst event.quote List.getLast?_concat
    simp only [List.map_append, List.sum_append, List.map_cons, List.map_nil, List.sum_cons,
      List.sum_nil, hfollows.volume] at hvolume'
    omega

/-- A later quote under a key. -/
theorem partitions_step_iff_of_some {events : List QuoteEvent} {bar : Bar}
    (hfits : Fits key s (event :: events)) (h : Partitions key s)
    (hkey : event.quote.instrumentKey = key) (hbar : s.generator.bars key = some bar) :
    Partitions key (s.step event) ↔ Counts s.generator.timeInterval event (some bar) := by
  subst hkey
  set earlier := s.generator.written.filter (·.instrumentKey = event.quote.instrumentKey)
    with hearlier
  set quotes := s.quotesOf event.quote.instrumentKey with hquotes
  have hpositive := s.generator.positive
  have hdivides : Divides s.generator.timeInterval quotes (earlier ++ [bar]) := by
    have hbars : s.barsOf event.quote.instrumentKey = earlier ++ [bar] := by
      rw [barsOf, BarGenerator.barsOf, hbar]
      rfl
    rw [← hbars]
    exact h
  have hget : (s.generator.bars event.quote.instrumentKey).getD
      (Bar.ofQuote s.generator.timeInterval event.genTime event.quote) = bar := by
    rw [hbar]
    rfl
  have hbars' := barsOf_onQuote event hfits.wellKeyed
  rw [← hearlier] at hbars'
  rw [Partitions, quotesOf_step rfl, barsOf, ← hquotes]
  simp only [step, timeInterval_onQuote, hbars']
  have hsorted : (bar.instrumentId = event.quote.instrumentId ∧
      bar.exchangeId = event.quote.exchangeId) →
        (quotes ++ [event.quote]).Pairwise fun q q' => q.dataTime ≤ q'.dataTime := by
    intro hsame
    apply hfits.pairwise
    intro q hq
    obtain ⟨hid, hexchange⟩ := hdivides.sameInstrument_append hsame q hq bar (by simp)
    exact ⟨hid.symm.trans hsame.1, hexchange.symm.trans hsame.2⟩
  constructor
  · intro hafter
    have hsame : bar.instrumentId = event.quote.instrumentId ∧
        bar.exchangeId = event.quote.exchangeId := by
      obtain ⟨hid, hexchange⟩ := hafter.sameInstrument event.quote (by simp)
        (counted s.generator event) (by split <;> simp)
      rw [instrumentId_counted, hget] at hid
      rw [exchangeId_counted, hget] at hexchange
      exact ⟨hid, hexchange⟩
    refine ⟨hsame, ?_⟩
    by_cases hbefore : event.quote.dataTime < bar.endTime
    · exact .inl hbefore
    · rw [endTime_counted, hget, if_pos (not_lt.mp hbefore)] at hafter
      exact .inr ⟨not_lt.mp hbefore,
        inside_of_divides_next hdivides (hsorted hsame) (not_lt.mp hbefore) hget hafter⟩
  · rintro ⟨hsame, hbefore | ⟨hend, hinside, hvolume⟩⟩
    · have hcontains : bar.Contains event.quote.dataTime :=
        ⟨hdivides.startTime_le_dataTime (hsorted hsame), hbefore⟩
      rw [endTime_counted, hget, if_neg (not_le.mpr hbefore), counted_eq_of_contains hget hcontains]
      exact hdivides.countTick (hsorted hsame) hpositive hsame hbefore
    · have hne : event.quote.dataTime ≠ bar.endTime := by
        intro heq
        rw [heq, (hdivides.aligned bar (by simp)).2] at hinside
        exact hinside (Int.dvd_add (hdivides.aligned bar (by simp)).1 (Int.dvd_refl _))
      have hcounted : counted s.generator event = bar := by
        rw [counted, hget, if_neg]
        rintro ⟨-, hle⟩
        omega
      rw [endTime_counted, hget, if_pos hend, hcounted]
      have hnext := hdivides.next (hsorted hsame) hpositive hsame (Bar.follows_next hpositive hend)
        hinside hvolume
      rwa [List.append_assoc] at hnext

/-- The bars of an instrument stay right just after the quotes that keep them so. -/
theorem partitions_step_iff {events : List QuoteEvent} (hfits : Fits key s (event :: events))
    (h : Partitions key s) : Partitions key (s.step event) ↔ Keeps key s event := by
  by_cases hkey : event.quote.instrumentKey = key
  · have hkeeps : Keeps key s event ↔
        Counts s.generator.timeInterval event (s.generator.bars key) :=
      ⟨fun hkeeps => hkeeps hkey, fun hcounts _ => hcounts⟩
    rw [hkeeps]
    cases hbar : s.generator.bars key with
    | none => exact partitions_step_iff_of_none hfits h hkey hbar
    | some bar => exact partitions_step_iff_of_some hfits h hkey hbar
  · have hquotes : (s.step event).quotesOf key = s.quotesOf key := by
      simp [quotesOf, step, List.filter_append, hkey]
    refine iff_of_true ?_ fun heq => absurd heq hkey
    rw [Partitions, hquotes, barsOf, step, barsOf_onQuote_of_ne hfits.wellKeyed hkey,
      timeInterval_onQuote]
    exact h

/-! ## Streams of quotes -/

/-- A generator that has started. -/
def start (timeInterval : ℤ) (positive : 0 < timeInterval) : BarRun where
  generator :=
    { timeInterval := timeInterval
      positive := positive
      bars := fun _ => none
      written := [] }
  quotes := []

/-- The bars of an instrument are right at every point of a stream just if every quote under its key
keeps them so. -/
theorem partitions_iff {timeInterval : ℤ} (positive : 0 < timeInterval) (key : UInt32)
    {events : List QuoteEvent} (hsorted : Nondecreasing (events.map (·.quote))) :
    (∀ done, done <+: events → Partitions key (done.foldl step (start timeInterval positive))) ↔
      Logic.Along step (Keeps key) (start timeInterval positive) events := by
  have hfits : Fits key (start timeInterval positive) events :=
    ⟨fun _ _ h => (by cases h), fun h => absurd rfl h, hsorted⟩
  rw [Logic.along_iff_forall_prefix (R := Fits key) (fun s e es h => h.step)
    (fun s e es h hpartitions => partitions_step_iff h hpartitions) hfits (Divides.nil timeInterval)]

/-- A minute. -/
def minute : ℤ := 60000000000

/-- Quotes of an instrument at some seconds. -/
def exampleQuotes (seconds : List ℤ) : List QuoteEvent :=
  seconds.map fun t => ⟨t * 1000000000, ⟨"600000", "SSE", t * 1000000000, 10, 100⟩⟩

/-- A quote at the end of a bar is counted in it, and in the next one, too. -/
theorem not_partitions_of_boundary :
    Nondecreasing ((exampleQuotes [61, 120]).map (·.quote)) ∧
      ¬ Partitions (hashInstrument "SSE" "600000")
        ((exampleQuotes [61, 120]).foldl step (start minute (by decide))) := by
  refine ⟨by decide, fun h => ?_⟩
  have hwrong : ∃ bar ∈ ((exampleQuotes [61, 120]).foldl step (start minute (by decide))).barsOf
      (hashInstrument "SSE" "600000"), bar.tickCount ≠ (bar.quotesIn
        (((exampleQuotes [61, 120]).foldl step (start minute (by decide))).quotesOf
          (hashInstrument "SSE" "600000"))).length := by
    decide +kernel
  obtain ⟨bar, hbar, hcount⟩ := hwrong
  exact hcount (h.summarises bar hbar).tickCount

/-- Quotes inside of their bars. -/
theorem partitions_iff_example : Partitions (hashInstrument "SSE" "600000")
    ((exampleQuotes [61, 119, 150, 301]).foldl step (start minute (by decide))) := by
  have hiff := partitions_iff (by decide : (0 : ℤ) < minute) (hashInstrument "SSE" "600000")
    (by decide : Nondecreasing ((exampleQuotes [61, 119, 150, 301]).map (·.quote)))
  exact hiff.mpr (by decide +kernel) _ (List.prefix_refl _)

end BarRun

end Kungfu.Wingchun
