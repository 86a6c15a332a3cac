import Kungfu.Logic.Binary64
import Kungfu.Wingchun.UpdateBook
import Kungfu.Wingchun.Quote
import Mathlib.Tactic.Linarith
import Mathlib.Tactic.Ring

/-!
# Settlement of futures

Futures are settled by a quote with a settlement price and at the change of the trading day.  Both
compute the margin of a position anew and take the difference from what is available.  A quote takes
the settlement price that the position has from before, and the trading day does not convert the
margin.
-/

namespace Kungfu.Wingchun

open Logic (Binary64)
open Longfist

/-- The fields of a quote that settlement reads besides. -/
structure SettlementQuote (K : Type := ℚ) extends Quote K where
  settlementPrice : K
  preSettlementPrice : K
  deriving DecidableEq, Repr

namespace FutureAccountingMethod

variable {key : PositionKey}

section Model

variable {K : Type} [Add K] [Sub K] [Mul K] [Div K] [Neg K] [IntCast K] [Max K] [Min K] [LT K]
  [DecidableLT K] [LE K] [DecidableLE K] [∀ n, OfNat K n]

/-- The contract that a quote is about. -/
def quotedContract (market : Market K) (quote : SettlementQuote K) (direction : Direction) :
    ContractMultiplierAndMarginRatio K :=
  getInstrumentContractMultiplierAndMarginRatio market
    (hashInstrument quote.exchangeId quote.instrumentId) direction

/-- What a valid settlement price changes of the asset and of a position: the new price is stored
after the margin was computed. -/
def settle (market : Market K) (quote : SettlementQuote K) (s : Slice key K) : Slice key K :=
  let cmMr := quotedContract market quote s.position.direction
  let margin := marginFor cmMr s.position.settlementPrice s.position.volume
  { s with
    position := { s.position with
      margin := margin
      settlementPrice := quote.settlementPrice }
    asset := { s.asset with avail := s.asset.avail - (margin - s.position.margin) } }

/-- What a quote changes of the asset and of a position. -/
def quoted (market : Market K) (quote : SettlementQuote K) (s : Slice key K) : Slice key K :=
  let s := if isValidPrice quote.settlementPrice then settle market quote s else s
  let position :=
    if isValidPrice quote.lastPrice then { s.position with lastPrice := quote.lastPrice }
    else s.position
  let position :=
    if isValidPrice quote.preSettlementPrice then
      { position with preSettlementPrice := quote.preSettlementPrice }
    else position
  { s with position := updatePosition market position }

/-- What `apply_quote` does on one side. -/
def applyQuoteTo (market : Market K) (quote : SettlementQuote K) (direction : Direction)
    (book : AccountBook K) : ThrowsOf K (AccountBook K) := do
  let book ← book.getPosition direction quote.exchangeId quote.instrumentId
  return book.onSlice direction quote.exchangeId quote.instrumentId (quoted market quote)

/-- `apply_quote`. -/
def applyQuote (market : Market K) (quote : SettlementQuote K) (book : AccountBook K) :
    ThrowsOf K (AccountBook K) := do
  let book ← applyQuoteTo market quote .Long book
  applyQuoteTo market quote .Short book

/-- A position on a new trading day. -/
def settleForDay (market : Market K) (tradingDay : String) (position : Position key K) :
    Position key K :=
  let settlementPrice :=
    if isValidPrice position.settlementPrice then position.settlementPrice
    else if isValidPrice position.lastPrice then position.lastPrice
    else position.avgOpenPrice
  let cmMr := getInstrumentContractMultiplierAndMarginRatio market
    (hashInstrument position.exchangeId position.instrumentId) position.direction
  updatePosition market { position with
    -- the margin is not converted here
    margin := cmMr.contractMultiplier * settlementPrice * position.volume * cmMr.marginRatio
    preSettlementPrice := settlementPrice
    lastPrice := settlementPrice
    settlementPrice := 0
    yesterdayVolume := position.volume
    tradingDay := tradingDay }

end Model

/-- `apply_trading_day`. -/
def applyTradingDay (market : Market) (tradingDay : String) (book : AccountBook) : AccountBook :=
  let change := Book.sumPositions book.state fun position =>
    (settleForDay market tradingDay position).margin - position.margin
  { book with state := { book.state with
      asset := { book.state.asset with avail := book.state.asset.avail - change }
      positions := Book.mapPositions (settleForDay market tradingDay) book.state.positions } }

/-! ## One position -/

variable {market : Market} {quote : SettlementQuote} {s : Slice key} {p : Position key}

@[simp] theorem lastPrice_updatePosition :
    (updatePosition market p).lastPrice = p.lastPrice := by
  rw [updatePosition_eq]

theorem updatePosition_updatePosition :
    updatePosition market (updatePosition market p) = updatePosition market p := by
  by_cases hprice : 0 < p.lastPrice
  · rw [updatePosition, if_pos (by rwa [lastPrice_updatePosition])]
    simp only [updatePosition, hprice, if_true]
    rfl
  · have heq : updatePosition market p = p := if_neg hprice
    rw [heq, heq]

@[simp] theorem preSettlementPrice_updatePosition :
    (updatePosition market p).preSettlementPrice = p.preSettlementPrice := by
  rw [updatePosition_eq]

variable (market s) in
/-- What a valid settlement price makes of the margin. -/
theorem margin_quoted (hvalid : isValidPrice quote.settlementPrice) :
    let s' := quoted market quote s
    s'.position.margin =
        marginFor (quotedContract market quote key.direction) s.position.settlementPrice
          s.position.volume ∧
      s'.asset.avail = s.asset.avail - (s'.position.margin - s.position.margin) ∧
      s'.position.settlementPrice = quote.settlementPrice ∧
      s'.position.volume = s.position.volume := by
  simp only [quoted, hvalid, if_true, settle, margin_updatePosition, volume_updatePosition,
    settlementPrice_updatePosition]
  split <;> split <;> exact ⟨rfl, rfl, rfl, rfl⟩

/-- A quote finds a position as it left it. -/
def Unmoved (market : Market) (quote : SettlementQuote) (p : Position key) : Prop :=
  (isValidPrice quote.lastPrice → p.lastPrice = quote.lastPrice) ∧
    (isValidPrice quote.preSettlementPrice → p.preSettlementPrice = quote.preSettlementPrice) ∧
    updatePosition market p = p

theorem unmoved_quoted : Unmoved market quote (quoted market quote s).position := by
  refine ⟨?_, ?_, updatePosition_updatePosition⟩
  · intro hlast
    simp only [quoted, hlast, if_true, lastPrice_updatePosition]
    split <;> rfl
  · intro hpre
    simp only [quoted, hpre, if_true, preSettlementPrice_updatePosition]

/-- A quote leaves alone what it has quoted and settled before. -/
theorem quoted_eq_self (hunmoved : Unmoved market quote s.position)
    (hprice : s.position.settlementPrice = quote.settlementPrice)
    (hmargin : s.position.margin =
      marginFor (quotedContract market quote key.direction) quote.settlementPrice
        s.position.volume) : quoted market quote s = s := by
  have hsettle : settle market quote s = s := by
    have heq : marginFor (quotedContract market quote s.position.direction)
        s.position.settlementPrice s.position.volume = s.position.margin := by
      rw [hprice, hmargin]
      rfl
    simp only [settle, heq, sub_self, sub_zero, ← hprice]
  have hlast : (if isValidPrice quote.lastPrice then
      { s.position with lastPrice := quote.lastPrice } else s.position) = s.position := by
    split
    · rename_i hvalid
      rw [← hunmoved.1 hvalid]
    · rfl
  have hpre : (if isValidPrice quote.preSettlementPrice then
      { s.position with preSettlementPrice := quote.preSettlementPrice } else s.position) =
        s.position := by
    split
    · rename_i hvalid
      rw [← hunmoved.2.1 hvalid]
    · rfl
  simp only [quoted, hsettle, ite_self, hlast, hpre, hunmoved.2.2]

/-- A trading day takes the settlement price of a position. -/
theorem margin_settleForDay (tradingDay : String) (hvalid : isValidPrice p.settlementPrice) :
    (settleForDay market tradingDay p).margin =
      (getInstrumentContractMultiplierAndMarginRatio market
        (hashInstrument p.exchangeId p.instrumentId) key.direction).contractMultiplier *
        p.settlementPrice * p.volume *
      (getInstrumentContractMultiplierAndMarginRatio market
        (hashInstrument p.exchangeId p.instrumentId) key.direction).marginRatio := by
  simp only [settleForDay, margin_updatePosition, hvalid, if_true, Position.direction]

end FutureAccountingMethod

/-! ## Both sides of a book -/

namespace Book

variable {book : AccountBook} {direction : Direction} {exchangeId instrumentId : String}
  {key : PositionKey}

/-- The position that a book gives out is the one that it has or an empty one, up to who holds it
and the type of the instrument. -/
theorem Gives.agree {p : Position (positionKey direction exchangeId instrumentId)}
    (h : book.Gives direction exchangeId instrumentId p) :
    p.volume = (book.position direction exchangeId instrumentId).volume ∧
      p.margin = (book.position direction exchangeId instrumentId).margin ∧
      p.settlementPrice = (book.position direction exchangeId instrumentId).settlementPrice := by
  rcases h with h | ⟨h, type, -, rfl⟩ <;> rw [position, h] <;> exact ⟨rfl, rfl, rfl⟩

theorem position_setSlice_of_ne {s : Slice key}
    (hne : positionKey direction exchangeId instrumentId ≠ key)
    (hday : s.asset.tradingDay = book.state.asset.tradingDay) :
    (book.setSlice s).position direction exchangeId instrumentId =
      book.position direction exchangeId instrumentId := by
  rw [position, position, lookup_setSlice_of_ne s hne]
  simp only [emptyPosition, setSlice, hday]

end Book

namespace FutureAccountingMethod

variable {market : Market} {quote : SettlementQuote} {book book' book₁ : AccountBook}
  {direction : Direction}

theorem applyQuoteTo_of_lookup
    {p : Position (positionKey direction quote.exchangeId quote.instrumentId)}
    (h : book.state.positions.lookup _ = some p) :
    applyQuoteTo market quote direction book =
      .ok (book.setSlice (quoted market quote ⟨book.state.asset, book.state.assetMargin, p⟩)) := by
  rw [applyQuoteTo, Book.getPosition_of_lookup h, Outcome.ok_bind, Book.onSlice, Book.slice,
    Book.position_of_lookup h]
  rfl

theorem exists_of_applyQuoteTo (h : applyQuoteTo market quote direction book = .ok book') :
    ∃ p, book.Gives direction quote.exchangeId quote.instrumentId p ∧
      book' =
        book.setSlice (quoted market quote ⟨book.state.asset, book.state.assetMargin, p⟩) := by
  unfold applyQuoteTo at h
  obtain ⟨book₀, hposition, h⟩ := Outcome.exists_of_bind h
  obtain ⟨p, hp, rfl⟩ := Book.gives_of_getPosition hposition
  rw [Book.onSlice, Book.slice_setPosition, Book.setSlice_setPosition] at h
  cases h
  exact ⟨p, hp, rfl⟩

theorem tradingDay_quoted {key : PositionKey} (s : Slice key) :
    (quoted market quote s).asset.tradingDay = s.asset.tradingDay := by
  simp only [quoted, settle]
  split <;> rfl

/-- The volume of a side. -/
def volumeOn (book : AccountBook) (quote : SettlementQuote) (direction : Direction) : ℤ :=
  (book.position direction quote.exchangeId quote.instrumentId).volume

/-- The margin of a side. -/
def marginOn (book : AccountBook) (quote : SettlementQuote) (direction : Direction) : ℚ :=
  (book.position direction quote.exchangeId quote.instrumentId).margin

/-- What a quote with a valid settlement price leaves on a side. -/
structure QuotedOn (market : Market) (quote : SettlementQuote) (direction : Direction)
    (book : AccountBook)
    (p : Position (positionKey direction quote.exchangeId quote.instrumentId)) : Prop where
  unmoved : Unmoved market quote p
  margin : p.margin = marginFor (quotedContract market quote direction)
    (book.position direction quote.exchangeId quote.instrumentId).settlementPrice
    (volumeOn book quote direction)
  settlementPrice : p.settlementPrice = quote.settlementPrice
  volume : p.volume = volumeOn book quote direction

/-- A quote settles one side and leaves the other alone. -/
theorem quotedOn_of_applyQuoteTo (hvalid : isValidPrice quote.settlementPrice)
    (h : applyQuoteTo market quote direction book = .ok book') :
    (∃ p, book'.state.positions.lookup _ = some p ∧ QuotedOn market quote direction book p) ∧
      book'.state.asset.avail + marginOn book' quote direction =
        book.state.asset.avail + marginOn book quote direction ∧
      ∀ direction', direction' ≠ direction →
        book'.position direction' quote.exchangeId quote.instrumentId =
            book.position direction' quote.exchangeId quote.instrumentId ∧
          book'.state.positions.lookup
              (positionKey direction' quote.exchangeId quote.instrumentId) =
            book.state.positions.lookup _ := by
  obtain ⟨p, hp, rfl⟩ := exists_of_applyQuoteTo h
  obtain ⟨hvolume, hmargin, hprice⟩ := hp.agree
  obtain ⟨hmargin', havail, hprice', hvolume'⟩ := margin_quoted market
    ⟨book.state.asset, book.state.assetMargin, p⟩ hvalid
  have hlookup := @Book.lookup_setSlice _ book
    (quoted market quote ⟨book.state.asset, book.state.assetMargin, p⟩)
  refine ⟨⟨_, hlookup, unmoved_quoted, ?_, hprice', hvolume'.trans hvolume⟩, ?_, ?_⟩
  · rw [hmargin', hprice, hvolume]
    rfl
  · rw [marginOn, Book.position_of_lookup hlookup, marginOn, ← hmargin]
    change (quoted market quote ⟨book.state.asset, book.state.assetMargin, p⟩).asset.avail + _ = _
    rw [havail]
    ring
  · intro direction' hne
    have hkey : positionKey direction' quote.exchangeId quote.instrumentId ≠
        positionKey direction quote.exchangeId quote.instrumentId :=
      fun heq => hne (congrArg PositionKey.direction heq)
    exact ⟨Book.position_setSlice_of_ne hkey (tradingDay_quoted _),
      Book.lookup_setSlice_of_ne _ hkey⟩

/-- A quote settles both sides, by the prices that they had from before. -/
theorem quotedOn_of_applyQuote (hvalid : isValidPrice quote.settlementPrice)
    (h : applyQuote market quote book = .ok book₁) :
    (∀ direction, ∃ p, book₁.state.positions.lookup _ = some p ∧
        QuotedOn market quote direction book p) ∧
      book₁.state.asset.avail + marginOn book₁ quote .Long + marginOn book₁ quote .Short =
        book.state.asset.avail + marginOn book quote .Long + marginOn book quote .Short := by
  unfold applyQuote at h
  obtain ⟨book', hlong, hshort⟩ := Outcome.exists_of_bind h
  obtain ⟨⟨p, hp, hquoted⟩, hsum, hothers⟩ := quotedOn_of_applyQuoteTo hvalid hlong
  obtain ⟨⟨p', hp', hquoted'⟩, hsum', hothers'⟩ := quotedOn_of_applyQuoteTo hvalid hshort
  obtain ⟨hposition, -⟩ := hothers .Short (by decide)
  obtain ⟨hposition', hlookup'⟩ := hothers' .Long (by decide)
  refine ⟨?_, ?_⟩
  · intro direction
    cases direction with
    | Long => exact ⟨p, hlookup'.trans hp, hquoted⟩
    | Short =>
        obtain ⟨hunmoved, hmargin, hprice, hvolume⟩ := hquoted'
        rw [volumeOn, hposition] at hmargin hvolume
        exact ⟨p', hp', hunmoved, hmargin, hprice, hvolume⟩
  · have hlongMargin : marginOn book₁ quote .Long = marginOn book' quote .Long :=
      congrArg Position.margin hposition'
    have hshortMargin : marginOn book' quote .Short = marginOn book quote .Short :=
      congrArg Position.margin hposition
    linarith

/-- A new trading day takes the margin of a side by the price of the quote, unconverted. -/
theorem marginOn_applyTradingDay {tradingDay : String} {book₀ : AccountBook}
    (hvalid : isValidPrice quote.settlementPrice)
    {p : Position (positionKey direction quote.exchangeId quote.instrumentId)}
    (hp : book₁.state.positions.lookup _ = some p) (hquoted : QuotedOn market quote direction book₀ p) :
    marginOn (applyTradingDay market tradingDay book₁) quote direction =
      (quotedContract market quote direction).contractMultiplier * quote.settlementPrice *
        volumeOn book₀ quote direction * (quotedContract market quote direction).marginRatio := by
  have hlookup : (applyTradingDay market tradingDay book₁).state.positions.lookup
      (positionKey direction quote.exchangeId quote.instrumentId) =
        some (settleForDay market tradingDay p) := by
    simp only [applyTradingDay, Book.lookup_mapPositions, hp, Option.map_some]
  rw [← hquoted.settlementPrice] at hvalid
  rw [marginOn, Book.position_of_lookup hlookup, margin_settleForDay tradingDay hvalid, p.hashed,
    hquoted.settlementPrice, hquoted.volume]
  rfl

/-! ## Settled books -/

/-- A quote settled a book: the margin of both sides is by its price and came from what is
available, and neither the same quote nor a new trading day changes it. -/
structure Settled (market : Market) (quote : SettlementQuote) (book book₁ : AccountBook) :
    Prop where
  margin : ∀ direction, marginOn book₁ quote direction =
    marginFor (quotedContract market quote direction) quote.settlementPrice
      (volumeOn book₁ quote direction)
  conserved : book₁.state.asset.avail + marginOn book₁ quote .Long + marginOn book₁ quote .Short =
    book.state.asset.avail + marginOn book quote .Long + marginOn book quote .Short
  again : applyQuote market quote book₁ = .ok book₁
  tradingDay : ∀ tradingDay direction,
    marginOn (applyTradingDay market tradingDay book₁) quote direction =
      marginOn book₁ quote direction

/-- A quote settles a position that has no margin, or that has its settlement price already and
margin in the currency of the account. -/
def Settles (market : Market) (quote : SettlementQuote) (direction : Direction)
    (book : AccountBook) : Prop :=
  let contract := quotedContract market quote direction
  let p := book.position direction quote.exchangeId quote.instrumentId
  p.volume = 0 ∨ contract.contractMultiplier = 0 ∨ contract.marginRatio = 0 ∨
    p.settlementPrice = quote.settlementPrice ∧ contract.exchangeRate = 1

instance (market : Market) (quote : SettlementQuote) (direction : Direction)
    (book : AccountBook) : Decidable (Settles market quote direction book) :=
  inferInstanceAs (Decidable (_ ∨ _ ∨ _ ∨ _ ∧ _))

theorem isValidPrice_ne_zero {price : ℚ} (h : isValidPrice price) : price ≠ 0 := by
  rintro rfl
  revert h
  decide +kernel

/-- The margin is by the price of the quote, and what a trading day makes of it, for these sides
only. -/
theorem settles_iff (hvalid : isValidPrice quote.settlementPrice) :
    Settles market quote direction book ↔
      let contract := quotedContract market quote direction
      let p := book.position direction quote.exchangeId quote.instrumentId
      marginFor contract p.settlementPrice p.volume =
          marginFor contract quote.settlementPrice p.volume ∧
        contract.contractMultiplier * quote.settlementPrice * p.volume * contract.marginRatio =
          marginFor contract quote.settlementPrice p.volume := by
  have hrate : (quotedContract market quote direction).exchangeRate ≠ 0 := by
    unfold quotedContract getInstrumentContractMultiplierAndMarginRatio
    cases market.instruments (hashInstrument quote.exchangeId quote.instrumentId) <;>
      exact market.exchangeRate_ne_zero _
  have hprice := isValidPrice_ne_zero hvalid
  unfold Settles
  generalize quotedContract market quote direction = contract at hrate
  generalize book.position direction quote.exchangeId quote.instrumentId = p
  dsimp only [marginFor]
  constructor
  · rintro (h | h | h | ⟨h, h'⟩)
    · simp [h]
    · simp [h]
    · simp [h]
    · simp [h, h']
  · rintro ⟨h, h'⟩
    by_contra hnot
    push Not at hnot
    obtain ⟨hvolume, hmultiplier, hratio, himp⟩ := hnot
    have hvolume' : (p.volume : ℚ) ≠ 0 := by exact_mod_cast hvolume
    have hmultiplier' : (contract.contractMultiplier : ℚ) ≠ 0 := by exact_mod_cast hmultiplier
    have heq : p.settlementPrice = quote.settlementPrice := by
      have h₁ := mul_right_cancel₀ hratio h
      have h₂ := mul_right_cancel₀ hvolume' h₁
      have h₃ := mul_right_cancel₀ hrate h₂
      exact mul_left_cancel₀ hmultiplier' h₃
    apply himp heq
    have h₁ := mul_right_cancel₀ hratio h'
    have h₂ := mul_right_cancel₀ hvolume' h₁
    have hne : (contract.contractMultiplier : ℚ) * quote.settlementPrice ≠ 0 :=
      mul_ne_zero hmultiplier' hprice
    apply mul_left_cancel₀ hne
    rw [mul_one]
    exact h₂.symm

/-- A quote settles the sides that have no margin, or its price already. -/
theorem settled_iff (hvalid : isValidPrice quote.settlementPrice)
    (hrun : applyQuote market quote book = .ok book₁) :
    Settled market quote book book₁ ↔ ∀ direction, Settles market quote direction book := by
  obtain ⟨hsides, hsum⟩ := quotedOn_of_applyQuote hvalid hrun
  have hvolume : ∀ direction, volumeOn book₁ quote direction = volumeOn book quote direction := by
    intro direction
    obtain ⟨p, hp, hquoted⟩ := hsides direction
    rw [volumeOn, Book.position_of_lookup hp, hquoted.volume]
  constructor
  · intro hsettled direction
    obtain ⟨p, hp, hquoted⟩ := hsides direction
    have hmargin := hsettled.margin direction
    have hday := hsettled.tradingDay "" direction
    rw [marginOn_applyTradingDay hvalid hp hquoted, hmargin, hvolume] at hday
    rw [hvolume, marginOn, Book.position_of_lookup hp, hquoted.margin] at hmargin
    exact (settles_iff hvalid).mpr ⟨hmargin, hday⟩
  · intro hsettles
    have hmargin : ∀ direction, marginOn book₁ quote direction =
        marginFor (quotedContract market quote direction) quote.settlementPrice
          (volumeOn book₁ quote direction) := by
      intro direction
      obtain ⟨p, hp, hquoted⟩ := hsides direction
      rw [hvolume, marginOn, Book.position_of_lookup hp, hquoted.margin]
      exact ((settles_iff hvalid).mp (hsettles direction)).1
    refine ⟨hmargin, hsum, ?_, ?_⟩
    · have hto : ∀ direction, applyQuoteTo market quote direction book₁ = .ok book₁ := by
        intro direction
        obtain ⟨p, hp, hquoted⟩ := hsides direction
        have hposition := hmargin direction
        rw [marginOn, volumeOn, Book.position_of_lookup hp] at hposition
        rw [applyQuoteTo_of_lookup hp,
          quoted_eq_self hquoted.unmoved hquoted.settlementPrice hposition]
        simp only [Book.setSlice, Book.insert_of_lookup hp]
      rw [applyQuote, hto, Outcome.ok_bind, hto]
    · intro tradingDay direction
      obtain ⟨p, hp, hquoted⟩ := hsides direction
      rw [marginOn_applyTradingDay hvalid hp hquoted, hmargin, hvolume]
      exact ((settles_iff hvalid).mp (hsettles direction)).2

/-- A book of two contracts that were settled at a price, or never if it is zero. -/
def exampleHeld (settlementPrice : ℚ) : AccountBook :=
  let book := emptyBook 10 .Account "20260929"
  book.setPosition { book.newPosition .Long "SHFE" "rb2701" .Future with
    volume := 2
    settlementPrice := settlementPrice }

def exampleSettlementOf (K : Type) [∀ n, OfNat K n] : SettlementQuote K :=
  ⟨⟨"rb2701", "SHFE", 0, 0, 0⟩, 4000, 0⟩

def exampleSettlement : SettlementQuote := exampleSettlementOf ℚ

/-- A book of two contracts that are settled at 4000 already, with margin of 780.1 and 1000.1 to
spend. -/
def exampleMargined (K : Type) [Div K] [∀ n, OfNat K n] : AccountBook K :=
  let book : AccountBook K := emptyBook 10 .Account "20260929"
  let book : AccountBook K := { book with state := { book.state with
      asset := { book.state.asset with avail := 10001 / 10 } } }
  book.setPosition { book.newPosition .Long "SHFE" "rb2701" .Future with
    volume := 2
    settlementPrice := 4000
    margin := 7801 / 10 }

/-- With numbers that are rounded, a quote changes the sum of what can be spent and of the margins of a
position that is settled already. -/
theorem not_conserved_of_rounding :
    ∃ book₁, applyQuote (noInstrumentsOf Binary64) (exampleSettlementOf Binary64)
        (exampleMargined Binary64) = .ok book₁ ∧
      book₁.state.asset.avail.val + (book₁.position .Long "SHFE" "rb2701").margin.val +
          (book₁.position .Short "SHFE" "rb2701").margin.val ≠
        (exampleMargined Binary64).state.asset.avail.val +
          ((exampleMargined Binary64).position .Long "SHFE" "rb2701").margin.val := by
  obtain ⟨book₁, hrun, htest⟩ := Outcome.exists_of_any
    (x := applyQuote (noInstrumentsOf Binary64) (exampleSettlementOf Binary64) (exampleMargined Binary64))
    (p := fun book₁ =>
      book₁.state.asset.avail.val + (book₁.position .Long "SHFE" "rb2701").margin.val +
          (book₁.position .Short "SHFE" "rb2701").margin.val ≠
        (exampleMargined Binary64).state.asset.avail.val +
          ((exampleMargined Binary64).position .Long "SHFE" "rb2701").margin.val) (by decide +kernel)
  exact ⟨book₁, hrun, of_decide_eq_true htest⟩

/-- At the price that they had before, two contracts are settled. -/
theorem settled_iff_example :
    ∃ book₁, applyQuote noInstruments exampleSettlement (exampleHeld 4000) = .ok book₁ ∧
      Settled noInstruments exampleSettlement (exampleHeld 4000) book₁ := by
  obtain ⟨book₁, hrun⟩ := Outcome.exists_of_isOk
    (x := applyQuote noInstruments exampleSettlement (exampleHeld 4000)) (by decide +kernel)
  refine ⟨book₁, hrun, (settled_iff (by decide +kernel) hrun).mpr ?_⟩
  intro direction
  cases direction <;> decide +kernel

/-- The first settlement price of two contracts leaves them without margin: it should be 8000.  With
numbers that are rounded, two contracts that are settled already are not settled exactly, either. -/
theorem settled_iff_first :
    (∃ book₁, applyQuote noInstruments exampleSettlement (exampleHeld 0) = .ok book₁ ∧
      marginOn book₁ exampleSettlement .Long = 0 ∧
      marginFor (quotedContract noInstruments exampleSettlement .Long) 4000
        (volumeOn book₁ exampleSettlement .Long) = 8000 ∧
      ¬ Settled noInstruments exampleSettlement (exampleHeld 0) book₁) ∧
    ∃ book₁, applyQuote (noInstrumentsOf Binary64) (exampleSettlementOf Binary64)
        (exampleMargined Binary64) = .ok book₁ ∧
      book₁.state.asset.avail.val + (book₁.position .Long "SHFE" "rb2701").margin.val +
          (book₁.position .Short "SHFE" "rb2701").margin.val ≠
        (exampleMargined Binary64).state.asset.avail.val +
          ((exampleMargined Binary64).position .Long "SHFE" "rb2701").margin.val := by
  refine ⟨?_, not_conserved_of_rounding⟩
  obtain ⟨book₁, hrun⟩ := Outcome.exists_of_isOk
    (x := applyQuote noInstruments exampleSettlement (exampleHeld 0)) (by decide +kernel)
  obtain ⟨p, hp, hquoted⟩ := (quotedOn_of_applyQuote (by decide +kernel) hrun).1 .Long
  have hmargin : marginOn book₁ exampleSettlement .Long = 0 := by
    rw [marginOn, Book.position_of_lookup hp, hquoted.margin]
    decide +kernel
  have hshould : marginFor (quotedContract noInstruments exampleSettlement .Long) 4000
      (volumeOn book₁ exampleSettlement .Long) = 8000 := by
    rw [volumeOn, Book.position_of_lookup hp, hquoted.volume]
    decide +kernel
  refine ⟨book₁, hrun, hmargin, hshould, ?_⟩
  intro hsettled
  have heq := hsettled.margin .Long
  rw [hmargin] at heq
  exact absurd (heq.trans hshould) (by decide)

end FutureAccountingMethod

end Kungfu.Wingchun
