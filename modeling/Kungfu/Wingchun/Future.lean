import Kungfu.Wingchun.Book
import Mathlib.Data.Rat.Cast.Order

/-!
# Accounting of futures

An order to open freezes margin, an order to close freezes volume.  On some exchanges long
and short positions offset each other: there an order to open closes what is held on the
other side, and an order to close opens when there is nothing to close.  Which of the two an
order does is decided anew for each of its messages.
-/

namespace Kungfu.Wingchun

open Longfist

variable {key : PositionKey} {K : Type} [Add K] [Sub K] [Mul K] [Div K] [Neg K] [IntCast K]
  [Max K] [Min K] [LT K] [DecidableLT K] [LE K] [DecidableLE K] [∀ n, OfNat K n]

structure ContractMultiplierAndMarginRatio (K : Type := ℚ) where
  contractMultiplier : ℤ
  marginRatio : K
  exchangeRate : K

namespace FutureAccountingMethod

/-! ## Contracts -/

/-- `get_instrument_contract_multiplier_and_margin_ratio` for an instrument under a hash. -/
def getInstrumentContractMultiplierAndMarginRatio (market : Market K) (hash : UInt32)
    (direction : Direction) : ContractMultiplierAndMarginRatio K :=
  match market.instruments hash with
  | none =>
      { contractMultiplier := 10
        marginRatio := 1 / 10
        exchangeRate := market.exchangeRate hash }
  | some instrument =>
      { contractMultiplier := instrument.contractMultiplier.toInt
        marginRatio :=
          if direction = .Long then instrument.longMarginRatio else instrument.shortMarginRatio
        exchangeRate := market.exchangeRate hash }

/-- `get_instrument_product`: the code without its digits, in capitals. -/
def getInstrumentProduct (instrumentId : String) : String :=
  String.ofList ((instrumentId.toList.filter fun c => !c.isDigit).map Char.toUpper)

/-- The commission of an instrument. -/
def commissionOf (market : Market K) (instrumentId : String) : Option (Commission K) :=
  market.commissions (Yijinjing.hashStr32 (getInstrumentProduct instrumentId))

/-- `able_long_short_position_merge`. -/
def ableLongShortPositionMerge (exchangeId : String) : Bool := exchangeId ∈ mergeExchanges

/-- `update_position`. -/
def updatePosition (market : Market K) (position : Position key K) : Position key K :=
  if 0 < position.lastPrice then
    let cmMr := getInstrumentContractMultiplierAndMarginRatio market
      (hashInstrument position.exchangeId position.instrumentId) position.direction
    let cost : K := match commissionOf market position.instrumentId with
      | none => 0
      | some commission =>
          let closeTodayVolume := position.volume - position.yesterdayVolume
          match commission.mode with
          | .ByAmount =>
              (position.lastPrice * position.yesterdayVolume * commission.closeRatio +
                position.lastPrice * closeTodayVolume * commission.closeTodayRatio) *
              cmMr.contractMultiplier
          | .ByVolume =>
              position.yesterdayVolume * commission.closeRatio +
                closeTodayVolume * commission.closeTodayRatio
    let multiplier := cmMr.contractMultiplier * (if position.direction = .Long then 1 else -1)
    let priceDiff := position.lastPrice - position.avgOpenPrice
    { position with unrealizedPnl := priceDiff * position.volume * multiplier - cost }
  else position

section UpdatePosition

variable (market : Market) (p : Position key)

/-- What is not realized is all that an update changes of a position. -/
theorem updatePosition_eq : updatePosition market p =
    { p with unrealizedPnl := (updatePosition market p).unrealizedPnl } := by
  unfold updatePosition
  split <;> rfl

@[simp] theorem margin_updatePosition : (updatePosition market p).margin = p.margin := by
  rw [updatePosition_eq]

@[simp] theorem volume_updatePosition : (updatePosition market p).volume = p.volume := by
  rw [updatePosition_eq]

@[simp] theorem settlementPrice_updatePosition :
    (updatePosition market p).settlementPrice = p.settlementPrice := by
  rw [updatePosition_eq]

end UpdatePosition

/-- `calculate_commission`. -/
def calculateCommission (market : Market K) (trade : Trade (Details K)) (direction : Direction)
    (closeTodayVolume : K) : K :=
  let cmMr := getInstrumentContractMultiplierAndMarginRatio market
    (hashInstrument trade.exchangeId trade.instrumentId) direction
  let price := trade.details.price
  let volume := trade.volume.toInt
  match commissionOf market trade.instrumentId with
  | none => 0
  | some commission =>
      let volumeLeft := volume - closeTodayVolume
      match commission.mode with
      | .ByAmount =>
          if trade.details.offset = .Open then
            price * cmMr.exchangeRate * volume * cmMr.contractMultiplier * commission.openRatio
          else
            price * volumeLeft * cmMr.contractMultiplier * commission.closeRatio +
              price * closeTodayVolume * cmMr.contractMultiplier * commission.closeTodayRatio
      | .ByVolume =>
          if trade.details.offset = .Open then volume * commission.openRatio
          else volumeLeft * commission.closeRatio + closeTodayVolume * commission.closeTodayRatio

/-! ## Opening or closing -/

/-- The other side. -/
def opposite : Direction → Direction
  | .Long => .Short
  | .Short => .Long

/-- The offset that is decided from the volumes held on the message's own and on the other
side. -/
def decideOffset (merge : Bool) (volume oppsiteVolume : ℤ) (offset : Offset) : Offset :=
  let needToMergeLongShortPositions := merge ∧ 0 < oppsiteVolume
  let needToOpenOppsite := merge ∧ volume ≤ 0 ∧ offset ≠ .Open
  if needToMergeLongShortPositions ∧ offset = .Open then .Close
  else if needToOpenOppsite ∧ offset ≠ .Open then .Open
  else offset

/-- `get_offset`, which makes the positions that it looks at. -/
def getOffset (book : AccountBook K) (data : TradingData K) :
    ThrowsOf K (Offset × AccountBook K) := do
  if ableLongShortPositionMerge data.exchangeId then
    let direction ← book.orThrow (getDirection data.instrumentType data.side data.offset)
    let book ← book.getPosition (opposite direction) data.exchangeId data.instrumentId
    let book ← book.getPosition direction data.exchangeId data.instrumentId
    let volume := (book.position direction data.exchangeId data.instrumentId).volume
    let oppsiteVolume :=
      (book.position (opposite direction) data.exchangeId data.instrumentId).volume
    return (decideOffset true volume oppsiteVolume data.offset, book)
  else return (data.offset, book)

/-- The change of a position by what the decided offset says. -/
def onOffsetPosition (book : AccountBook K) (data : TradingData K)
    (f : Offset → ∀ {key : PositionKey}, Slice key K → Slice key K) : ThrowsOf K (AccountBook K) := do
  let (offset, book) ← getOffset book data
  let direction ← book.orThrow (getDirection data.instrumentType data.side offset)
  let book ← book.getPosition direction data.exchangeId data.instrumentId
  return book.onSlice direction data.exchangeId data.instrumentId (f offset)

/-! ## Order inputs and orders -/

/-- The margin that is frozen for a volume at a price. -/
def marginFor (cmMr : ContractMultiplierAndMarginRatio K) (price : K) (volume : ℤ) : K :=
  cmMr.contractMultiplier * price * cmMr.exchangeRate * volume * cmMr.marginRatio

/-- Margin is frozen, which is cash, too. -/
def freezeMargin (frozenMargin : K) (asset : Asset K) : Asset K :=
  { asset with
    avail := asset.avail - frozenMargin
    frozenCash := asset.frozenCash + frozenMargin
    frozenMargin := asset.frozenMargin + frozenMargin }

/-- What an order input changes. -/
def applyInput (market : Market K) (input : OrderInput (Details K) K) (offset : Offset)
    (s : Slice key K) : Slice key K :=
  let cmMr := getInstrumentContractMultiplierAndMarginRatio market
    (hashInstrument input.exchangeId input.instrumentId) s.position.direction
  let volume := input.volume.toInt
  match offset with
  | .Open =>
      { s with
        asset := freezeMargin (marginFor cmMr input.frozenPrice volume) s.asset
        position := updatePosition market s.position }
  | .Close | .CloseYesterday =>
      { s with position := updatePosition market (s.position.freeze volume) }
  | .CloseToday =>
      { s with position := updatePosition market (s.position.freezeToday volume) }

/-- `apply_order_input`. -/
def applyOrderInput (market : Market K) (book : AccountBook K) (input : OrderInput (Details K) K) :
    ThrowsOf K (AccountBook K) :=
  onOffsetPosition book (.orderInput input) fun offset => applyInput market input offset

/-- What the end of an order gives back. -/
def applyFinalOrder (market : Market K) (order : Order (Details K) K) (offset : Offset)
    (s : Slice key K) : Slice key K :=
  let cmMr := getInstrumentContractMultiplierAndMarginRatio market
    (hashInstrument order.exchangeId order.instrumentId) s.position.direction
  let volumeLeft := order.volumeLeft.toInt
  match offset with
  | .Open =>
      { s with
        asset := freezeMargin (-marginFor cmMr order.frozenPrice volumeLeft) s.asset
        position := updatePosition market s.position }
  | .Close | .CloseYesterday =>
      { s with position := updatePosition market (s.position.unfreeze volumeLeft) }
  | .CloseToday =>
      { s with position := updatePosition market (s.position.unfreezeToday volumeLeft) }

/-- `apply_order`. -/
def applyOrder (market : Market K) (book : AccountBook K) (order : Order (Details K) K) :
    ThrowsOf K (AccountBook K) :=
  let book := book.emplaceOrder order
  if isFinalStatus order.status then
    onOffsetPosition book (.order order) fun offset => applyFinalOrder market order offset
  else .ok book

/-! ## Trades -/

/-- `apply_open`. -/
def applyOpen (market : Market K) (frozenPrice : K) (trade : Trade (Details K)) (s : Slice key K) :
    Slice key K :=
  let cmMr := getInstrumentContractMultiplierAndMarginRatio market
    (hashInstrument trade.exchangeId trade.instrumentId) s.position.direction
  let volume := trade.volume.toInt
  let price := trade.details.price
  let margin := marginFor cmMr price volume
  let frozenMargin := marginFor cmMr frozenPrice volume
  let position := updatePosition market { s.position with
    margin := s.position.margin + margin
    avgOpenPrice :=
      (s.position.avgOpenPrice * s.position.volume + price * volume) /
        (s.position.volume + volume : ℤ)
    volume := s.position.volume + volume }
  let commission := calculateCommission market trade s.position.direction 0 * cmMr.exchangeRate
  let asset := freezeMargin (-frozenMargin) s.asset
  { s with
    asset := { asset with
      avail := asset.avail - commission - margin
      accumulatedFee := asset.accumulatedFee + commission
      intradayFee := asset.intradayFee + commission
      margin := asset.margin + margin }
    position := position }

/-- `apply_close`. -/
def applyClose (market : Market K) (trade : Trade (Details K)) (s : Slice key K) : Slice key K :=
  let cmMr := getInstrumentContractMultiplierAndMarginRatio market
    (hashInstrument trade.exchangeId trade.instrumentId) s.position.direction
  let volume := trade.volume.toInt
  let price := trade.details.price
  let margin := marginFor cmMr price volume
  let deltaMargin := min s.position.margin margin
  let today := trade.details.offset = .CloseToday
  let closeTodayVolume := if today then volume else max (volume - s.position.yesterdayVolume) 0
  let pnl := (price - s.position.avgOpenPrice) * volume * cmMr.contractMultiplier
  let realizedPnl := if s.position.direction = .Short then -pnl else pnl
  let position := updatePosition market { s.position with
    margin := s.position.margin - deltaMargin
    volume := s.position.volume - volume
    frozenTotal := s.position.frozenTotal - volume
    yesterdayVolume :=
      if today then s.position.yesterdayVolume else max (s.position.yesterdayVolume - volume) 0
    frozenYesterday :=
      if today then s.position.frozenYesterday else max (s.position.frozenYesterday - volume) 0
    realizedPnl := s.position.realizedPnl + realizedPnl }
  let commission :=
    calculateCommission market trade s.position.direction closeTodayVolume * cmMr.exchangeRate
  { s with
    asset := { s.asset with
      realizedPnl := s.asset.realizedPnl + realizedPnl * cmMr.exchangeRate
      avail := s.asset.avail + deltaMargin - commission
      accumulatedFee := s.asset.accumulatedFee + commission
      intradayFee := s.asset.intradayFee + commission }
    position := position }

/-- What a trade changes. -/
def applyTradeTo (market : Market K) (frozenPrice : K) (trade : Trade (Details K)) (offset : Offset)
    (s : Slice key K) : Slice key K :=
  match offset with
  | .Open => applyOpen market frozenPrice trade s
  | .Close | .CloseToday | .CloseYesterday => applyClose market trade s

/-- `apply_trade`. -/
def applyTrade (market : Market K) (book : AccountBook K) (trade : Trade (Details K)) :
    ThrowsOf K (AccountBook K) :=
  let book := book.emplaceTrade trade
  onOffsetPosition book (.trade trade) fun offset =>
    applyTradeTo market (book.getFrozenPrice trade.orderId) trade offset

/-- What the method does with trading data. -/
def applyData (market : Market K) (book : AccountBook K) : TradingData K → ThrowsOf K (AccountBook K)
  | .orderInput input => applyOrderInput market book input
  | .order order => applyOrder market book order
  | .trade trade => applyTrade market book trade

end FutureAccountingMethod

end Kungfu.Wingchun
