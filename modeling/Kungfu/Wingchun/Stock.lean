import Kungfu.Wingchun.Book
import Mathlib.Data.Rat.Cast.Order

/-!
# Accounting of stocks, bonds and repos

An order to buy freezes cash, an order to sell freezes volume, and orders of margin trading
freeze margin.  Trades and the end of an order give back what was frozen.  The methods for
bonds and repos are the one for stocks with some of its functions overridden.
-/

namespace Kungfu.Wingchun

open Longfist

variable {key : PositionKey} {K : Type} [Add K] [Sub K] [Mul K] [Div K] [Neg K] [IntCast K]
  [Max K] [LT K] [DecidableLT K] [LE K] [DecidableLE K] [∀ n, OfNat K n]

structure ContractDiscountAndMarginRatio (K : Type := ℚ) where
  longMarginRatio : K
  shortMarginRatio : K
  conversionRate : K
  exchangeRate : K

/-- The functions that accounting of repos overrides inside the others. -/
structure StockAccountingMethod (K : Type := ℚ) where
  calculateTax : Trade (Details K) → K
  updatePosition : ∀ {key : PositionKey}, Position key K → Position key K

namespace StockAccountingMethod

/-- `get_instr_conversion_margin_rate`.  Two of the defaults are the numbers of single precision that
are next to 0.6 and 0.7. -/
def getInstrConversionMarginRate (market : Market K) (position : Position key K) :
    ContractDiscountAndMarginRatio K :=
  let hashedInstrumentKey := hashInstrument position.exchangeId position.instrumentId
  match market.instruments hashedInstrumentKey with
  | none =>
      { longMarginRatio := 1
        shortMarginRatio := 10066330 / 16777216
        conversionRate := 11744051 / 16777216
        exchangeRate := market.exchangeRate hashedInstrumentKey }
  | some instrument =>
      { longMarginRatio := instrument.longMarginRatio
        shortMarginRatio := instrument.shortMarginRatio
        conversionRate := instrument.conversionRate
        exchangeRate := market.exchangeRate hashedInstrumentKey }

theorem exchangeRate_getInstrConversionMarginRate (market : Market) (p : Position key) :
    (getInstrConversionMarginRate market p).exchangeRate = market.exchangeRate key.hash := by
  unfold getInstrConversionMarginRate
  simp only [p.hashed]
  cases market.instruments key.hash <;> rfl

/-- `MAX_COLLATERAL_RATIO`. -/
def maxCollateralRatio : ℚ := 1000

/-- `calculate_collateral_ratio`. -/
def calculateCollateralRatio (assetMargin : AssetMargin) : AssetMargin :=
  let totalDebt := assetMargin.cashDebt + assetMargin.shortMarketValue + assetMargin.marginInterest
  let collateralRatio :=
    if 0 < totalDebt then (assetMargin.totalAsset + assetMargin.settlement) / totalDebt
    else maxCollateralRatio
  { assetMargin with collateralRatio := min collateralRatio maxCollateralRatio }

/-- `calculate_commission`. -/
def calculateCommission (trade : Trade Details) : ℚ := trade.details.commission

/-- `StockAccountingMethod::update_position`. -/
def updateStockPosition (position : Position key K) : Position key K :=
  if 0 < position.lastPrice then
    let priceChange := position.lastPrice - position.avgOpenPrice
    { position with
      unrealizedPnl :=
        (if position.direction = .Long then priceChange else -priceChange) * position.volume }
  else position

/-- `StockAccountingMethod` itself. -/
def stock : StockAccountingMethod K where
  calculateTax trade := trade.details.tax
  updatePosition := updateStockPosition

/-! ## Order inputs -/

def freezeCash (frozenCash : K) (asset : Asset K) : Asset K :=
  { asset with
    frozenCash := asset.frozenCash + frozenCash
    avail := asset.avail - frozenCash }

/-- What an order input changes. -/
def applyInput (market : Market K) (input : OrderInput (Details K) K) (s : Slice key K) : Slice key K :=
  let cdMr := getInstrConversionMarginRate market s.position
  let volume := input.volume.toInt
  let frozenCash := volume * input.frozenPrice * cdMr.exchangeRate
  match input.side with
  | .Sell | .RepayMargin => { s with position := s.position.freeze volume }
  | .Buy => { s with asset := freezeCash frozenCash s.asset }
  | .RepayStock =>
      { s with
        asset := freezeCash frozenCash s.asset
        position := s.position.freeze volume }
  | .MarginTrade =>
      let frozenMargin := frozenCash * cdMr.longMarginRatio
      { s with
        asset := { s.asset with frozenMargin := s.asset.frozenMargin + frozenMargin }
        assetMargin := { s.assetMargin with
          availMargin := s.assetMargin.availMargin - frozenMargin
          cashMargin := s.assetMargin.cashMargin + frozenMargin
          margin := s.assetMargin.margin + frozenMargin } }
  | .ShortSell =>
      let frozenMargin := frozenCash * cdMr.shortMarginRatio
      { s with
        asset := { s.asset with frozenMargin := s.asset.frozenMargin + frozenMargin }
        assetMargin := { s.assetMargin with
          availMargin := s.assetMargin.availMargin - frozenMargin
          shortMargin := s.assetMargin.shortMargin + frozenMargin
          margin := s.assetMargin.margin + frozenMargin } }
  | _ => s

/-- `apply_order_input`. -/
def applyOrderInput (market : Market K) (book : AccountBook K) (input : OrderInput (Details K) K) :
    ThrowsOf K (AccountBook K) :=
  book.onPositionFor (.orderInput input) (applyInput market input)

/-! ## Orders -/

/-- What the end of an order gives back. -/
def applyFinalOrder (market : Market K) (frozenPrice : K) (order : Order (Details K) K)
    (s : Slice key K) : Slice key K :=
  let cdMr := getInstrConversionMarginRate market s.position
  let volumeLeft := order.volumeLeft.toInt
  match order.side with
  | .Buy =>
      let frozen := frozenPrice * volumeLeft * cdMr.exchangeRate
      { s with asset := freezeCash (-frozen) s.asset }
  | .RepayStock =>
      let frozen := frozenPrice * volumeLeft * cdMr.exchangeRate
      { s with
        asset := freezeCash (-frozen) s.asset
        position := s.position.unfreeze volumeLeft }
  | .Sell | .RepayMargin => { s with position := s.position.unfreeze volumeLeft }
  | .MarginTrade =>
      let releaseFrozenMargin :=
        frozenPrice * cdMr.exchangeRate * volumeLeft * cdMr.longMarginRatio
      { s with
        asset := { s.asset with frozenMargin := s.asset.frozenMargin - releaseFrozenMargin }
        assetMargin := { s.assetMargin with
          -- the released margin becomes available twice
          availMargin := s.assetMargin.availMargin + releaseFrozenMargin + releaseFrozenMargin
          cashMargin := s.assetMargin.cashMargin - releaseFrozenMargin
          margin := s.assetMargin.margin - releaseFrozenMargin } }
  | .ShortSell =>
      let releaseFrozenMargin :=
        frozenPrice * cdMr.exchangeRate * volumeLeft * cdMr.shortMarginRatio
      { s with
        asset := { s.asset with frozenMargin := s.asset.frozenMargin - releaseFrozenMargin }
        assetMargin := { s.assetMargin with
          availMargin := s.assetMargin.availMargin + releaseFrozenMargin + releaseFrozenMargin
          shortMargin := s.assetMargin.shortMargin - releaseFrozenMargin
          margin := s.assetMargin.margin - releaseFrozenMargin } }
  | _ => s

/-- `apply_order`. -/
def applyOrder (method : StockAccountingMethod K) (market : Market K) (book : AccountBook K)
    (order : Order (Details K) K) : ThrowsOf K (AccountBook K) :=
  let book := book.emplaceOrder order
  if isFinalStatus order.status then
    book.onPositionFor (.order order) fun s =>
      let s := applyFinalOrder market (book.getFrozenPrice order.orderId) order s
      { s with position := method.updatePosition s.position }
  else .ok book

/-! ## Trades -/

/-- The volume that a trade closes leaves the position. -/
def closeVolume (volume : ℤ) (position : Position key) : Position key :=
  { position.unfreeze volume with
    yesterdayVolume := max (position.yesterdayVolume - volume) 0
    volume := max (position.volume - volume) 0 }

/-- A position after a trade that sells. -/
def soldPosition (method : StockAccountingMethod) (trade : Trade Details) (position : Position key) :
    Position key :=
  let volume := trade.volume.toInt
  let realizedPnl := (trade.details.price - position.avgOpenPrice) * volume
  let unrealizedPnlChange := (position.lastPrice - position.avgOpenPrice) * volume
  method.updatePosition { closeVolume volume position with
    realizedPnl := position.realizedPnl + realizedPnl
    unrealizedPnl := position.unrealizedPnl - unrealizedPnlChange }

section Trades

variable (method : StockAccountingMethod) (market : Market) (frozenPrice : ℚ)
  (trade : Trade Details) (s : Slice key)

/-- `apply_buy`. -/
def applyBuy : Slice key :=
  let cdMr := getInstrConversionMarginRate market s.position
  let volume := trade.volume.toInt
  let price := trade.details.price
  let tradeAmt := price * volume * cdMr.exchangeRate
  let fees := calculateCommission trade + method.calculateTax trade
  let lastPrice := if 0 < s.position.lastPrice then s.position.lastPrice else price
  let opened := 0 < s.position.volume + volume ∧ 0 < price
  let avgOpenPrice :=
    if opened then
      (s.position.avgOpenPrice * s.position.volume + tradeAmt / cdMr.exchangeRate) /
        (s.position.volume + volume)
    else s.position.avgOpenPrice
  let positionCostPrice :=
    if opened then
      (s.position.positionCostPrice * s.position.volume + tradeAmt / cdMr.exchangeRate + fees) /
        (s.position.volume + volume)
    else s.position.positionCostPrice
  let unrealizedPnlChange := (lastPrice - price) * volume
  let frozenCashToRelease := frozenPrice * cdMr.exchangeRate * volume
  let positionMarketValueChange := volume * lastPrice * cdMr.exchangeRate
  { asset := { s.asset with
      frozenCash := s.asset.frozenCash - frozenCashToRelease
      avail := s.asset.avail + (frozenCashToRelease - tradeAmt - fees)
      intradayFee := s.asset.intradayFee + fees
      accumulatedFee := s.asset.accumulatedFee + fees
      unrealizedPnl := s.asset.unrealizedPnl + unrealizedPnlChange * cdMr.exchangeRate
      marketValue := s.asset.marketValue + positionMarketValueChange }
    assetMargin :=
      if s.assetMargin.totalAsset ≠ 0 then
        calculateCollateralRatio { s.assetMargin with
          totalAsset := s.assetMargin.totalAsset + (positionMarketValueChange - tradeAmt - fees)
          availMargin := s.assetMargin.availMargin +
            (positionMarketValueChange * cdMr.conversionRate - tradeAmt - fees) }
      else s.assetMargin
    position := { s.position with
      lastPrice := lastPrice
      avgOpenPrice := avgOpenPrice
      positionCostPrice := positionCostPrice
      volume := s.position.volume + volume
      unrealizedPnl := s.position.unrealizedPnl + unrealizedPnlChange } }

/-- `apply_sell`. -/
def applySell : Slice key :=
  let cdMr := getInstrConversionMarginRate market s.position
  let volume := trade.volume.toInt
  let price := trade.details.price
  let fees := calculateCommission trade + method.calculateTax trade
  let realizedPnl := (price - s.position.avgOpenPrice) * volume
  let position := soldPosition method trade s.position
  let tradeAmt := price * cdMr.exchangeRate * volume
  let repayCashDebt := min position.margin (tradeAmt - fees)
  let cashDelivery := tradeAmt - repayCashDebt - fees
  let releasedMargin := repayCashDebt * cdMr.longMarginRatio
  let marginAccount := s.assetMargin.totalAsset ≠ 0
  { asset := { s.asset with
      realizedPnl := s.asset.realizedPnl + realizedPnl * cdMr.exchangeRate
      unrealizedPnl := s.asset.unrealizedPnl - realizedPnl * cdMr.exchangeRate
      avail := s.asset.avail + cashDelivery
      marketValue := s.asset.marketValue - tradeAmt
      intradayFee := s.asset.intradayFee + fees
      accumulatedFee := s.asset.accumulatedFee + fees }
    assetMargin :=
      if marginAccount then
        calculateCollateralRatio { s.assetMargin with
          availMargin := s.assetMargin.availMargin +
            ((cashDelivery - (tradeAmt - repayCashDebt) * cdMr.conversionRate) + releasedMargin)
          margin := s.assetMargin.margin - releasedMargin
          cashMargin := s.assetMargin.cashMargin - releasedMargin
          cashDebt := s.assetMargin.cashDebt - repayCashDebt
          totalAsset := s.assetMargin.totalAsset + (cashDelivery - tradeAmt)
          marginMarketValue := s.assetMargin.marginMarketValue - repayCashDebt }
      else s.assetMargin
    position :=
      if marginAccount then { position with margin := position.margin - releasedMargin }
      else position }

/-- `apply_margintrade`. -/
def applyMargintrade : Slice key :=
  let cdMr := getInstrConversionMarginRate market s.position
  let volume := trade.volume.toInt
  let price := trade.details.price
  let tradeAmt := price * volume
  let fees := calculateCommission trade + method.calculateTax trade
  let lastPrice := if s.position.lastPrice = 0 then price else s.position.lastPrice
  let marketValueChange := volume * lastPrice * cdMr.exchangeRate
  let cashMarginChange := tradeAmt * cdMr.longMarginRatio
  let unrealizedPnlChange := (lastPrice - price) * volume
  let opened := 0 < s.position.volume + volume ∧ 0 < price
  let frozenMarginToRelease := frozenPrice * cdMr.exchangeRate * volume * cdMr.longMarginRatio
  let deltaMargin := cashMarginChange - frozenMarginToRelease
  { asset := { s.asset with
      marketValue := s.asset.marketValue + marketValueChange
      frozenMargin := s.asset.frozenMargin - frozenMarginToRelease
      unrealizedPnl := s.asset.unrealizedPnl + unrealizedPnlChange * cdMr.exchangeRate
      intradayFee := s.asset.intradayFee + fees
      accumulatedFee := s.asset.accumulatedFee + fees }
    assetMargin := calculateCollateralRatio { s.assetMargin with
      totalAsset := s.assetMargin.totalAsset + marketValueChange
      cashDebt := s.assetMargin.cashDebt + (tradeAmt + fees)
      margin := s.assetMargin.margin + deltaMargin
      cashMargin := s.assetMargin.cashMargin + deltaMargin
      availMargin := s.assetMargin.availMargin - (deltaMargin + fees)
      marginMarketValue := s.assetMargin.marginMarketValue + marketValueChange }
    position := { s.position with
      lastPrice := lastPrice
      avgOpenPrice :=
        if opened then
          (s.position.avgOpenPrice * s.position.volume + tradeAmt) / (s.position.volume + volume)
        else s.position.avgOpenPrice
      positionCostPrice :=
        if opened then
          (s.position.positionCostPrice * s.position.volume + tradeAmt + fees) /
            (s.position.volume + volume)
        else s.position.positionCostPrice
      unrealizedPnl := s.position.unrealizedPnl + unrealizedPnlChange
      -- of a long position this is its debt, not its margin
      margin := s.position.margin + tradeAmt
      volume := s.position.volume + volume } }

/-- `apply_shortsell`. -/
def applyShortsell : Slice key :=
  let cdMr := getInstrConversionMarginRate market s.position
  let volume := trade.volume.toInt
  let price := trade.details.price
  let tradeAmt := price * volume * cdMr.exchangeRate
  let commission := calculateCommission trade
  let tax := method.calculateTax trade
  let opened := 0 < s.position.volume + volume ∧ 0 < price
  let avgOpenPrice :=
    if opened then
      (s.position.avgOpenPrice * s.position.volume + tradeAmt / cdMr.exchangeRate) /
        (s.position.volume + volume)
    else s.position.avgOpenPrice
  let positionCostPrice :=
    if opened then
      (s.position.positionCostPrice * s.position.volume + tradeAmt / cdMr.exchangeRate -
          commission - tax) / (s.position.volume + volume)
    else s.position.positionCostPrice
  let lastPrice := if s.position.lastPrice = 0 then price else s.position.lastPrice
  let originalLastPrice := if 0 < lastPrice then lastPrice else avgOpenPrice
  let frozenMarginToRelease := frozenPrice * cdMr.exchangeRate * volume * cdMr.shortMarginRatio
  let originalPositionMarketValue := originalLastPrice * cdMr.exchangeRate * s.position.volume
  let marketValueAfterTrade := price * cdMr.exchangeRate * (s.position.volume + volume)
  let positionMarketValueChangeAfterTrade := marketValueAfterTrade - originalPositionMarketValue
  let originalPositionMargin := originalPositionMarketValue * cdMr.shortMarginRatio
  let positionMarginAfterTrade := marketValueAfterTrade * cdMr.shortMarginRatio
  let positionMarginChangeAfterTrade := positionMarginAfterTrade - originalPositionMargin
  let deltaMargin := positionMarginChangeAfterTrade - frozenMarginToRelease
  let shortCash := tradeAmt - commission - tax
  { asset := { s.asset with
      frozenMargin := s.asset.frozenMargin - frozenMarginToRelease
      intradayFee := s.asset.intradayFee + (commission + tax)
      accumulatedFee := s.asset.accumulatedFee + (commission + tax) }
    assetMargin := calculateCollateralRatio { s.assetMargin with
      margin := s.assetMargin.margin + deltaMargin
      totalAsset := s.assetMargin.totalAsset + shortCash
      shortCash := s.assetMargin.shortCash + shortCash
      shortMargin := s.assetMargin.shortMargin + deltaMargin
      availMargin := s.assetMargin.availMargin - (deltaMargin + commission + tax)
      shortMarketValue := s.assetMargin.shortMarketValue + positionMarketValueChangeAfterTrade }
    position := { s.position with
      avgOpenPrice := avgOpenPrice
      positionCostPrice := positionCostPrice
      volume := s.position.volume + volume
      lastPrice := price
      margin := positionMarginAfterTrade } }

/-- `apply_repaymargin`. -/
def applyRepaymargin : Slice key :=
  let cdMr := getInstrConversionMarginRate market s.position
  let volume := trade.volume.toInt
  let price := trade.details.price
  let lastPrice := if s.position.lastPrice = 0 then price else s.position.lastPrice
  let fees := calculateCommission trade + method.calculateTax trade
  let realizedPnl := (price - s.position.avgOpenPrice) * volume
  let unrealizedPnlChange := (lastPrice - s.position.avgOpenPrice) * volume
  let positionMarketValueChange := -lastPrice * cdMr.exchangeRate * volume
  let tradeAmt := price * cdMr.exchangeRate * volume
  let income := tradeAmt - fees
  let releasedMargin := income * cdMr.longMarginRatio
  -- the income is more than the debt, so the rest of it is cash
  let repaid := s.assetMargin.cashDebt < income
  let stockToCashIncreasedMargin := (income - s.assetMargin.cashDebt) * (1 - cdMr.conversionRate)
  { asset := { s.asset with
      realizedPnl := s.asset.realizedPnl + realizedPnl * cdMr.exchangeRate
      unrealizedPnl := s.asset.unrealizedPnl - unrealizedPnlChange * cdMr.exchangeRate
      marketValue := s.asset.marketValue + positionMarketValueChange
      intradayFee := s.asset.intradayFee + fees
      accumulatedFee := s.asset.accumulatedFee + fees
      avail := if repaid then s.asset.avail + (income - s.assetMargin.cashDebt) else s.asset.avail }
    assetMargin := calculateCollateralRatio <|
      if repaid then
        { s.assetMargin with
          availMargin := s.assetMargin.availMargin +
            (s.assetMargin.cashMargin + stockToCashIncreasedMargin)
          totalAsset := s.assetMargin.totalAsset - s.assetMargin.cashDebt
          cashMargin := 0
          cashDebt := 0
          margin := s.assetMargin.shortMargin
          marginMarketValue := s.assetMargin.marginMarketValue + positionMarketValueChange }
      else
        { s.assetMargin with
          cashDebt := s.assetMargin.cashDebt - income
          cashMargin := s.assetMargin.cashMargin - releasedMargin
          margin := s.assetMargin.margin - releasedMargin
          availMargin := s.assetMargin.availMargin + (releasedMargin - fees)
          totalAsset := s.assetMargin.totalAsset + (positionMarketValueChange - fees)
          marginMarketValue := s.assetMargin.marginMarketValue + positionMarketValueChange }
    position := { closeVolume volume s.position with
      lastPrice := lastPrice
      realizedPnl := s.position.realizedPnl + realizedPnl
      unrealizedPnl := s.position.unrealizedPnl - unrealizedPnlChange
      margin := if repaid then 0 else max (s.position.margin - releasedMargin) 0 } }

/-- `apply_repaystock`. -/
def applyRepaystock : Slice key :=
  let cdMr := getInstrConversionMarginRate market s.position
  let volume := trade.volume.toInt
  let price := trade.details.price
  let fees := calculateCommission trade + method.calculateTax trade
  let lastPrice := if 0 < s.position.lastPrice then s.position.lastPrice else price
  let realizedPnl := (s.position.avgOpenPrice - price) * volume
  let tradeAmt := price * cdMr.exchangeRate * volume
  let repayDebtMrktValue := lastPrice * cdMr.exchangeRate * volume
  let frozenCashToRelease := frozenPrice * cdMr.exchangeRate * volume
  let releasedMargin := repayDebtMrktValue * cdMr.shortMarginRatio
  { asset := { s.asset with
      frozenCash := s.asset.frozenCash - frozenCashToRelease
      avail := s.asset.avail + (frozenCashToRelease - tradeAmt - fees)
      intradayFee := s.asset.intradayFee + fees
      accumulatedFee := s.asset.accumulatedFee + fees }
    assetMargin := calculateCollateralRatio { s.assetMargin with
      margin := s.assetMargin.margin - releasedMargin
      availMargin := s.assetMargin.availMargin + (releasedMargin - fees)
      shortMargin := s.assetMargin.shortMargin - releasedMargin
      shortMarketValue := s.assetMargin.shortMarketValue - repayDebtMrktValue
      shortCash := s.assetMargin.shortCash - tradeAmt
      totalAsset := s.assetMargin.totalAsset - (tradeAmt + fees) }
    position := { closeVolume volume s.position with
      lastPrice := lastPrice
      realizedPnl := s.position.realizedPnl + realizedPnl
      unrealizedPnl := s.position.unrealizedPnl - realizedPnl
      margin := s.position.margin - releasedMargin } }

end Trades

/-- `apply_trade`. -/
def applyTrade (method : StockAccountingMethod) (market : Market) (book : AccountBook)
    (trade : Trade Details) : Throws AccountBook :=
  let frozenPrice := book.getFrozenPrice trade.orderId
  match trade.side with
  | .Sell => book.onPositionFor (.trade trade) (applySell method market trade)
  | .Buy => book.onPositionFor (.trade trade) (applyBuy method market frozenPrice trade)
  | .MarginTrade =>
      book.onPositionFor (.trade trade) (applyMargintrade method market frozenPrice trade)
  | .ShortSell =>
      book.onPositionFor (.trade trade) (applyShortsell method market frozenPrice trade)
  | .RepayMargin => book.onPositionFor (.trade trade) (applyRepaymargin method market trade)
  | .RepayStock =>
      book.onPositionFor (.trade trade) (applyRepaystock method market frozenPrice trade)
  | _ => .ok book

/-- All that the method changes of the asset and of a position for trading data. -/
def effect (method : StockAccountingMethod) (market : Market) (frozenPrice : ℚ)
    (data : TradingData) (s : Slice key) : Slice key :=
  match data with
  | .orderInput input => applyInput market input s
  | .order order =>
      if isFinalStatus order.status then
        let s := applyFinalOrder market frozenPrice order s
        { s with position := method.updatePosition s.position }
      else s
  | .trade trade =>
      match trade.side with
      | .Sell => applySell method market trade s
      | .Buy => applyBuy method market frozenPrice trade s
      | .MarginTrade => applyMargintrade method market frozenPrice trade s
      | .ShortSell => applyShortsell method market frozenPrice trade s
      | .RepayMargin => applyRepaymargin method market trade s
      | .RepayStock => applyRepaystock method market frozenPrice trade s
      | _ => s

end StockAccountingMethod

/-! ## Bonds -/

namespace BondAccountingMethod

open StockAccountingMethod

/-- `is_convertible_bond`. -/
def isConvertibleBond (instrumentId exchangeId : String) : Bool :=
  (["123", "128", "117", "127", "125", "126"].any (startswith instrumentId) && exchangeId = "SZE") ||
    (["110", "113"].any (startswith instrumentId) && exchangeId = "SSE")

/-- What an order input for a convertible bond changes. -/
def applyConvertibleInput (market : Market) (input : OrderInput Details) (s : Slice key) :
    Slice key :=
  let cdMr := getInstrConversionMarginRate market s.position
  let volume := input.volume.toInt
  match input.side with
  | .Sell =>
      if volume ≤ s.position.volume - s.position.frozenTotal then
        { s with position := { s.position with
            frozenTotal := s.position.frozenTotal + volume
            frozenYesterday := max (s.position.frozenYesterday + volume) s.position.yesterdayVolume } }
      else s
  | .Buy =>
      { s with asset := freezeCash (volume * input.frozenPrice * cdMr.exchangeRate) s.asset }
  | _ => s

/-- `BondAccountingMethod::apply_order_input`. -/
def applyOrderInput (market : Market) (book : AccountBook) (input : OrderInput Details) :
    Throws AccountBook :=
  if isConvertibleBond input.instrumentId input.exchangeId then
    book.onPositionFor (.orderInput input) (applyConvertibleInput market input)
  else do
    let book ← book.onPositionFor (.orderInput input) id
    StockAccountingMethod.applyOrderInput market book input

end BondAccountingMethod

/-! ## Repos -/

namespace RepoAccountingMethod

open StockAccountingMethod

/-- The functions that `RepoAccountingMethod` overrides. -/
def repo : StockAccountingMethod K where
  calculateTax _ := 0
  updatePosition position := position

/-- `get_repo_commission_rate`. -/
def getRepoCommissionRate (instrumentId : String) : K :=
  if instrumentId ∈ ["204001", "131810"] then 1 / 100000
  else if instrumentId ∈ ["204002", "131811"] then 2 / 100000
  else if instrumentId ∈ ["204003", "131800"] then 3 / 100000
  else if instrumentId ∈ ["204004", "131809"] then 4 / 100000
  else if instrumentId ∈ ["204007", "131801"] then 5 / 100000
  else if instrumentId ∈ ["204014", "131802"] then 10 / 100000
  else if instrumentId ∈ ["204029", "131803"] then 20 / 100000
  else if instrumentId ∈ ["204091", "131805"] then 30 / 100000
  else if instrumentId ∈ ["204182", "131806"] then 30 / 100000
  else 0

/-- What an order input changes; to sell is to lend. -/
def applyInput (market : Market K) (input : OrderInput (Details K) K) (s : Slice key K) : Slice key K :=
  let cdMr := getInstrConversionMarginRate market s.position
  match input.side with
  | .Sell => { s with asset := freezeCash (input.volume.toInt * cdMr.exchangeRate) s.asset }
  | _ => s

/-- `RepoAccountingMethod::apply_order_input`. -/
def applyOrderInput (market : Market K) (book : AccountBook K) (input : OrderInput (Details K) K) :
    ThrowsOf K (AccountBook K) :=
  book.onPositionFor (.orderInput input) (applyInput market input)

/-- What the end of an order gives back. -/
def applyFinalOrder (market : Market K) (order : Order (Details K) K) (s : Slice key K) : Slice key K :=
  let cdMr := getInstrConversionMarginRate market s.position
  match order.side with
  | .Sell => { s with asset := freezeCash (-(order.volumeLeft.toInt * cdMr.exchangeRate)) s.asset }
  | _ => s

/-- `RepoAccountingMethod::apply_order`. -/
def applyOrder (market : Market K) (book : AccountBook K) (order : Order (Details K) K) :
    ThrowsOf K (AccountBook K) :=
  (book.emplaceOrder order).onPositionFor (.order order) fun s =>
    if isFinalStatus order.status then applyFinalOrder market order s else s

/-- `RepoAccountingMethod::apply_sell`. -/
def applySell (market : Market K) (trade : Trade (Details K)) (s : Slice key K) : Slice key K :=
  let cdMr := getInstrConversionMarginRate market s.position
  let volume := trade.volume.toInt
  let fees := volume * getRepoCommissionRate trade.instrumentId * cdMr.exchangeRate +
    repo.calculateTax trade
  { asset := { s.asset with
      frozenCash := s.asset.frozenCash - volume * cdMr.exchangeRate
      avail := s.asset.avail - fees
      intradayFee := s.asset.intradayFee + fees
      accumulatedFee := s.asset.accumulatedFee + fees }
    assetMargin := s.assetMargin
    position := { s.position with
      avgOpenPrice := 1
      volume := s.position.volume + volume } }

/-- `apply_trade`, with the functions that are overridden. -/
def applyTrade (market : Market) (book : AccountBook) (trade : Trade Details) :
    Throws AccountBook :=
  match trade.side with
  | .Sell => book.onPositionFor (.trade trade) (applySell market trade)
  | _ => StockAccountingMethod.applyTrade repo market book trade

end RepoAccountingMethod

end Kungfu.Wingchun
