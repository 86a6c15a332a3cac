import Kungfu.Longfist.Types
import Kungfu.Yijinjing.Hash
import Mathlib.Data.Rat.Defs

/-!
# Assets and positions

What books hold: the asset and the margin of an account, and its positions.  Prices and
amounts are exact numbers, unless others are given, and the volumes that are added up from messages
are exact.

A position is found under the hash of its exchange and its instrument, on the side of its
direction.  Both are the index of its type, so a position cannot be filed in a wrong place.
-/

namespace Kungfu.Longfist

open Yijinjing

inductive Offset
  | Open | Close | CloseToday | CloseYesterday
  deriving DecidableEq, Repr

inductive HedgeFlag
  | Speculation | Arbitrage | Hedge | Covered
  deriving DecidableEq, Repr

inductive Direction
  | Long | Short
  deriving DecidableEq, Repr

inductive LedgerCategory
  | Account | Strategy
  deriving DecidableEq, Repr

inductive CommissionRateMode
  | ByAmount | ByVolume
  deriving DecidableEq, Repr

/-- The fields that only accounting reads.  An order has an offset and a hedge flag; a trade
has a price and its fees, too. -/
structure Details (K : Type := ℚ) where
  offset : Offset
  hedgeFlag : HedgeFlag
  price : K
  tax : K
  commission : K
  deriving DecidableEq, Repr

/-- The trading data that books are kept from. -/
inductive TradingData (K : Type := ℚ)
  | orderInput (input : OrderInput (Details K) K)
  | order (order : Order (Details K) K)
  | trade (trade : Trade (Details K))

namespace TradingData

variable {K : Type}

def orderId : TradingData K → UInt64
  | orderInput i => i.orderId
  | order o => o.orderId
  | trade t => t.orderId

def instrumentId : TradingData K → String
  | orderInput i => i.instrumentId
  | order o => o.instrumentId
  | trade t => t.instrumentId

def exchangeId : TradingData K → String
  | orderInput i => i.exchangeId
  | order o => o.exchangeId
  | trade t => t.exchangeId

def instrumentType : TradingData K → InstrumentType
  | orderInput i => i.instrumentType
  | order o => o.instrumentType
  | trade t => t.instrumentType

def side : TradingData K → Side
  | orderInput i => i.side
  | order o => o.side
  | trade t => t.side

def offset : TradingData K → Offset
  | orderInput i => i.details.offset
  | order o => o.details.offset
  | trade t => t.details.offset

end TradingData

structure Asset (K : Type := ℚ) where
  updateTime : Int64
  tradingDay : String
  holderUid : UInt32
  ledgerCategory : LedgerCategory
  initialEquity : K
  staticEquity : K
  dynamicEquity : K
  realizedPnl : K
  unrealizedPnl : K
  avail : K
  marketValue : K
  margin : K
  accumulatedFee : K
  intradayFee : K
  frozenCash : K
  frozenMargin : K
  frozenFee : K
  positionPnl : K
  closePnl : K
  deriving DecidableEq, Repr

structure AssetMargin (K : Type := ℚ) where
  updateTime : Int64
  tradingDay : String
  holderUid : UInt32
  ledgerCategory : LedgerCategory
  totalAsset : K
  availMargin : K
  cashMargin : K
  shortMargin : K
  margin : K
  cashDebt : K
  shortCash : K
  shortMarketValue : K
  marginMarketValue : K
  marginInterest : K
  settlement : K
  credit : K
  collateralRatio : K
  deriving DecidableEq, Repr

/-- `hash_instrument`. -/
def hashInstrument (exchangeId instrumentId : String) : UInt32 :=
  hashStr32 instrumentId ^^^ hashStr32 exchangeId

/-- Where a position is found: in the long or the short positions, under a hash. -/
structure PositionKey where
  direction : Direction
  hash : UInt32
  deriving DecidableEq, Repr

structure Position (key : PositionKey) (K : Type := ℚ) where
  updateTime : Int64
  tradingDay : String
  instrumentId : String
  instrumentType : InstrumentType
  exchangeId : String
  holderUid : UInt32
  ledgerCategory : LedgerCategory
  volume : ℤ
  yesterdayVolume : ℤ
  frozenTotal : ℤ
  frozenYesterday : ℤ
  lastPrice : K
  avgOpenPrice : K
  positionCostPrice : K
  closePrice : K
  preClosePrice : K
  settlementPrice : K
  preSettlementPrice : K
  margin : K
  positionPnl : K
  closePnl : K
  realizedPnl : K
  unrealizedPnl : K
  hashed : hashInstrument exchangeId instrumentId = key.hash
  deriving DecidableEq

/-- `position.direction`. -/
def Position.direction {key : PositionKey} {K : Type} (_ : Position key K) : Direction := key.direction

/-- The positions that may be found under a key. -/
abbrev PositionAt (K : Type) (key : PositionKey) : Type := Position key K

structure Instrument (K : Type := ℚ) where
  instrumentId : String
  exchangeId : String
  instrumentType : InstrumentType
  contractMultiplier : Int32
  deliveryYear : Int32
  forceUpdateRatio : Bool
  longMarginRatio : K
  shortMarginRatio : K
  conversionRate : K
  exchangeRate : K
  deriving DecidableEq, Repr

structure Commission (K : Type := ℚ) where
  productId : String
  exchangeId : String
  instrumentType : InstrumentType
  mode : CommissionRateMode
  openRatio : K
  closeRatio : K
  closeTodayRatio : K
  minCommission : K
  deriving DecidableEq, Repr

end Kungfu.Longfist
