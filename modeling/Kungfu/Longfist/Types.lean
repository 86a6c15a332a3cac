import Mathlib.Data.Int.Notation

/-!
# Orders and trades

The trading data that brokers publish and books are kept from.  The fields that only the
accounting methods read, such as prices of trades and offsets, are one field `details`.  The numbers
of prices and amounts are exact, unless others are given.
-/

namespace Kungfu.Longfist

/-- `location::PUBLIC`, the address of the channel that everyone may read. -/
def PUBLIC : UInt32 := 0

/-- The mode of a location. -/
inductive Mode
  | LIVE | DATA | REPLAY | BACKTEST
  deriving DecidableEq, Repr

/-- The category of a location. -/
inductive Category
  | MD | TD | STRATEGY | SYSTEM
  deriving DecidableEq, Repr

inductive InstrumentType
  | Unknown | Stock | Future | Bond | StockOption | TechStock | Fund | Index | Repo | Warrant
  | Iopt | Crypto
  deriving DecidableEq, Repr

inductive OrderStatus
  | Unknown | Submitted | Pending | Cancelled | Error | Filled | PartialFilledNotActive
  | PartialFilledActive | Lost
  deriving DecidableEq, Repr

inductive Side
  | Buy | Sell | Lock | Unlock | Exec | Drop | Purchase | Redemption | Split | Merge
  | MarginTrade | ShortSell | RepayMargin | RepayStock | CashRepayMargin | StockRepayStock
  | SurplusStockTransfer | GuaranteeStockTransferIn | GuaranteeStockTransferOut | Unknown
  deriving DecidableEq, Repr

/-- The value of a side as an integer. -/
def Side.toInt : Side → Int
  | Buy => 0
  | Sell => 1
  | Lock => 2
  | Unlock => 3
  | Exec => 4
  | Drop => 5
  | Purchase => 6
  | Redemption => 7
  | Split => 8
  | Merge => 9
  | MarginTrade => 10
  | ShortSell => 11
  | RepayMargin => 12
  | RepayStock => 13
  | CashRepayMargin => 14
  | StockRepayStock => 15
  | SurplusStockTransfer => 16
  | GuaranteeStockTransferIn => 17
  | GuaranteeStockTransferOut => 18
  | Unknown => 99

inductive PriceType
  | Limit | Any | FakBest5 | ForwardBest | ReverseBest | Fak | Fok | Unknown
  deriving DecidableEq, Repr

structure OrderInput (δ : Type) (K : Type := Rat) where
  orderId : UInt64
  parentId : UInt64
  instrumentId : String
  exchangeId : String
  instrumentType : InstrumentType
  limitPrice : K
  frozenPrice : K
  volume : Int64
  side : Side
  priceType : PriceType
  details : δ

structure Order (δ : Type) (K : Type := Rat) where
  orderId : UInt64
  externalOrderId : String
  parentId : UInt64
  instrumentId : String
  exchangeId : String
  instrumentType : InstrumentType
  limitPrice : K
  frozenPrice : K
  volume : Int64
  volumeLeft : Int64
  status : OrderStatus
  errorId : Int32
  errorMsg : String
  side : Side
  priceType : PriceType
  details : δ

structure Trade (δ : Type) where
  tradeId : UInt64
  orderId : UInt64
  externalOrderId : String
  externalTradeId : String
  instrumentId : String
  exchangeId : String
  instrumentType : InstrumentType
  side : Side
  volume : Int64
  details : δ

/-- What an order action asks for; the only action is to cancel. -/
structure OrderAction where
  orderId : UInt64
  orderActionId : UInt64

structure OrderActionError where
  orderId : UInt64
  externalOrderId : String
  orderActionId : UInt64
  errorId : Int32
  errorMsg : String

/-- What a broker publishes about executions. -/
inductive Record (δ : Type)
  | order (o : Order δ)
  | trade (t : Trade δ)

/-- An execution: a trade, or the end of an order. -/
inductive Execution
  | order (orderId : UInt64)
  | trade (tradeId : UInt64)
  deriving DecidableEq, Repr

/-- `is_final_status`. -/
def isFinalStatus : OrderStatus → Bool
  | .Submitted | .Pending | .PartialFilledActive | .Unknown => false
  | _ => true

/-- `order_from_input`, into an order whose other fields are zero. -/
def orderFromInput {δ K : Type} (input : OrderInput δ K) : Order δ K where
  orderId := input.orderId
  externalOrderId := ""
  parentId := input.parentId
  instrumentId := input.instrumentId
  exchangeId := input.exchangeId
  instrumentType := input.instrumentType
  limitPrice := input.limitPrice
  frozenPrice := input.frozenPrice
  volume := input.volume
  volumeLeft := input.volume
  status := .Pending
  errorId := 0
  errorMsg := ""
  side := input.side
  priceType := input.priceType
  details := input.details

namespace Record

variable {δ : Type}

def instrumentType : Record δ → InstrumentType
  | order o => o.instrumentType
  | trade t => t.instrumentType

theorem trade_ne_order (t : Trade δ) (o : Order δ) : trade t ≠ order o := nofun

def orderId : Record δ → UInt64
  | order o => o.orderId
  | trade t => t.orderId

/-- The execution that a record reports. -/
def execution : Record δ → Option Execution
  | order o => if isFinalStatus o.status then some (.order o.orderId) else none
  | trade t => some (.trade t.tradeId)

end Record

end Kungfu.Longfist
