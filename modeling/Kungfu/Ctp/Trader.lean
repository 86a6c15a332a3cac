import Kungfu.Longfist.Types
import Mathlib.Logic.Function.Basic

/-!
# The CTP trader

The callbacks of the CTP worker thread only queue tasks.  The event loop takes the queue
and performs the tasks one after another; an order input of a strategy is handled between
two rounds.  What is modelled is what decides which orders and trades are published, and
for whom: the maps between order ids and CTP order refs, and the writers.
-/

namespace Kungfu.Ctp

open Longfist

variable {δ : Type}

/-! ## CTP fields -/

/-- `CThostFtdcOrderField`. -/
structure OrderField (δ : Type) where
  frontId : Int32
  sessionId : Int32
  orderRef : String
  orderSysId : String
  instrumentId : String
  exchangeId : String
  orderStatus : Char
  statusMsg : String
  orderPriceType : Char
  limitPrice : Rat
  volumeTotalOriginal : Int64
  volumeTotal : Int64
  direction : Char
  details : δ

/-- `CThostFtdcTradeField`. -/
structure TradeField (δ : Type) where
  orderRef : String
  orderSysId : String
  tradeId : String
  instrumentId : String
  exchangeId : String
  direction : Char
  volume : Int64
  details : δ

/-- `CThostFtdcInputOrderField`. -/
structure InputOrderField (δ : Type) where
  orderRef : String
  instrumentId : String
  exchangeId : String
  orderPriceType : Char
  limitPrice : Rat
  volumeTotalOriginal : Int64
  direction : Char
  details : δ

/-- `CThostFtdcInputOrderActionField`. -/
structure InputOrderActionField where
  frontId : Int32
  sessionId : Int32
  orderRef : String
  orderActionRef : UInt64
  instrumentId : String
  exchangeId : String

/-- `CThostFtdcRspInfoField`. -/
structure RspInfoField where
  errorId : Int32
  errorMsg : String

/-! ## Conversions -/

/-- `stable_hash64`, FNV-1a. -/
def stableHash64 (value : String) : UInt64 :=
  value.toUTF8.toList.foldl (fun hash c => (hash ^^^ c.toUInt64) * 1099511628211)
    1469598103934665603

/-- `order_status_from_ctp`. -/
def orderStatusFromCtp : Char → OrderStatus
  | '0' => .Filled
  | '1' => .PartialFilledActive
  | '2' => .PartialFilledNotActive
  | '3' => .Submitted
  | '4' => .Cancelled
  | '5' => .Cancelled
  | 'a' => .Unknown
  | 'b' => .Pending
  | 'c' => .Pending
  | _ => .Unknown

/-- `side_from_ctp_direction`. -/
def sideFromCtpDirection : Char → Side
  | '0' => .Buy
  | '1' => .Sell
  | _ => .Unknown

/-- `ctp_direction_from_side`. -/
def ctpDirectionFromSide : Side → Option Char
  | .Buy => some '0'
  | .Sell => some '1'
  | _ => none

/-- The price type and the frozen price that follow from CTP's price type, `'2'` being a
limit price. -/
def priceTypeFromCtp (orderPriceType : Char) (limitPrice : Rat) : PriceType × Rat :=
  if orderPriceType = '2' then (.Limit, limitPrice) else (.Any, 0)

/-- What is known about instruments: `get_instrument_type` by exchange and instrument, and
`get_exchange_id_from_future_instrument_id`. -/
structure Markets where
  instrumentType : String → String → InstrumentType
  futureExchange : String → String

/-- `resolve_exchange_id`. -/
def Markets.resolveExchangeId (M : Markets) (exchangeId instrumentId : String) : String :=
  if exchangeId ≠ "" then exchangeId
  else
    let inferred := M.futureExchange instrumentId
    if inferred = "" then "FUTURE" else inferred

/-! ## The trader -/

/-- A callback waiting for the event loop. -/
inductive Task (δ : Type)
  | onFrontDisconnected
  | onLoginSuccess (frontId sessionId : Int32)
  | onLoginFailed
  | onSettlementConfirmed
  | onRtnOrder (order : OrderField δ)
  | onRtnTrade (trade : TradeField δ)
  | onQryOrder (order : OrderField δ) (isLast : Bool)
  | onQryTrade (trade : TradeField δ) (isLast : Bool)
  | onOrderInsertRejected (input : InputOrderField δ) (error : RspInfoField)

structure OrderRefInfo where
  orderRef : String
  instrumentId : String
  exchangeId : String
  source : UInt32

/-- The state of `TraderCtp`.  Writers are opened on request and never given up; the one to
PUBLIC is there before the trader starts. -/
structure Trader (δ : Type) where
  api : Bool
  loggedIn : Bool
  ready : Bool
  frontId : Int32
  sessionId : Int32
  orderRefCounter : UInt64
  orderIdToRefInfo : UInt64 → Option OrderRefInfo
  refToOrderId : String → Option UInt64
  queryInFlight : Bool
  tasks : List (Task δ)
  /-- What a round of `drain_tasks` has still to perform. -/
  pending : List (Task δ)
  writers : List UInt32
  hasPublic : PUBLIC ∈ writers

/-- What is published: a record, for the strategy the order came from. -/
structure Publication (δ : Type) where
  record : Record δ
  source : UInt32

namespace Trader

/-- `enqueue`. -/
def enqueue (task : Task δ) (t : Trader δ) : Trader δ := { t with tasks := t.tasks ++ [task] }

/-- `drain_tasks` takes the queue. -/
def drainTasks (t : Trader δ) : Trader δ :=
  match t.pending with
  | [] => { t with tasks := [], pending := t.tasks }
  | _ :: _ => t

/-- `on_write_to`. -/
def onWriteTo (dest : UInt32) (t : Trader δ) : Trader δ :=
  if dest ∈ t.writers then t
  else { t with writers := dest :: t.writers, hasPublic := List.mem_cons_of_mem dest t.hasPublic }

def isReadyForRequests (t : Trader δ) : Bool := t.api && t.loggedIn && t.ready

/-- `resolve_order_id`. -/
def resolveOrderId (t : Trader δ) (frontId sessionId : Int32)
    (exchangeId orderSysId orderRef : String) : UInt64 :=
  let mapped :=
    if frontId = t.frontId ∧ sessionId = t.sessionId ∧ orderRef ≠ "" then t.refToOrderId orderRef
    else none
  match mapped with
  | some orderId => orderId
  | none =>
      if orderSysId ≠ "" ∧ orderSysId ≠ "0" then stableHash64 s!"syssid|{exchangeId}|{orderSysId}"
      else stableHash64 s!"ref|{frontId}|{sessionId}|{orderRef}"

/-- `resolve_order_source`. -/
def resolveOrderSource (t : Trader δ) (orderId : UInt64) : UInt32 :=
  match t.orderIdToRefInfo orderId with
  | some info => if info.source ≠ 0 then info.source else PUBLIC
  | none => PUBLIC

/-- `order_from_ctp`. -/
def orderFromCtp (M : Markets) (t : Trader δ) (order : OrderField δ) : Order δ :=
  let exchangeId := M.resolveExchangeId order.exchangeId order.instrumentId
  let status := orderStatusFromCtp order.orderStatus
  let (priceType, frozenPrice) := priceTypeFromCtp order.orderPriceType order.limitPrice
  { orderId := t.resolveOrderId order.frontId order.sessionId exchangeId order.orderSysId
      order.orderRef
    externalOrderId := order.orderRef
    parentId := 0
    instrumentId := order.instrumentId
    exchangeId := exchangeId
    instrumentType := M.instrumentType exchangeId order.instrumentId
    limitPrice := order.limitPrice
    frozenPrice := frozenPrice
    volume := order.volumeTotalOriginal
    volumeLeft := order.volumeTotal
    status := status
    errorId := if status = .Error then -1 else 0
    errorMsg := if status = .Error then order.statusMsg else ""
    side := sideFromCtpDirection order.direction
    priceType := priceType
    details := order.details }

/-- `trade_from_ctp`. -/
def tradeFromCtp (M : Markets) (t : Trader δ) (trade : TradeField δ) : Trade δ :=
  let exchangeId := M.resolveExchangeId trade.exchangeId trade.instrumentId
  let orderId :=
    match t.refToOrderId trade.orderRef with
    | some orderId => orderId
    | none =>
        if trade.orderSysId ≠ "" ∧ trade.orderSysId ≠ "0" then
          stableHash64 s!"syssid|{exchangeId}|{trade.orderSysId}"
        else stableHash64 s!"trade|{exchangeId}|{trade.tradeId}"
  { tradeId := stableHash64 s!"trade|{exchangeId}|{trade.tradeId}"
    orderId := orderId
    externalOrderId := trade.orderRef
    externalTradeId := trade.tradeId
    instrumentId := trade.instrumentId
    exchangeId := exchangeId
    instrumentType := M.instrumentType exchangeId trade.instrumentId
    side := sideFromCtpDirection trade.direction
    volume := trade.volume
    details := trade.details }

/-- `erase_order_mapping`. -/
def eraseOrderMapping (orderId : UInt64) (t : Trader δ) : Trader δ :=
  match t.orderIdToRefInfo orderId with
  | some info =>
      { t with
        refToOrderId := Function.update t.refToOrderId info.orderRef none
        orderIdToRefInfo := Function.update t.orderIdToRefInfo orderId none }
  | none => t

/-- `finish_in_flight_query`. -/
def finishInFlightQuery (t : Trader δ) : Trader δ := { t with queryInFlight := false }

/-- The channels `write_order` and `write_trade` write to, in their order. -/
def targets (t : Trader δ) (source : UInt32) : List UInt32 :=
  (if source ≠ PUBLIC ∧ source ∈ t.writers then [source] else []) ++ [PUBLIC]

/-- The order that reports a rejected insertion. -/
def rejectedOrder (M : Markets) (orderId : UInt64) (input : InputOrderField δ)
    (error : RspInfoField) : Order δ :=
  let (priceType, frozenPrice) := priceTypeFromCtp input.orderPriceType input.limitPrice
  { orderId := orderId
    externalOrderId := input.orderRef
    parentId := 0
    instrumentId := input.instrumentId
    exchangeId := input.exchangeId
    instrumentType := M.instrumentType input.exchangeId input.instrumentId
    limitPrice := input.limitPrice
    frozenPrice := frozenPrice
    volume := input.volumeTotalOriginal
    volumeLeft := 0
    status := .Error
    errorId := error.errorId
    errorMsg := error.errorMsg
    side := sideFromCtpDirection input.direction
    priceType := priceType
    details := input.details }

/-- `write_error_order`. -/
def writeErrorOrder (input : OrderInput δ) (source : UInt32) (errorId : Int32)
    (errorMsg : String) : Publication δ :=
  let order := { orderFromInput input with status := .Error, errorId := errorId, errorMsg := errorMsg }
  ⟨.order order, source⟩

/-- `insert_order`; `ret` is what `ReqOrderInsert` returns. -/
def insertOrder (input : OrderInput δ) (source : UInt32) (ret : Int32) (t : Trader δ) :
    Trader δ × Option (Publication δ) :=
  if ¬ t.isReadyForRequests then (t, some (writeErrorOrder input source (-1) "CTP TD not ready"))
  else if ctpDirectionFromSide input.side = none then
    (t, some (writeErrorOrder input source (-1) s!"unsupported side {input.side.toInt} for CTP"))
  else if input.volume ≤ 0 then
    (t, some (writeErrorOrder input source (-1) "order volume must be positive"))
  else if input.priceType = .Limit ∧ input.limitPrice ≤ 0 then
    (t, some (writeErrorOrder input source (-1) "limit order price must be positive"))
  else
    let orderRef := t.orderRefCounter + 1
    let t := { t with orderRefCounter := orderRef }
    if ret ≠ 0 then
      (t, some (writeErrorOrder input source ret s!"ReqOrderInsert failed, ret {ret}"))
    else
      let info : OrderRefInfo := ⟨toString orderRef, input.instrumentId, input.exchangeId, source⟩
      ({ t with
          orderIdToRefInfo := Function.update t.orderIdToRefInfo input.orderId (some info)
          refToOrderId := Function.update t.refToOrderId (toString orderRef) (some input.orderId) },
        none)

/-- `cancel_order`; `ret` is what `ReqOrderAction` returns.  The request is the one that CTP is
called with, the error the one that is published. -/
def cancelOrder (action : OrderAction) (ret : Int32) (t : Trader δ) :
    Trader δ × Option InputOrderActionField × Option OrderActionError :=
  match t.orderIdToRefInfo action.orderId with
  | none =>
      (t, none, some ⟨action.orderId, "", action.orderActionId, -1,
        "order not found or already finished"⟩)
  | some info =>
      if ¬ t.isReadyForRequests then
        (t, none, some ⟨action.orderId, info.orderRef, action.orderActionId, -1, "CTP TD not ready"⟩)
      else
        let actionRef := t.orderRefCounter + 1
        let request : InputOrderActionField :=
          ⟨t.frontId, t.sessionId, info.orderRef, actionRef, info.instrumentId, info.exchangeId⟩
        let error : OrderActionError :=
          ⟨action.orderId, info.orderRef, action.orderActionId, ret, s!"ReqOrderAction failed, ret {ret}"⟩
        ({ t with orderRefCounter := actionRef }, some request, if ret ≠ 0 then some error else none)

end Trader

/-- What a queued callback does on the event loop. -/
def Task.perform (M : Markets) (t : Trader δ) : Task δ → Trader δ × Option (Publication δ)
  | onFrontDisconnected => ({ t with loggedIn := false, ready := false }, none)
  | onLoginSuccess frontId sessionId =>
      ({ t with frontId := frontId, sessionId := sessionId, loggedIn := true }, none)
  | onLoginFailed => ({ t with loggedIn := false, ready := false }, none)
  | onSettlementConfirmed => ({ t with ready := true }, none)
  | onRtnOrder order =>
      let kfOrder := t.orderFromCtp M order
      let source := t.resolveOrderSource kfOrder.orderId
      let t := if isFinalStatus kfOrder.status then t.eraseOrderMapping kfOrder.orderId else t
      (t, some ⟨.order kfOrder, source⟩)
  | onRtnTrade trade =>
      let kfTrade := t.tradeFromCtp M trade
      (t, some ⟨.trade kfTrade, t.resolveOrderSource kfTrade.orderId⟩)
  | onQryOrder order isLast =>
      let kfOrder := t.orderFromCtp M order
      let source := t.resolveOrderSource kfOrder.orderId
      (if isLast then t.finishInFlightQuery else t, some ⟨.order kfOrder, source⟩)
  | onQryTrade trade isLast =>
      let kfTrade := t.tradeFromCtp M trade
      let source := t.resolveOrderSource kfTrade.orderId
      (if isLast then t.finishInFlightQuery else t, some ⟨.trade kfTrade, source⟩)
  | onOrderInsertRejected input error =>
      match t.refToOrderId input.orderRef with
      | none => (t, none)
      | some orderId =>
          (t.eraseOrderMapping orderId,
            some ⟨.order (Trader.rejectedOrder M orderId input error), t.resolveOrderSource orderId⟩)

/-- The event loop performs the next task of its round. -/
def Trader.nextTask (M : Markets) (t : Trader δ) : Trader δ × Option (Publication δ) :=
  match t.pending with
  | [] => (t, none)
  | task :: pending => task.perform M { t with pending := pending }

/-- An order input is handled between two rounds. -/
def Trader.onOrderInput (input : OrderInput δ) (source : UInt32) (ret : Int32) (t : Trader δ) :
    Trader δ × Option (Publication δ) :=
  match t.pending with
  | [] => t.insertOrder input source ret
  | _ :: _ => (t, none)

end Kungfu.Ctp
