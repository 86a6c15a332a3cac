import Kungfu.Broker.Trader
import Kungfu.Ctp.Trader

/-!
# The traders of the repository

The simulated trader matches orders by itself, and overrides what is done at the end of a batch.
The CTP trader sends orders to CTP, and does not.
-/

namespace Kungfu.Broker

open Longfist Wingchun

/-- How orders are matched. -/
inductive MatchMode
  | Reject | Pend | Cancel | PartialFillAndCancel | PartialFill | Fill | Multiple
  deriving DecidableEq, Repr

/-- What is kept by `TraderSim`.  Its `orders_` are not those of the base class. -/
structure TraderSim where
  matchMode : MatchMode
  orders : UInt64 → Option Order
  blockIds : List UInt64
  /-- What is written, by destination. -/
  written : List (UInt32 × Record Details)

namespace TraderSim

/-- `get_min_volume`. -/
def getMinVolume (instrumentType : InstrumentType) : ℤ :=
  if instrumentType = .Stock then 100 else 1

/-- The status of an order and the volume that is traded at once. -/
def matchOrder (mode : MatchMode) (minVolume volume : ℤ) : OrderStatus × ℤ :=
  match mode with
  | .Reject => (.Error, 0)
  | .Pend => (.Pending, 0)
  | .Cancel => (.Cancelled, 0)
  | .PartialFillAndCancel =>
      (if minVolume = volume then .Filled else .PartialFilledNotActive, minVolume)
  | .PartialFill => (if minVolume = volume then .Filled else .PartialFilledActive, minVolume)
  | .Fill => (.Filled, volume)
  | .Multiple => (.Filled, volume)

/-- The volumes of the trades of an order that is filled bit by bit. -/
def slices (minVolume volume : ℕ) : List ℕ :=
  List.replicate (volume / minVolume) minVolume ++
    if volume % minVolume = 0 then [] else [volume % minVolume]

def tradeVolumes (mode : MatchMode) (minVolume traded : ℤ) : List ℤ :=
  if traded ≤ 0 then []
  else if mode = .Multiple then (slices minVolume.toNat traded.toNat).map Int.ofNat
  else [traded]

/-- A trade of an order.  Its id is the uid of the frame that is written next. -/
def tradeOf (tradeId : UInt64) (order : Order) (volume : ℤ) : Trade Details where
  tradeId := tradeId
  orderId := order.orderId
  externalOrderId := order.externalOrderId
  externalTradeId := toString tradeId
  instrumentId := order.instrumentId
  exchangeId := order.exchangeId
  instrumentType := order.instrumentType
  side := order.side
  volume := Int64.ofInt volume
  details := {
    offset := order.details.offset
    hedgeFlag := .Speculation
    price := order.limitPrice
    tax := 0
    commission := 0 }

def write (source : UInt32) (record : Record Details) (s : TraderSim) : TraderSim :=
  { s with written := s.written ++ [(source, record)] }

/-- An order that is not accepted. -/
def reject (source : UInt32) (order : Order) (errorMsg : String) (s : TraderSim) : TraderSim :=
  s.write source (.order { order with status := .Error, errorMsg := errorMsg })

/-- An order is written and kept, and its trades are written. -/
def accept (frameUid : ℕ → UInt64) (source : UInt32) (order : Order) (volumes : List ℤ)
    (s : TraderSim) : TraderSim :=
  let s := s.write source (.order order)
  let s := { s with orders := Function.update s.orders order.orderId (some order) }
  volumes.foldl
    (fun s volume => s.write source (.trade (tradeOf (frameUid s.written.length) order volume))) s

/-- `insert_order_`, where `frameUid` is the uid of a frame, by how many were written before.  A
writer to the strategy must be there; the type of an instrument may be unknown. -/
def insertOrder (frameUid : ℕ → UInt64) (blockId : OrderInput → UInt64) (hasWriter : UInt32 → Bool)
    (source : UInt32) (input : OrderInput) (s : TraderSim) : Except Fault TraderSim :=
  if !hasWriter source then .error .outOfRange
  else do
    let instrumentType ← getInstrumentType input.exchangeId input.instrumentId
    let order : Order := { orderFromInput input with
      externalOrderId := toString input.orderId
      instrumentType := instrumentType }
    let minVolume := getMinVolume instrumentType
    let (status, traded) := matchOrder s.matchMode minVolume input.volume.toInt
    let matched : Order := { order with
      status := status
      errorMsg := if s.matchMode = .Reject then "rejected by sim" else ""
      volumeLeft := Int64.ofInt (input.volume.toInt - traded) }
    return if instrumentType = .Repo ∧ order.side = .Buy then
        s.reject source order "repo can not buy"
      else if input.volume.toInt < minVolume then
        s.reject source order "volume less than minimum"
      else if blockId input ≠ 0 ∧ blockId input ∉ s.blockIds then
        s.reject source matched "No Block Message"
      else s.accept frameUid source matched (tradeVolumes s.matchMode minVolume traded)

/-- `cancel_order`. -/
def cancelOrder (hasWriter : UInt32 → Bool) (source : UInt32) (orderId : UInt64) (s : TraderSim) :
    Except Fault TraderSim :=
  if !hasWriter source then .error .outOfRange
  else
    match s.orders orderId with
    | none => .ok s
    | some order =>
        let s := { s with orders := Function.update s.orders orderId none }
        if order.volumeLeft = 0 then .ok s
        else .ok (s.write source (.order { order with
          status := if order.volume - order.volumeLeft = 0 then .Cancelled
            else .PartialFilledNotActive }))

/-- The loop of `TraderSim::insert_batch_orders`. -/
def insertAll (S : Service TraderSim) (source : UInt32) :
    List OrderInput → Trader TraderSim → Handled TraderSim
  | [], t => ⟨none, [], .ok t⟩
  | input :: inputs, t =>
      match (t.insert S source input).outcome with
      | .error fault => ⟨none, [input], .error fault⟩
      | .ok t =>
          let r := insertAll S source inputs t
          ⟨none, input :: r.inserted, r.outcome⟩

/-- `TraderSim::insert_batch_orders`. -/
def insertBatchOrders (S : Service TraderSim) (source : UInt32) (t : Trader TraderSim) :
    Handled TraderSim :=
  match t.orderInputs source with
  | none => ⟨none, [], .ok t⟩
  | some inputs =>
      let r := insertAll S source inputs t
      { r with outcome := r.outcome.map (Trader.clearOrderInputs source) }

variable (frameUid : ℕ → UInt64) (blockId : OrderInput → UInt64)

/-- Order insertion alone. -/
def insertion : Service TraderSim where
  insertOrder := insertOrder frameUid blockId
  insertBatchOrders := Trader.insertBatchOrders

/-- The simulated trader. -/
def service : Service TraderSim where
  insertOrder := insertOrder frameUid blockId
  insertBatchOrders := insertBatchOrders (insertion frameUid blockId)

end TraderSim

/-- The CTP trader; `ret` is what `ReqOrderInsert` returns for an order. -/
def ctpService (ret : OrderInput → Int32) : Service (Ctp.Trader Details) where
  insertOrder := fun _ source input t => .ok (t.insertOrder input source (ret input)).1
  insertBatchOrders := Trader.insertBatchOrders

end Kungfu.Broker
