import Kungfu.Longfist.Account
import Kungfu.Wingchun.Instrument
import Kungfu.Logic.Outcome
import Mathlib.Data.List.AList

/-!
# Traders

What all traders have in common: an order input is refused if it may deal with an order of the
same account, it waits while the strategy it comes from is in a batch, and it is handed to order
insertion otherwise.  How an order is inserted, and what is done at the end of a batch, is up to
the broker.
-/

namespace Kungfu.Broker

open Longfist

/-- The fields of orders that traders read. -/
abbrev OrderInput := Longfist.OrderInput Details

abbrev Order := Longfist.Order Details

/-- `state<Order>`, as `orders_` keeps it. -/
structure OrderState where
  source : UInt32
  dest : UInt32
  updateTime : Int64
  data : Order

/-- What is kept by the base class, and by the class of the broker. -/
structure Trader (σ : Type) where
  orders : AList fun _ : UInt64 => OrderState
  selfDealDetect : Bool
  disableRecover : Bool
  orderInputs : UInt32 → Option (List OrderInput)
  batchStatus : UInt32 → Option Bool
  mapExInstrumentToOrderIds : String → List UInt64
  hasWriter : UInt32 → Bool
  own : σ

inductive Message
  | batchOrderBegin (source : UInt32)
  | orderInput (source : UInt32) (input : OrderInput)
  | batchOrderEnd (source : UInt32)

def Message.source : Message → UInt32
  | batchOrderBegin source => source
  | orderInput source _ => source
  | batchOrderEnd source => source

/-- What became of a message: the order that reports a refusal, the order inputs that were handed
to order insertion, and the trader unless something was thrown. -/
structure Handled (σ : Type) where
  refused : Option Order
  inserted : List OrderInput
  outcome : Except Wingchun.Fault (Trader σ)

/-- What a broker overrides. -/
structure Service (σ : Type) where
  /-- `insert_order`, which may throw. -/
  insertOrder : (UInt32 → Bool) → UInt32 → OrderInput → σ → Except Wingchun.Fault σ
  /-- `insert_batch_orders`. -/
  insertBatchOrders : UInt32 → Trader σ → Handled σ

namespace Trader

variable {σ : Type}

/-- A trader that has recovered its orders. -/
def start (orders : AList fun _ : UInt64 => OrderState) (selfDealDetect : Bool)
    (mapExInstrumentToOrderIds : String → List UInt64) (hasWriter : UInt32 → Bool) (own : σ) :
    Trader σ where
  orders := orders
  selfDealDetect := selfDealDetect
  disableRecover := false
  orderInputs := fun _ => none
  batchStatus := fun _ => none
  mapExInstrumentToOrderIds := mapExInstrumentToOrderIds
  hasWriter := hasWriter
  own := own

/-! ## Self-deals -/

/-- Whether an order that is there may be dealt with by an order input. -/
def conflicts (t : Trader σ) (input : OrderInput) (orderId : UInt64) : Bool :=
  match t.orders.lookup orderId with
  | none => false
  | some order =>
      if order.data.side = input.side ∨ isFinalStatus order.data.status then false
      else if input.priceType ≠ .Limit then true
      else if input.side = .Buy ∧ input.limitPrice < order.data.limitPrice then false
      else if input.side = .Sell ∧ input.limitPrice > order.data.limitPrice then false
      else true

/-- `str_ex_instrument`. -/
def exInstrument (input : OrderInput) : String := input.exchangeId ++ input.instrumentId

/-- `has_self_deal_risk`, as a test. -/
def hasSelfDealRisk (t : Trader σ) (input : OrderInput) : Bool :=
  t.selfDealDetect && (t.mapExInstrumentToOrderIds (exInstrument input)).any (t.conflicts input)

/-- What `has_self_deal_risk` records of an order input without risk. -/
def recordInput (input : OrderInput) (t : Trader σ) : Trader σ :=
  if t.selfDealDetect then
    let orderIds := t.mapExInstrumentToOrderIds (exInstrument input)
    { t with
      mapExInstrumentToOrderIds :=
        Function.update t.mapExInstrumentToOrderIds (exInstrument input) (input.orderId :: orderIds) }
  else t

section

variable (input : OrderInput) (t : Trader σ)

@[simp] theorem hasWriter_recordInput : (t.recordInput input).hasWriter = t.hasWriter := by
  unfold recordInput
  split <;> rfl

@[simp] theorem batchStatus_recordInput : (t.recordInput input).batchStatus = t.batchStatus := by
  unfold recordInput
  split <;> rfl

@[simp] theorem orderInputs_recordInput : (t.recordInput input).orderInputs = t.orderInputs := by
  unfold recordInput
  split <;> rfl

end

/-- The order that reports the refusal. -/
def selfDealOrder (input : OrderInput) : Order :=
  { orderFromInput input with
    status := .Error
    errorMsg := "该委托存在自成交风险,已拒绝下单" }

/-! ## Handlers -/

/-- An order input is handed to order insertion. -/
def insert (S : Service σ) (source : UInt32) (input : OrderInput) (t : Trader σ) : Handled σ where
  refused := none
  inserted := [input]
  outcome := do
    let own ← S.insertOrder t.hasWriter source input t.own
    return { t with own := own }

/-- `batch_status_.insert_or_assign`. -/
def setBatchStatus (source : UInt32) (status : Bool) (t : Trader σ) : Trader σ :=
  { t with batchStatus := Function.update t.batchStatus source (some status) }

/-- `clear_order_inputs`. -/
def clearOrderInputs (source : UInt32) (t : Trader σ) : Trader σ :=
  { t with orderInputs := Function.update t.orderInputs source none }

/-- `Trader::insert_batch_orders`, which a broker may override. -/
def insertBatchOrders (_ : UInt32) (t : Trader σ) : Handled σ := ⟨none, [], .ok t⟩

/-- `handle_order_input`. -/
def handleOrderInput (S : Service σ) (source : UInt32) (input : OrderInput) (t : Trader σ) :
    Handled σ :=
  if t.hasSelfDealRisk input then
    ⟨some (selfDealOrder input), [], if t.hasWriter source then .ok t else .error .outOfRange⟩
  else
    let t := t.recordInput input
    let status := (t.batchStatus source).getD false
    let t := t.setBatchStatus source status
    if status then
      let inputs := (t.orderInputs source).getD []
      ⟨none, [], .ok { t with
        orderInputs := Function.update t.orderInputs source (some (inputs ++ [input])) }⟩
    else t.insert S source input

section

variable {S : Service σ} {source : UInt32} {input : OrderInput} {status : Bool} {t t' : Trader σ}

@[simp] theorem batchStatus_setBatchStatus : (t.setBatchStatus source status).batchStatus =
    Function.update t.batchStatus source (some status) := rfl

@[simp] theorem orderInputs_setBatchStatus :
    (t.setBatchStatus source status).orderInputs = t.orderInputs := rfl

@[simp] theorem hasWriter_setBatchStatus :
    (t.setBatchStatus source status).hasWriter = t.hasWriter := rfl

@[simp] theorem orderInputs_clearOrderInputs :
    (t.clearOrderInputs source).orderInputs = Function.update t.orderInputs source none := rfl

@[simp] theorem batchStatus_clearOrderInputs :
    (t.clearOrderInputs source).batchStatus = t.batchStatus := rfl

@[simp] theorem hasWriter_clearOrderInputs :
    (t.clearOrderInputs source).hasWriter = t.hasWriter := rfl

/-- Order insertion changes only what the broker keeps. -/
theorem exists_of_insert (h : (t.insert S source input).outcome = .ok t') :
    ∃ own, t' = { t with own := own } := by
  obtain ⟨own, -, hret⟩ := Outcome.exists_of_bind h
  cases hret
  exact ⟨own, rfl⟩

theorem handleOrderInput_of_risk (hrisk : t.hasSelfDealRisk input = true) :
    t.handleOrderInput S source input =
      ⟨some (selfDealOrder input), [], if t.hasWriter source then .ok t else .error .outOfRange⟩ :=
  if_pos hrisk

/-- In a batch an order input waits. -/
theorem handleOrderInput_of_open (hrisk : ¬ t.hasSelfDealRisk input = true)
    (hstatus : (t.batchStatus source).getD false = true) :
    t.handleOrderInput S source input = ⟨none, [], .ok { t.recordInput input with
      batchStatus := Function.update t.batchStatus source (some true)
      orderInputs := Function.update t.orderInputs source
        (some ((t.orderInputs source).getD [] ++ [input])) }⟩ := by
  simp [handleOrderInput, setBatchStatus, hrisk, hstatus]

/-- Outside a batch it is inserted at once. -/
theorem handleOrderInput_of_closed (hrisk : ¬ t.hasSelfDealRisk input = true)
    (hstatus : (t.batchStatus source).getD false = false) :
    t.handleOrderInput S source input =
      insert S source input ((t.recordInput input).setBatchStatus source false) := by
  simp [handleOrderInput, hrisk, hstatus]

end

/-- `handle_batch_order_tag` for `BatchOrderBegin`. -/
def batchOrderBegin (source : UInt32) (t : Trader σ) : Handled σ :=
  ⟨none, [], .ok (t.setBatchStatus source true)⟩

/-- `handle_batch_order_tag` for `BatchOrderEnd`. -/
def batchOrderEnd (S : Service σ) (source : UInt32) (t : Trader σ) : Handled σ :=
  let r := S.insertBatchOrders source (t.setBatchStatus source false)
  { r with outcome := r.outcome.map (clearOrderInputs source) }

def handle (S : Service σ) (t : Trader σ) : Message → Handled σ
  | .batchOrderBegin source => t.batchOrderBegin source
  | .orderInput source input => t.handleOrderInput S source input
  | .batchOrderEnd source => t.batchOrderEnd S source

end Trader

/-- A message that was handled. -/
structure Entry where
  message : Message
  refused : Bool
  inserted : List OrderInput

/-- One message after another, until something is thrown, which stops the trader. -/
def Trader.run {σ : Type} (S : Service σ) : Trader σ → List Message → List Entry
  | _, [] => []
  | t, message :: messages =>
      let r := t.handle S message
      ⟨message, r.refused.isSome, r.inserted⟩ :: match r.outcome with
        | .ok t => t.run S messages
        | .error _ => []

/-- An order to buy two lots of rb2410. -/
def exampleInput : OrderInput where
  orderId := 1
  parentId := 0
  instrumentId := "rb2410"
  exchangeId := "SHFE"
  instrumentType := .Future
  limitPrice := 3500
  frozenPrice := 3500
  volume := 2
  side := .Buy
  priceType := .Limit
  details := ⟨.Open, .Speculation, 0, 0, 0⟩

end Kungfu.Broker
