import Kungfu.Ctp.Recover

/-!
# A day of the CTP trader

Over a day the trader logs in to CTP many times and its process is restarted.  CTP names an
order by the session it was inserted under and its order ref, and so do its reports about
orders.  Reports about trades and about rejected insertions do not carry the session; whose
order they are about is up to the exchange.
-/

namespace Kungfu.Ctp

open Longfist

variable {δ : Type}

/-- What identifies an order with CTP. -/
structure OrderKey where
  frontId : Int32
  sessionId : Int32
  orderRef : String
  deriving DecidableEq

def OrderField.key (order : OrderField δ) : OrderKey :=
  ⟨order.frontId, order.sessionId, order.orderRef⟩

def InputOrderActionField.key (request : InputOrderActionField) : OrderKey :=
  ⟨request.frontId, request.sessionId, request.orderRef⟩

/-- The orders that CTP reports trades of, or rejects. -/
structure Exchange (δ : Type) where
  tradeKey : TradeField δ → OrderKey
  inputKey : InputOrderField δ → OrderKey
  tradeKey_orderRef : ∀ trade, (tradeKey trade).orderRef = trade.orderRef
  inputKey_orderRef : ∀ input, (inputKey input).orderRef = input.orderRef

/-- The order that a callback is about. -/
def Task.subject (E : Exchange δ) : Task δ → Option OrderKey
  | onRtnOrder order => some order.key
  | onQryOrder order _ => some order.key
  | onRtnTrade trade => some (E.tradeKey trade)
  | onQryTrade trade _ => some (E.tradeKey trade)
  | onOrderInsertRejected input _ => some (E.inputKey input)
  | onFrontDisconnected | onLoginSuccess _ _ | onLoginFailed | onSettlementConfirmed => none

/-- A callback after which the trader gives up the mapping of the order. -/
def Task.ends : Task δ → Bool
  | onRtnOrder order => isFinalStatus (orderStatusFromCtp order.orderStatus)
  | onOrderInsertRejected _ _ => true
  | _ => false

/-- An order that CTP accepted for insertion. -/
structure Placement extends Owner where
  key : OrderKey
  deriving DecidableEq

/-- The entries of an order in the trader's maps. -/
structure Trader.Maps (t : Trader δ) (p : Placement) : Prop where
  ref : t.refToOrderId p.key.orderRef = some p.orderId
  info : ∃ info, t.orderIdToRefInfo p.orderId = some info ∧ info.orderRef = p.key.orderRef ∧
    info.source = p.source

instance (t : Trader δ) (p : Placement) : Decidable (t.Maps p) :=
  have : Decidable (∃ info ∈ t.orderIdToRefInfo p.orderId, info.orderRef = p.key.orderRef ∧
      info.source = p.source) :=
    Option.decidableExistsMem (p := fun info : OrderRefInfo =>
      info.orderRef = p.key.orderRef ∧ info.source = p.source) _
  decidable_of_iff (t.refToOrderId p.key.orderRef = some p.orderId ∧ _)
    ⟨fun h => ⟨h.1, h.2⟩, fun h => ⟨h.ref, h.info⟩⟩

/-- The trader's process, the session that CTP has it logged in under, and the day so far.
`placed` has every order that was inserted, the latest first.  `live` has those whose end
the trader has not heard of; an order of an earlier process is among them if it was restored
and no later order has its order ref.  `inputs` are the order inputs in the channels to the
account. -/
structure Day (δ : Type) where
  trader : Trader δ
  frontId : Int32
  sessionId : Int32
  placed : List Placement
  live : List Placement
  inputs : List (OrderInput δ × UInt32)
  published : List (Published δ)

inductive Step (δ : Type)
  /-- The CTP worker thread delivers a callback. -/
  | callback (task : Task δ)
  /-- The trader's timer starts a round of tasks. -/
  | drainTasks
  /-- The trader performs the next task. -/
  | task
  /-- The trader handles an order input; `ret` is CTP's answer. -/
  | orderInput (input : OrderInput δ) (source : UInt32) (ret : Int32)
  /-- An order input arrives that no process handles. -/
  | missInput (input : OrderInput δ) (source : UInt32)
  /-- The trader handles an order action; `ret` is CTP's answer. -/
  | orderAction (action : OrderAction) (ret : Int32)
  /-- The master has the trader open a writer. -/
  | writeTo (dest : UInt32)
  /-- The process ends and a new one starts, which recovers with `writers` open. -/
  | restart (schedule : List UInt32) (visited : List UInt64) (writers : List UInt32)

namespace Day

/-- The day begins with a process that has nothing to recover. -/
def start (writers : List UInt32) : Day δ := ⟨Trader.start writers, 0, 0, [], [], [], []⟩

/-- The order of the trader's that CTP has under a key. -/
def placement (day : Day δ) (key : OrderKey) : Option Placement := day.placed.find? (·.key = key)

/-- `write_order` and `write_trade`. -/
def publish (subject : Option Owner) (p : Option (Publication δ)) (day : Day δ) : Day δ :=
  match p with
  | none => day
  | some p =>
      { day with published := day.published ++ [⟨p.record, subject, day.trader.targets p.source⟩] }

section Publish

variable (subject : Option Owner) (p : Option (Publication δ)) (day : Day δ)

@[simp] theorem trader_publish : (day.publish subject p).trader = day.trader := by cases p <;> rfl

@[simp] theorem placed_publish : (day.publish subject p).placed = day.placed := by cases p <;> rfl

@[simp] theorem live_publish : (day.publish subject p).live = day.live := by cases p <;> rfl

theorem mem_published_publish {e : Published δ} : e ∈ (day.publish subject p).published ↔
    e ∈ day.published ∨ ∃ q ∈ p, e = ⟨q.record, subject, day.trader.targets q.source⟩ := by
  cases p <;> simp [publish]

end Publish

/-- A login is known to CTP at once, and to the trader when it performs the task. -/
def callback (task : Task δ) (day : Day δ) : Day δ :=
  let day := match task with
    | .onLoginSuccess frontId sessionId => { day with frontId := frontId, sessionId := sessionId }
    | _ => day
  { day with trader := day.trader.enqueue task }

/-- The trader performs a task. -/
def perform (M : Markets) (E : Exchange δ) (task : Task δ) (day : Day δ) : Day δ :=
  let outcome := task.perform M day.trader
  let subject := (task.subject E).bind day.placement
  let day := day.publish (subject.map (·.toOwner)) outcome.2
  let live := if task.ends then day.live.filter fun p => some p.key ≠ task.subject E else day.live
  { day with trader := outcome.1, live := live }

/-- The trader performs the task that is next in its round. -/
def nextTask (M : Markets) (E : Exchange δ) (day : Day δ) : Day δ :=
  match day.trader.pending with
  | [] => day
  | task :: pending => { day with trader := { day.trader with pending := pending } }.perform M E task

/-- An order input is handled between two rounds.  If nothing is published about it, the
order was inserted. -/
def orderInput (input : OrderInput δ) (source : UInt32) (ret : Int32) (day : Day δ) : Day δ :=
  match day.trader.pending with
  | _ :: _ => day
  | [] =>
      let outcome := day.trader.insertOrder input source ret
      let owner := Owner.ofInput input source
      let day := { day with inputs := day.inputs ++ [(input, source)] }
      match outcome.2 with
      | some p => { day.publish (some owner) (some p) with trader := outcome.1 }
      | none =>
          let placement : Placement :=
            ⟨owner, ⟨day.frontId, day.sessionId, toString outcome.1.orderRefCounter⟩⟩
          { day with
            trader := outcome.1
            placed := placement :: day.placed
            live := placement ::
              day.live.filter fun p => p.key.orderRef ≠ placement.key.orderRef }

/-- A new process recovers from the day's frames and order inputs. -/
def restart (schedule : List UInt32) (visited : List UInt64) (writers : List UInt32)
    (day : Day δ) : Day δ :=
  let read := readBy schedule (frames day.published)
  let trader := (Trader.start writers).onRecover visited read
  { day with
    trader := trader
    live := day.live.filter fun p => trader.Maps p
    published := day.published ++ recover visited (PUBLIC :: writers) day.inputs read }

def step (M : Markets) (E : Exchange δ) (day : Day δ) : Step δ → Day δ
  | .callback task => day.callback task
  | .drainTasks => { day with trader := day.trader.drainTasks }
  | .task => day.nextTask M E
  | .orderInput input source ret => day.orderInput input source ret
  | .missInput input source => { day with inputs := day.inputs ++ [(input, source)] }
  | .orderAction action ret => { day with trader := (day.trader.cancelOrder action ret).1 }
  | .writeTo dest => { day with trader := day.trader.onWriteTo dest }
  | .restart schedule visited writers => day.restart schedule visited writers

def run (M : Markets) (E : Exchange δ) (day : Day δ) (steps : List (Step δ)) : Day δ :=
  steps.foldl (step M E) day

end Day

/-! ## A morning -/

/-- Reports whose details are the session of the order they are about. -/
def exampleExchange : Exchange (Int32 × Int32) where
  tradeKey trade := ⟨trade.details.1, trade.details.2, trade.orderRef⟩
  inputKey input := ⟨input.details.1, input.details.2, input.orderRef⟩
  tradeKey_orderRef _ := rfl
  inputKey_orderRef _ := rfl

def exampleMarkets : Markets := ⟨fun _ _ => .Future, fun _ => ""⟩

/-- The trader performs the tasks of some callbacks. -/
def reports (tasks : List (Task (Int32 × Int32))) : List (Step (Int32 × Int32)) :=
  tasks.map .callback ++ .drainTasks :: tasks.map fun _ => .task

/-- The trader logs in to session 100, and the strategy 77 has an order inserted. -/
def exampleMorning : List (Step (Int32 × Int32)) :=
  .writeTo 77 :: reports [.onLoginSuccess 1 100, .onSettlementConfirmed] ++
    [.orderInput ⟨5, 0, "au2610", "SHFE", .Future, 500, 500, 3, .Buy, .Limit, (1, 100)⟩ 77 0]

/-- A report about the order, with its status. -/
def exampleOrder (status : Char) : OrderField (Int32 × Int32) :=
  ⟨1, 100, "1", "8", "au2610", "SHFE", status, "", '2', 500, 3, 0, '0', (1, 100)⟩

end Kungfu.Ctp
