import Kungfu.Api.Orders
import Kungfu.Wingchun.UpdateBook

/-!
# Requests of clients

A thread for each client reads its requests and queues them, and the main thread takes them out of
the queue and answers each.  What a handler throws is the answer.  The name of the method and its
data are read before that, so what is thrown there ends the loop of events.
-/

namespace Kungfu.Api

open Longfist Yijinjing Index Practice Logic

/-! ## The server -/

/-- What handlers ask their surroundings for: the clock, the home of the process and that of the
ledger, the trading day, the frame that is written next, the instruments, and the process that is
launched. -/
structure Env where
  now : Int64
  homeMode : Mode
  ledgerUid : UInt32
  tradingDay : String
  frameUid : UInt64
  market : Wingchun.Market
  launched : Except String ℤ

/-- What is written for a request, other than to a source of market data. -/
inductive Written
  | orderInput (dest : UInt32) (input : Input)
  | orderAction (dest : UInt32) (action : Action)
  | positionRequest (dest : UInt32)
  | requestStop (dest : UInt32)

structure Request where
  sessionId : UInt32
  requestId : UInt64
  body : Json

/-- The service, its books, what it wrote, and the requests that wait.  `stopped` is what ended the
loop of events. -/
structure Server where
  service : ApiService
  books : Wingchun.Books
  written : List Written
  requestQueue : List Request
  stopped : Option Thrown

/-- The result of a handler, or what it throws. -/
abbrev Reply := Except Thrown Json

namespace Server

section Handlers

variable (env : Env) (id : UInt32) (data : Json) (s : Server)

/-- What the bookkeeper asks its app for. -/
def app : Wingchun.App where
  locations := fun uid => (s.service.locations.lookup uid).map (·.category)
  tradingDay := env.tradingDay

def write (frame : Written) : Server := { s with written := s.written ++ [frame] }

/-- What a handler of the tables leaves, with the result if it throws nothing. -/
def lift (handled : Handled) (result : Json) : Server × Reply :=
  ({ s with service := handled.1 }, match handled.2 with
    | none => .ok result
    | some what => .error (.exception what))

/-! ### Orders -/

/-- The text of an error of a book. -/
def what : Wingchun.Fault → String
  | .wingchunError instrumentType side offset =>
      s!"get_direction error: invalid direction args {instrumentType.ctorIdx} {side.toInt} {offset.ctorIdx}"
  | .invalidArgument => "invalid_argument"
  | .outOfRange => "out_of_range"
  | .overrun => ""

/-- The update of books by an order of a client. -/
def bookInput (account : Location) (input : Input) : Wingchun.Update where
  updateTime := env.now
  source := s.service.homeUid
  dest := account.uid
  data := .orderInput (toAccount input)

/-- The order is written before it is booked, and is routed to its client after that. -/
def handleIssueOrder : Server × Reply :=
  match s.service.issuedOrder env.homeMode env.frameUid env.now data with
  | .error thrown => (s, .error thrown)
  | .ok (account, input) =>
      let s := s.write (.orderInput account.uid input)
      match Wingchun.updateBook (s.app env) env.market (s.bookInput env account input) s.books with
      | .error thrown => ({ s with books := thrown.state }, .error (.exception (what thrown.fault)))
      | .ok books =>
          ({ s with
              books := books
              service := s.service.step (.issueOrder id input.orderId) },
            .ok (.object [("order_id", .integer input.orderId.toNat)]))

def handleCancelOrder : Server × Reply :=
  match s.service.issuedAction env.homeMode env.frameUid env.now data with
  | .error what => (s, .error (.exception what))
  | .ok (account, action) =>
      (s.write (.orderAction account.uid action),
        .ok (.object [("order_action_id", .integer action.orderActionId.toNat)]))

/-! ### Market data -/

/-- The ids of an instrument in a request. -/
def readIds : Except String (String × String) := do
  let exchangeId ← data.value Json.getString "exchange_id" ""
  let instrumentId ← data.value Json.getString "instrument_id" ""
  return (exchangeId, instrumentId)

/-- The ids and their null characters fit in an `InstrumentKey`. -/
def IdsCopied (exchangeId instrumentId : String) : Prop :=
  (cStr exchangeId).utf8ByteSize < EXCHANGE_ID_LEN ∧
    (cStr instrumentId).utf8ByteSize < INSTRUMENT_ID_LEN

instance (exchangeId instrumentId : String) : Decidable (IdsCopied exchangeId instrumentId) :=
  inferInstanceAs (Decidable (_ ∧ _))

def subscribed (exchangeId instrumentId : String) : Json :=
  .object [("success", .boolean true),
    ("key", .integer (hashInstrument (cStr exchangeId) (cStr instrumentId)).toNat)]

/-- The ids are read if there is a source to write to, and copied if neither is empty. -/
def handleRequestMarketData : Server × Reply :=
  match s.service.resolveLocation env.homeMode data with
  | .error what => (s, .error (.exception what))
  | .ok md =>
      if ∃ location ∈ md, location.uid ∈ s.service.writers then
        match readIds data with
        | .error what => (s, .error (.exception what))
        | .ok (exchangeId, instrumentId) =>
            if exchangeId ≠ "" ∧ instrumentId ≠ "" ∧ ¬ IdsCopied exchangeId instrumentId then
              (s, .error .overflow)
            else
              s.lift (s.service.handleRequestMarketData id md exchangeId instrumentId)
                (subscribed exchangeId instrumentId)
      else s.lift (s.service.handleRequestMarketData id md "" "") .null

/-- The instrument is told to its source. -/
def Tells (md : Location) (exchangeId instrumentId : String) : Prop :=
  ¬ s.service.NeededByOthers id (hashInstrument (cStr exchangeId) (cStr instrumentId)) ∧
    md.uid ∈ s.service.writers

instance (md : Location) (exchangeId instrumentId : String) :
    Decidable (s.Tells id md exchangeId instrumentId) := inferInstanceAs (Decidable (_ ∧ _))

/-- The ids are copied if the source is told. -/
def handleCancelMarketData : Server × Reply :=
  match s.service.resolveLocation env.homeMode data with
  | .error what => (s, .error (.exception what))
  | .ok none => (s, .error (.exception "invalid md location"))
  | .ok (some md) =>
      match readIds data with
      | .error what => (s, .error (.exception what))
      | .ok (exchangeId, instrumentId) =>
          if s.Tells id md exchangeId instrumentId ∧ ¬ IdsCopied exchangeId instrumentId then
            (s, .error .overflow)
          else
            s.lift (s.service.handleCancelMarketData id (some md) exchangeId instrumentId)
              (subscribed exchangeId instrumentId)

/-! ### What clients ask for -/

def handleRequestPosition : Server × Reply :=
  (if env.ledgerUid ∈ s.service.writers then s.write (.positionRequest env.ledgerUid) else s,
    .ok (.object [("success", .boolean true)]))

def locationToJson (location : Location) : Json :=
  .object [("uid", .string (hex location.uid)), ("category", .string (categoryName location.category)),
    ("group", .string location.group), ("name", .string location.name),
    ("mode", .string (modeName location.mode)), ("uname", .string (uname location)),
    ("live", .boolean (decide (location.uid ∈ s.service.registry)))]

/-- The locations that are known, or the strategies among them. -/
def getLocations (wanted : Location → Bool) : Json :=
  .array (((s.service.locations.entries.map Sigma.snd).filter wanted).map s.locationToJson)

def handleIsReadyToInteract : Except String Json :=
  (s.service.resolveLocation env.homeMode data).map fun location => .object [("ready", .boolean
    (location.any fun location =>
      location.uid ∈ s.service.registry ∧ location.uid ∈ s.service.writers))]

def handleGetSubscriptions : Json :=
  match s.service.sessions.lookup id with
  | none => .array []
  | some c => .array (c.subscribedKeys.entries.map fun entry =>
      .string s!"{hex entry.1} {entry.2.exchangeId}@{entry.2.instrumentId}")

/-! ### Strategies -/

def handleSubscribeStrategy : Server × Reply :=
  match s.service.resolveLocation env.homeMode data with
  | .error what => (s, .error (.exception what))
  | .ok strat => s.lift (s.service.handleSubscribeStrategy id strat) (.object [("success",
      .boolean true), ("strategy_uid", .string (hex ((strat.map (·.uid)).getD 0)))])

def handleUnsubscribeStrategy : Server × Reply :=
  match s.service.resolveLocation env.homeMode data with
  | .error what => (s, .error (.exception what))
  | .ok strat => s.lift (s.service.handleUnsubscribeStrategy id strat)
      (.object [("success", .boolean true)])

/-- A strategy is started unless one with the same name is live. -/
def handleStartStrategy : Except String Json := do
  let mode ← data.value Json.getString "mode" "live"
  let group ← data.value Json.getString "group" "sim"
  let name ← data.value Json.getString "name" "sim"
  let _ ← data.value Json.getString "strategy" "kungfu_strategy_101"
  let _ ← data.value Json.getString "args" ""
  let _ ← data.value Json.getBool "low_latency" false
  if ∃ entry ∈ s.service.locations.entries, entry.2.category = .STRATEGY ∧ entry.2.group = group ∧
      entry.2.name = name ∧ entry.2.mode = getModeByName mode ∧ entry.1 ∈ s.service.registry then
    .error s!"strategy {mode}/{group}/{name} is already running"
  else match env.launched with
    | .error what => .error s!"fork failed: {what}"
    | .ok pid => .ok (.object [("success", .boolean true), ("pid", .integer pid)])

def handleStopStrategy : Server × Reply :=
  match s.service.resolveLocation env.homeMode data with
  | .error what => (s, .error (.exception what))
  | .ok none => (s, .error (.exception "invalid strategy location"))
  | .ok (some strat) =>
      if strat.category ≠ .STRATEGY then
        (s, .error (.exception s!"{uname strat} is not a strategy"))
      else if strat.uid ∉ s.service.registry then
        (s, .error (.exception s!"strategy {uname strat} is not running"))
      else if strat.uid ∉ s.service.writers then
        (s, .error (.exception s!"no writer to strategy {uname strat}"))
      else (s.write (.requestStop strat.uid), .ok (.object [("success", .boolean true),
        ("strategy_uid", .string (hex strat.uid)),
        ("note", .string "strategy will exit asynchronously; wait ~1s before restarting")]))

/-! ### Answers -/

/-- The handler of a method. -/
def dispatch (method : String) : Server × Reply :=
  match method with
  | "issue_order" => s.handleIssueOrder env id data
  | "cancel_order" => s.handleCancelOrder env data
  | "request_market_data" => s.handleRequestMarketData env id data
  | "cancel_market_data" => s.handleCancelMarketData env id data
  | "request_position" => s.handleRequestPosition env
  | "get_locations" => (s, .ok (s.getLocations fun _ => true))
  | "get_strategies" => (s, .ok (s.getLocations fun location => location.category = .STRATEGY))
  | "is_ready_to_interact" => (s, s.handleIsReadyToInteract env data)
  | "get_trading_day" => (s, .ok (.string env.tradingDay))
  | "now" => (s, .ok (.integer env.now.toInt))
  | "get_subscriptions" => (s, .ok (s.handleGetSubscriptions id))
  | "subscribe_strategy" => s.handleSubscribeStrategy env id data
  | "unsubscribe_strategy" => s.handleUnsubscribeStrategy env id data
  | "start_strategy" => (s, s.handleStartStrategy env data)
  | "stop_strategy" => s.handleStopStrategy env data
  | method => (s, .error (.exception s!"unknown method: {method}"))

end Handlers

/-- `send_json`. -/
def sendJson (id : UInt32) (message : Outgoing) (s : Server) : Server :=
  match s.service.sessions.lookup id with
  | none => s
  | some c => { s with service := s.service.setSession id (c.queue message) }

/-- What a request is answered with, or what leaves `handle_request`. -/
def answer (env : Env) (r : Request) (s : Server) : Except Thrown (Server × Except String Json) := do
  let method ← r.body.value Json.getString "method" ""
  let data ← r.body.value .ok "data" (.object [])
  match s.dispatch env r.sessionId data method with
  | (s, .ok result) => .ok (s, .ok result)
  | (s, .error (.exception what)) => .ok (s, .error what)
  | (_, .error .overflow) => .error .overflow

def handleRequest (env : Env) (r : Request) (s : Server) : Except Thrown Server := do
  let (s, reply) ← s.answer env r
  return s.sendJson r.sessionId (.response r.requestId reply)

/-! ## The loop of events -/

/-- `client_recv_loop`: a body that is no JSON, or has no request id that is a number, is dropped. -/
def receive (parse : List UInt8 → Option Json) (id : UInt32) (body : List UInt8) (s : Server) :
    Server :=
  match parse body with
  | none => s
  | some j =>
      match j.value Json.getArithmetic "request_id" 0 with
      | .error _ => s
      | .ok requestId => { s with requestQueue := s.requestQueue ++ [⟨id, requestId, j⟩] }

/-- One request of the queue; nothing is handled any more when one has thrown. -/
def handle (env : ℕ → Env) (s : Server) (r : Request × ℕ) : Server :=
  if s.stopped.isSome then s
  else match s.handleRequest (env r.2) r.1 with
    | .ok s => s
    | .error thrown => { s with stopped := some thrown }

/-- `drain_requests`. -/
def drainRequests (env : ℕ → Env) (s : Server) : Server :=
  s.requestQueue.zipIdx.foldl (handle env) { s with requestQueue := [] }

/-- What happens to the service: a client sends a body, the main thread handles what waits, the
tables change otherwise, or the bookkeeper handles an event. -/
inductive Event
  | receive (id : UInt32) (body : List UInt8)
  | drain (env : ℕ → Env)
  | service (op : Op)
  | bookkeeper (books : Wingchun.Books)

/-- The loop of events has ended when something has left it. -/
def step (parse : List UInt8 → Option Json) (s : Server) (event : Event) : Server :=
  if s.stopped.isSome then s
  else match event with
    | .receive id body => s.receive parse id body
    | .drain env => s.drainRequests env
    | .service op => { s with service := s.service.step op }
    | .bookkeeper books => { s with books := books }

end Server

end Kungfu.Api
