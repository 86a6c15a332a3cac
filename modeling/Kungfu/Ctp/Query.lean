import Kungfu.Ctp.Trader
import Kungfu.Longfist.Account
import Mathlib.Data.List.AList

/-!
# The queries of the CTP trader

CTP answers a query by any number of callbacks, of which the last says so.  The trader sends
one query at a time: a tick of its timer sends the next one of a queue unless one is in flight,
and the callbacks queue tasks that tell it when one is answered.  The rows of a position query
are added up until they are published.

What the code does not keep is the number of the request in flight, and which request a task
belongs to.
-/

namespace Kungfu.Ctp

open Longfist

/-! ## Answers -/

/-- The queries that are queued. -/
inductive Query
  | instrument | tradingAccount | investorPosition | order | trade
  deriving DecidableEq, Repr

/-- `CThostFtdcInstrumentField`. -/
structure InstrumentField where
  instrumentId : String
  volumeMultiple : ℤ
  deriving DecidableEq, Repr

/-- `CThostFtdcInvestorPositionField`. -/
structure InvestorPositionField where
  instrumentId : String
  exchangeId : String
  posiDirection : Char
  tradingDay : String
  preSettlementPrice : ℚ
  settlementPrice : ℚ
  position : ℤ
  ydPosition : ℤ
  longFrozen : ℤ
  shortFrozen : ℤ
  useMargin : ℚ
  positionProfit : ℚ
  closeProfit : ℚ
  openAmount : ℚ
  openVolume : ℤ
  openCost : ℚ
  deriving DecidableEq, Repr

/-- The row of an answer, which may be missing.  What the rows of accounts, orders and trades
hold is not needed here. -/
inductive Answer
  | instrument (instrument : Option InstrumentField)
  | tradingAccount (isGiven : Bool)
  | investorPosition (position : Option InvestorPositionField)
  | order (isGiven : Bool)
  | trade (isGiven : Bool)

namespace Answer

def query : Answer → Query
  | instrument _ => .instrument
  | tradingAccount _ => .tradingAccount
  | investorPosition _ => .investorPosition
  | order _ => .order
  | trade _ => .trade

/-- The answer has a row. -/
def IsGiven : Answer → Prop
  | instrument row => row.isSome
  | investorPosition row => row.isSome
  | tradingAccount isGiven | order isGiven | trade isGiven => isGiven

instance : DecidablePred IsGiven
  | instrument row => inferInstanceAs (Decidable (row.isSome = true))
  | investorPosition row => inferInstanceAs (Decidable (row.isSome = true))
  | tradingAccount isGiven => inferInstanceAs (Decidable (isGiven = true))
  | order isGiven => inferInstanceAs (Decidable (isGiven = true))
  | trade isGiven => inferInstanceAs (Decidable (isGiven = true))

end Answer

/-- What CTP tells about the connection. -/
inductive Connection
  | onFrontDisconnected | onLoginSuccess | onLoginFailed | onSettlementConfirmed
  deriving DecidableEq, Repr

/-- A callback that waits for the event loop. -/
inductive QueryTask
  | connection (event : Connection)
  | onQryInstrument (instrument : InstrumentField) (isLast : Bool)
  | onQryInstrumentEnd
  | onQryTradingAccount (isLast : Bool)
  | onQryInvestorPosition (position : InvestorPositionField) (isLast : Bool)
  | onQryInvestorPositionEnd
  | onQryOrder (isLast : Bool)
  | onQryTrade (isLast : Bool)
  deriving DecidableEq, Repr

/-- The tasks that the callbacks of `CtpTraderSpi` queue, `OnRspQryInstrument` and the others;
`isError` is whether an error is reported, as it also is by `OnRspError`. -/
def callback (isError isLast : Bool) : Answer → List QueryTask
  | .instrument row =>
      if isError then []
      else (row.toList.map fun instrument => .onQryInstrument instrument isLast) ++
        if isLast then [.onQryInstrumentEnd] else []
  | .tradingAccount isGiven =>
      if isError then [] else if isGiven then [.onQryTradingAccount isLast] else []
  | .investorPosition row =>
      if isError then []
      else match row with
        | some position => [.onQryInvestorPosition position isLast]
        | none => if isLast then [.onQryInvestorPositionEnd] else []
  | .order isGiven => if isError then [] else if isGiven then [.onQryOrder isLast] else []
  | .trade isGiven => if isError then [] else if isGiven then [.onQryTrade isLast] else []

/-! ## Positions -/

/-- `PositionRow`, under an instrument and a direction. -/
structure PositionRow where
  exchangeId : String
  instrumentType : InstrumentType
  tradingDay : String
  preSettlementPrice : ℚ
  settlementPrice : ℚ
  volume : ℤ
  yesterdayVolume : ℤ
  frozenTotal : ℤ
  margin : ℚ
  positionPnl : ℚ
  closePnl : ℚ
  openAmount : ℚ
  openVolume : ℤ
  openCost : ℚ
  deriving DecidableEq

def PositionRow.empty : PositionRow where
  exchangeId := ""
  instrumentType := .Unknown
  tradingDay := ""
  preSettlementPrice := 0
  settlementPrice := 0
  volume := 0
  yesterdayVolume := 0
  frozenTotal := 0
  margin := 0
  positionPnl := 0
  closePnl := 0
  openAmount := 0
  openVolume := 0
  openCost := 0

namespace InvestorPositionField

/-- `'3'` is a short position. -/
def direction (position : InvestorPositionField) : Direction :=
  if position.posiDirection = '3' then .Short else .Long

/-- The key of `pending_positions_`. -/
def key (position : InvestorPositionField) : String × Direction :=
  (position.instrumentId, position.direction)

/-- The volume that is frozen on the side of the position. -/
def frozen (position : InvestorPositionField) : ℤ :=
  if position.direction = .Long then position.longFrozen else position.shortFrozen

end InvestorPositionField

namespace PositionRow

/-- A row that is still empty is labelled. -/
def label (M : Markets) (position : InvestorPositionField) (row : PositionRow) : PositionRow :=
  if row.volume = 0 ∧ row.yesterdayVolume = 0 ∧ row.margin = 0 then
    let exchangeId := M.resolveExchangeId position.exchangeId position.instrumentId
    { row with
      exchangeId := exchangeId
      instrumentType := M.instrumentType exchangeId position.instrumentId
      tradingDay := position.tradingDay
      preSettlementPrice := position.preSettlementPrice
      settlementPrice := position.settlementPrice }
  else row

/-- The amounts of a row of CTP are added. -/
def add (M : Markets) (position : InvestorPositionField) (row : PositionRow) : PositionRow :=
  let row := row.label M position
  { row with
    volume := row.volume + position.position
    yesterdayVolume := row.yesterdayVolume + position.ydPosition
    frozenTotal := row.frozenTotal + position.frozen
    margin := row.margin + position.useMargin
    positionPnl := row.positionPnl + position.positionProfit
    closePnl := row.closePnl + position.closeProfit
    openAmount := row.openAmount + position.openAmount
    openVolume := row.openVolume + position.openVolume
    openCost := row.openCost + position.openCost }

/-- The position that is published for a row. -/
def toPosition (home : UInt32) (now : Int64) (multiple : ℤ) (key : String × Direction)
    (row : PositionRow) : Position ⟨key.2, hashInstrument row.exchangeId key.1⟩ where
  updateTime := now
  tradingDay := row.tradingDay
  instrumentId := key.1
  instrumentType := row.instrumentType
  exchangeId := row.exchangeId
  holderUid := home
  ledgerCategory := .Account
  volume := row.volume
  yesterdayVolume := row.yesterdayVolume
  frozenTotal := row.frozenTotal
  frozenYesterday := 0
  lastPrice := 0
  avgOpenPrice := if 0 < row.openVolume then row.openAmount / row.openVolume / multiple else 0
  positionCostPrice := if 0 < row.volume then row.openCost / row.volume / multiple else 0
  closePrice := 0
  preClosePrice := 0
  settlementPrice := row.settlementPrice
  preSettlementPrice := row.preSettlementPrice
  margin := row.margin
  positionPnl := row.positionPnl
  closePnl := row.closePnl
  realizedPnl := row.closePnl
  unrealizedPnl := 0
  hashed := rfl

end PositionRow

/-- `pending_positions_`. -/
abbrev PendingPositions := AList fun _ : String × Direction => PositionRow

/-- A row of CTP is added to the one for its instrument and direction. -/
def accumulate (M : Markets) (position : InvestorPositionField) (pending : PendingPositions) :
    PendingPositions :=
  if position.instrumentId = "" then pending
  else pending.insert position.key (((pending.lookup position.key).getD .empty).add M position)

/-- The positions that are published, followed by a `PositionEnd`, for a request. -/
structure Stream where
  request : ℕ
  positions : List (Σ key : PositionKey, Position key)

/-! ## The desk -/

/-- `QUERY_TIMEOUT_NS`. -/
def QUERY_TIMEOUT_NS : Int64 := 120000000000

/-- The members of `TraderCtp` that queries need, and what is under way at CTP.  `inFlight` is
`query_in_flight_`, with the request that set it.  A query that sends nothing is `none`. -/
structure Desk where
  loggedIn : Bool
  ready : Bool
  queryQueue : List (Option Query)
  inFlight : Option ℕ
  queryStartedAtNano : Int64
  requestId : ℕ
  volumeMultiples : String → Option ℤ
  pendingPositions : PendingPositions
  tasks : List (ℕ × QueryTask)
  published : List Stream
  /-- What the callback that is running has still to queue. -/
  calling : List (ℕ × QueryTask)
  /-- The requests of which CTP has not sent the last answer. -/
  outstanding : List (ℕ × Query)
  answered : List (ℕ × Query)
  timedOut : List ℕ
  /-- The rows of positions that CTP sent. -/
  rows : List (ℕ × InvestorPositionField)

namespace Desk

/-- `push_query`. -/
def pushQuery (query : Option Query) (d : Desk) : Desk :=
  { d with queryQueue := d.queryQueue ++ [query] }

/-- `finish_in_flight_query`. -/
def finishInFlightQuery (d : Desk) : Desk := { d with inFlight := none }

/-- The multiple of an instrument is kept, if it is positive. -/
def setMultiple (instrument : InstrumentField) (d : Desk) : Desk :=
  { d with volumeMultiples :=
      if 0 < instrument.volumeMultiple then
        Function.update d.volumeMultiples instrument.instrumentId instrument.volumeMultiple
      else d.volumeMultiples }

/-- The multiple by which the prices of an instrument are divided. -/
def multiple (instrumentId : String) (d : Desk) : ℤ :=
  match d.volumeMultiples instrumentId with
  | some multiple => if 0 < multiple then multiple else 1
  | none => 1

/-- `flush_positions`. -/
def flushPositions (home : UInt32) (now : Int64) (request : ℕ) (d : Desk) : Desk :=
  { d with
    pendingPositions := ∅
    published := d.published ++ [⟨request, d.pendingPositions.entries.map fun entry =>
      ⟨_, entry.2.toPosition home now (d.multiple entry.1.1) entry.1⟩⟩] }

end Desk

/-- The query is told to be answered. -/
def QueryTask.Finishes : QueryTask → Prop
  | onQryInstrumentEnd | onQryInvestorPositionEnd => True
  | onQryInstrument _ isLast | onQryTradingAccount isLast | onQryInvestorPosition _ isLast
  | onQryOrder isLast | onQryTrade isLast => isLast
  | connection _ => False

instance : DecidablePred QueryTask.Finishes
  | .onQryInstrumentEnd | .onQryInvestorPositionEnd => isTrue trivial
  | .onQryInstrument _ isLast => inferInstanceAs (Decidable (isLast = true))
  | .onQryTradingAccount isLast => inferInstanceAs (Decidable (isLast = true))
  | .onQryInvestorPosition _ isLast => inferInstanceAs (Decidable (isLast = true))
  | .onQryOrder isLast => inferInstanceAs (Decidable (isLast = true))
  | .onQryTrade isLast => inferInstanceAs (Decidable (isLast = true))
  | .connection _ => isFalse id

variable (M : Markets) (home : UInt32)

/-- What a queued callback does. -/
def QueryTask.perform (now : Int64) (request : ℕ) (d : Desk) : QueryTask → Desk
  | connection .onFrontDisconnected => { d with loggedIn := false, ready := false }
  | connection .onLoginSuccess => { d with loggedIn := true }
  | connection .onLoginFailed => { d with loggedIn := false, ready := false }
  | connection .onSettlementConfirmed =>
      { d with
        ready := true
        queryQueue := d.queryQueue ++ [none, some .instrument, some .tradingAccount,
          some .investorPosition, some .order, some .trade] }
  | onQryInstrument instrument isLast =>
      let d := d.setMultiple instrument
      if isLast then d.finishInFlightQuery else d
  | onQryInstrumentEnd => d.finishInFlightQuery
  | onQryTradingAccount isLast => if isLast then d.finishInFlightQuery else d
  | onQryInvestorPosition position isLast =>
      let d := if isLast then d.finishInFlightQuery else d
      { d with pendingPositions := accumulate M position d.pendingPositions }
  | onQryInvestorPositionEnd => (d.flushPositions home now request).finishInFlightQuery
  | onQryOrder isLast => if isLast then d.finishInFlightQuery else d
  | onQryTrade isLast => if isLast then d.finishInFlightQuery else d

namespace Desk

/-- `drain_tasks`. -/
def drainTasks (now : Int64) (d : Desk) : Desk :=
  d.tasks.foldl (fun d task => task.2.perform M home now task.1 d) { d with tasks := [] }

/-- The next query is sent; `isSent` is whether CTP accepts it. -/
def sendNext (now : Int64) (isSent : Bool) (d : Desk) : Desk :=
  match d.queryQueue with
  | [] => d
  | query :: queue =>
      if ¬ (d.loggedIn ∧ d.ready) then { d with queryQueue := [] }
      else
        match query with
        | none => { d with queryQueue := queue }
        | some query =>
            let request := d.requestId + 1
            if isSent then
              { d with
                queryQueue := queue
                requestId := request
                inFlight := some request
                queryStartedAtNano := now
                outstanding := d.outstanding ++ [(request, query)] }
            else { d with queryQueue := queue, requestId := request }

/-- The query in flight has been for too long. -/
def IsTimeout (now : Int64) (d : Desk) : Prop := ¬ now - d.queryStartedAtNano < QUERY_TIMEOUT_NS

instance (now : Int64) (d : Desk) : Decidable (d.IsTimeout now) := inferInstanceAs (Decidable (¬ _))

/-- `pump_query_queue`; the query is sent at `sentAt`. -/
def pumpQueryQueue (now sentAt : Int64) (isSent : Bool) (d : Desk) : Desk :=
  match d.inFlight with
  | none => d.sendNext sentAt isSent
  | some request =>
      if d.IsTimeout now then
        { d with inFlight := none, timedOut := request :: d.timedOut }.sendNext sentAt isSent
      else d

/-- CTP answers a request: a callback begins to run. -/
def reply (request : ℕ) (answer : Answer) (isError isLast : Bool) (d : Desk) : Desk :=
  { d with
    calling := (callback isError isLast answer).map fun task => (request, task)
    outstanding := if isLast then d.outstanding.filter (·.1 ≠ request) else d.outstanding
    answered := if isLast then (request, answer.query) :: d.answered else d.answered
    rows := match answer with
      | .investorPosition (some position) =>
          if isError then d.rows else d.rows ++ [(request, position)]
      | _ => d.rows }

inductive Step
  /-- `req_account`, `req_position` or `req_order_trade`. -/
  | push (queries : List Query)
  /-- The timer of the pump. -/
  | tick (now sentAt : Int64) (isSent : Bool)
  /-- The timer of the tasks. -/
  | drain (now : Int64)
  | reply (request : ℕ) (answer : Answer) (isError isLast : Bool)
  /-- The callback that is running queues a task. -/
  | enqueue
  /-- Another callback of CTP runs. -/
  | connection (event : Connection)

def step (d : Desk) : Step → Desk
  | .push queries => { d with queryQueue := d.queryQueue ++ queries.map some }
  | .tick now sentAt isSent => d.pumpQueryQueue now sentAt isSent
  | .drain now => d.drainTasks M home now
  | .reply request answer isError isLast =>
      if d.calling = [] ∧ (request, answer.query) ∈ d.outstanding then
        d.reply request answer isError isLast
      else d
  | .enqueue =>
      match d.calling with
      | [] => d
      | task :: calling => { d with tasks := d.tasks ++ [task], calling := calling }
  | .connection event =>
      if d.calling = [] then { d with tasks := d.tasks ++ [(0, .connection event)] } else d

abbrev run (d : Desk) (steps : List Step) : Desk := steps.foldl (step M home) d

/-- The desk as it starts. -/
def start : Desk where
  loggedIn := false
  ready := false
  queryQueue := []
  inFlight := none
  queryStartedAtNano := 0
  requestId := 0
  volumeMultiples _ := none
  pendingPositions := ∅
  tasks := []
  published := []
  calling := []
  outstanding := []
  answered := []
  timedOut := []
  rows := []

variable {M home} {d d' : Desk}

/-! ## Tasks -/

/-- The same queries are under way. -/
structure SameQueries (d d' : Desk) : Prop where
  requestId : d'.requestId = d.requestId
  tasks : d'.tasks = d.tasks
  calling : d'.calling = d.calling
  outstanding : d'.outstanding = d.outstanding
  answered : d'.answered = d.answered
  timedOut : d'.timedOut = d.timedOut
  rows : d'.rows = d.rows

theorem SameQueries.refl (d : Desk) : d.SameQueries d := ⟨rfl, rfl, rfl, rfl, rfl, rfl, rfl⟩

theorem SameQueries.trans {d'' : Desk} (h : d.SameQueries d') (h' : d'.SameQueries d'') :
    d.SameQueries d'' :=
  ⟨h'.requestId.trans h.requestId, h'.tasks.trans h.tasks, h'.calling.trans h.calling,
    h'.outstanding.trans h.outstanding, h'.answered.trans h.answered,
    h'.timedOut.trans h.timedOut, h'.rows.trans h.rows⟩

/-- A task clears the flag or leaves it. -/
theorem perform_spec (M : Markets) (home : UInt32) (now : Int64) (request : ℕ) (d : Desk)
    (task : QueryTask) : d.SameQueries (task.perform M home now request d) ∧
      (task.perform M home now request d).inFlight =
        if task.Finishes then none else d.inFlight := by
  cases task with
  | connection event => cases event <;> exact ⟨⟨rfl, rfl, rfl, rfl, rfl, rfl, rfl⟩, rfl⟩
  | onQryInstrumentEnd | onQryInvestorPositionEnd => exact ⟨⟨rfl, rfl, rfl, rfl, rfl, rfl, rfl⟩, rfl⟩
  | onQryInstrument _ isLast | onQryTradingAccount isLast | onQryInvestorPosition _ isLast
  | onQryOrder isLast | onQryTrade isLast =>
    cases isLast <;> exact ⟨⟨rfl, rfl, rfl, rfl, rfl, rfl, rfl⟩, rfl⟩

theorem foldl_perform_spec (M : Markets) (home : UInt32) (now : Int64)
    (tasks : List (ℕ × QueryTask)) (d : Desk) :
    let d' := tasks.foldl (fun d task => task.2.perform M home now task.1 d) d
    d.SameQueries d' ∧
      d'.inFlight = if ∃ task ∈ tasks, task.2.Finishes then none else d.inFlight := by
  induction tasks generalizing d with
  | nil => exact ⟨SameQueries.refl d, by simp⟩
  | cons task tasks ih =>
    obtain ⟨hsame, hflight⟩ := perform_spec M home now task.1 d task.2
    obtain ⟨hsame', hflight'⟩ := ih (task.2.perform M home now task.1 d)
    refine ⟨hsame.trans hsame', ?_⟩
    rw [List.foldl_cons, hflight', hflight]
    simp only [List.exists_mem_cons_iff]
    by_cases hfinishes : task.2.Finishes
    · simp only [hfinishes, true_or, if_true, ite_self]
    · simp only [hfinishes, false_or, if_false]

/-! ## Requests -/

/-- The requests that are answered. -/
def replied (d : Desk) : List ℕ := d.answered.map (·.1)

/-- Requests are numbered one after another, and are outstanding or answered. -/
structure Numbered (d : Desk) : Prop where
  sent : ∀ query ∈ d.outstanding, query.1 ≤ d.requestId
  replied : ∀ request ∈ d.replied, request ≤ d.requestId
  disjoint : ∀ query ∈ d.outstanding, query.1 ∉ d.replied

theorem numbered_start : start.Numbered :=
  ⟨fun _ h => absurd h List.not_mem_nil, fun _ h => absurd h List.not_mem_nil,
    fun _ h => absurd h List.not_mem_nil⟩

theorem Numbered.sendNext (h : d.Numbered) (now : Int64) (isSent : Bool) :
    (d.sendNext now isSent).Numbered := by
  unfold Desk.sendNext
  split
  · exact h
  · split
    · exact ⟨h.sent, h.replied, h.disjoint⟩
    · split
      · exact ⟨h.sent, h.replied, h.disjoint⟩
      · split
        · refine ⟨?_, fun request hrequest => Nat.le_succ_of_le (h.replied request hrequest), ?_⟩
          · intro query hquery
            rcases List.mem_append.mp hquery with hquery | hquery
            · exact Nat.le_succ_of_le (h.sent query hquery)
            · rw [List.mem_singleton.mp hquery]
          · intro query hquery hmem
            rcases List.mem_append.mp hquery with hquery | hquery
            · exact h.disjoint query hquery hmem
            · rw [List.mem_singleton.mp hquery] at hmem
              exact absurd (h.replied _ hmem) (by simp)
        · exact ⟨fun query hquery => Nat.le_succ_of_le (h.sent query hquery),
            fun request hrequest => Nat.le_succ_of_le (h.replied request hrequest), h.disjoint⟩

/-- What an answer adds to the answered requests. -/
theorem mem_replied_reply {request request' : ℕ} {answer : Answer} {isError isLast : Bool} :
    request' ∈ (d.reply request answer isError isLast).replied ↔
      request' ∈ d.replied ∨ request' = request ∧ isLast = true := by
  cases isLast <;> simp [reply, replied, or_comm]

theorem mem_outstanding_reply {request : ℕ} {query : ℕ × Query} {answer : Answer}
    {isError isLast : Bool} :
    query ∈ (d.reply request answer isError isLast).outstanding ↔
      query ∈ d.outstanding ∧ (isLast = true → query.1 ≠ request) := by
  cases isLast <;> simp [reply]

theorem Numbered.reply (h : d.Numbered) {request : ℕ} {answer : Answer}
    (houtstanding : (request, answer.query) ∈ d.outstanding) (isError isLast : Bool) :
    (d.reply request answer isError isLast).Numbered := by
  constructor
  · intro query hquery
    exact h.sent query (mem_outstanding_reply.mp hquery).1
  · intro request' hrequest'
    rcases mem_replied_reply.mp hrequest' with hrequest' | ⟨rfl, -⟩
    · exact h.replied request' hrequest'
    · exact h.sent _ houtstanding
  · intro query hquery hmem
    obtain ⟨hquery, hne⟩ := mem_outstanding_reply.mp hquery
    rcases mem_replied_reply.mp hmem with hmem | ⟨heq, hlast⟩
    · exact h.disjoint query hquery hmem
    · exact hne hlast heq

theorem Numbered.step (h : d.Numbered) (s : Step) : (d.step M home s).Numbered := by
  cases s with
  | push queries => exact ⟨h.sent, h.replied, h.disjoint⟩
  | tick now sentAt isSent =>
    simp only [Desk.step, pumpQueryQueue]
    split
    · exact h.sendNext sentAt isSent
    · split
      · have hcleared : ∀ request, Numbered { d with
            inFlight := none, timedOut := request :: d.timedOut } :=
          fun _ => ⟨h.sent, h.replied, h.disjoint⟩
        exact (hcleared _).sendNext sentAt isSent
      · exact h
  | drain now =>
    obtain ⟨hsame, -⟩ := foldl_perform_spec M home now d.tasks { d with tasks := [] }
    rw [← drainTasks] at hsame
    have hreplied : (d.drainTasks M home now).replied = d.replied := by
      rw [Desk.replied, hsame.answered, Desk.replied]
    refine ⟨?_, ?_, ?_⟩
    · simp only [Desk.step, hsame.outstanding, hsame.requestId]
      exact h.sent
    · simp only [Desk.step, hreplied, hsame.requestId]
      exact h.replied
    · simp only [Desk.step, hsame.outstanding, hreplied]
      exact h.disjoint
  | reply request answer isError isLast =>
    simp only [Desk.step]
    split
    · rename_i henabled
      exact h.reply henabled.2 isError isLast
    · exact h
  | enqueue =>
    simp only [Desk.step]
    split
    · exact h
    · exact ⟨h.sent, h.replied, h.disjoint⟩
  | connection event =>
    simp only [Desk.step]
    split
    · exact ⟨h.sent, h.replied, h.disjoint⟩
    · exact h

/-- Markets of futures whose exchanges are given. -/
def exampleMarkets : Markets := ⟨fun _ _ => .Future, fun _ => ""⟩

end Desk

end Kungfu.Ctp
