import Kungfu.Logic.Json
import Kungfu.Logic.Table
import Kungfu.Longfist.Account
import Kungfu.Practice.Master
import Kungfu.Wingchun.Instrument
import Mathlib.Data.Finset.Image
import Mathlib.Data.List.TakeWhile

/-!
# The API service

The service keeps a session for each client that is connected, with what the client subscribes to:
instruments at a source of market data, and the orders and trades of strategies.  It tells the
sources what to publish, and reads the channels by which traders write to strategies.

Requests are handled one after another.  A handler that throws answers with the error, and what it
has done before stays.
-/

namespace Kungfu.Api

open Longfist Yijinjing Index Practice Logic

/-! ## Clients -/

/-- What a reader of `c_str` finds: the text up to its first null character. -/
def cStr (text : String) : String := String.ofList (text.toList.takeWhile (· ≠ Char.ofNat 0))

def INSTRUMENT_ID_LEN : ℕ := 32

def EXCHANGE_ID_LEN : ℕ := 16

/-- The texts fit in the fields of a record. -/
def IdsFit (exchangeId instrumentId : String) : Prop :=
  (exchangeId.utf8ByteSize < EXCHANGE_ID_LEN ∧ exchangeId.toList.contains (Char.ofNat 0) = false) ∧
    instrumentId.utf8ByteSize < INSTRUMENT_ID_LEN ∧ instrumentId.toList.contains (Char.ofNat 0) = false

instance (exchangeId instrumentId : String) : Decidable (IdsFit exchangeId instrumentId) :=
  inferInstanceAs (Decidable (_ ∧ _))

theorem cStr_of_not_contains {text : String} (h : text.toList.contains (Char.ofNat 0) = false) :
    cStr text = text := by
  have hall : ∀ c ∈ text.toList, (decide (c ≠ Char.ofNat 0)) = true := by
    rintro c hc
    rw [decide_eq_true_iff]
    rintro rfl
    simp [hc] at h
  rw [cStr, List.takeWhile_eq_self_iff.mpr hall, String.ofList_toList]

theorem IdsFit.cStr_eq {exchangeId instrumentId : String} (h : IdsFit exchangeId instrumentId) :
    cStr exchangeId = exchangeId ∧ cStr instrumentId = instrumentId :=
  ⟨cStr_of_not_contains h.1.2, cStr_of_not_contains h.2.2⟩

structure InstrumentKey where
  key : UInt32
  instrumentId : String
  exchangeId : String
  instrumentType : InstrumentType
  deriving DecidableEq, Repr

/-- What is queued for a client: the answer to a request, which is an error or a result, or an order
or a trade. -/
inductive Outgoing
  | response (requestId : UInt64) (reply : Except String Json)
  | strategyEvent (source dest : UInt32) (orderId : UInt64)

/-- The id of the request that is answered. -/
def Outgoing.requestId : Outgoing → Option UInt64
  | response requestId _ => some requestId
  | strategyEvent .. => none

structure ClientSession where
  subscribedKeys : AList fun _ : UInt32 => InstrumentKey
  mdSubscribedKeys : AList fun _ : UInt32 => AList fun _ : UInt32 => InstrumentKey
  subscribedStrategies : List UInt32
  sendQueue : List Outgoing

namespace ClientSession

def new : ClientSession := ⟨∅, ∅, [], []⟩

variable (c : ClientSession)

/-- An instrument is subscribed to at a source. -/
def addKey (md : UInt32) (key : InstrumentKey) : ClientSession :=
  { c with
    subscribedKeys := c.subscribedKeys.insert key.key key
    mdSubscribedKeys := c.mdSubscribedKeys.insert md
      (((c.mdSubscribedKeys.lookup md).getD ∅).insert key.key key) }

/-- An instrument is no longer subscribed to at a source. -/
def eraseKey (md key : UInt32) : ClientSession :=
  { c with
    subscribedKeys := c.subscribedKeys.erase key
    mdSubscribedKeys := match c.mdSubscribedKeys.lookup md with
      | none => c.mdSubscribedKeys
      | some keys =>
          if (keys.erase key).entries = [] then c.mdSubscribedKeys.erase md
          else c.mdSubscribedKeys.insert md (keys.erase key) }

def queue (message : Outgoing) : ClientSession := { c with sendQueue := c.sendQueue ++ [message] }

end ClientSession

/-! ## Sources of market data -/

/-- What is written to a source of market data. -/
inductive MdMessage
  | instrumentKey (key : InstrumentKey)
  | instrumentUnsubscribe (key : InstrumentKey)
  deriving DecidableEq, Repr

structure Sent where
  dest : UInt32
  message : MdMessage
  deriving DecidableEq, Repr

/-- What the broker client replays to a source that comes back. -/
structure BrokerClient where
  instrumentKeys : AList fun _ : UInt32 => InstrumentKey
  exchangeMdLocations : AList fun _ : String => UInt32
  instrumentMdLocations : AList fun _ : UInt32 => UInt32

namespace BrokerClient

variable (c : BrokerClient)

/-- `subscribe` of an instrument at a source. -/
def subscribe (md : UInt32) (exchangeId : String) (key : InstrumentKey) : BrokerClient where
  instrumentKeys := Table.tryEmplace key.key key c.instrumentKeys
  exchangeMdLocations := Table.tryEmplace exchangeId md c.exchangeMdLocations
  instrumentMdLocations := Table.tryEmplace key.key md c.instrumentMdLocations

/-- `unsubscribe` of an instrument. -/
def unsubscribe (key : UInt32) : BrokerClient :=
  { c with instrumentKeys := c.instrumentKeys.erase key }

/-- `unsubscribe` of an instrument at a source. -/
def unsubscribeAt (key : UInt32) : BrokerClient :=
  { c.unsubscribe key with instrumentMdLocations := c.instrumentMdLocations.erase key }

/-- The source to which `renew` writes an instrument. -/
def sourceLocation (key : InstrumentKey) : Option UInt32 :=
  match c.instrumentMdLocations.lookup key.key with
  | some md => some md
  | none => c.exchangeMdLocations.lookup key.exchangeId

/-- What `renew` writes to a source. -/
def renewed (md : UInt32) : List InstrumentKey :=
  (c.instrumentKeys.entries.map Sigma.snd).filter fun key => c.sourceLocation key = some md

end BrokerClient

/-- What is told to the sources, and kept to be told again. -/
structure MdFeed where
  client : BrokerClient
  sent : List Sent

/-! ## The service -/

/-- The tables of the service.  `pages` are the journals that have a page, `joins` those that the
service reads, and `hanging` those that it joined without a page: its next look for a frame follows
a null pointer there.  `relied` are the channels that are read for its bookkeeper and its broker
client, and `cleaned` the ids of clients whose sessions were cleaned up, until another client is
given the id. -/
structure ApiService where
  homeUid : UInt32
  locations : AList fun _ : UInt32 => Location
  registry : Finset UInt32
  writers : Finset UInt32
  pages : Finset Key
  joins : Finset Key
  hanging : Finset Key
  relied : Finset Key
  sessions : AList fun _ : UInt32 => ClientSession
  nextSessionId : UInt32
  cleaned : List UInt32
  manualOrderSessions : AList fun _ : UInt64 => UInt32
  md : MdFeed

/-- `uname`. -/
def uname (location : Location) : String :=
  s!"{categoryName location.category}/{location.group}/{location.name}/{modeName location.mode}"

/-- What a handler leaves, and what it throws. -/
abbrev Handled := ApiService × Option String

namespace ApiService

def start (homeUid : UInt32) : ApiService where
  homeUid := homeUid
  locations := ∅
  registry := ∅
  writers := ∅
  pages := ∅
  joins := ∅
  hanging := ∅
  relied := ∅
  sessions := ∅
  nextSessionId := 1
  cleaned := []
  manualOrderSessions := ∅
  md := ⟨⟨∅, ∅, ∅⟩, []⟩

section Model

variable (s : ApiService)

/-- `sessions_[session_id]`. -/
def session (id : UInt32) : ClientSession := (s.sessions.lookup id).getD .new

def setSession (id : UInt32) (c : ClientSession) : ApiService :=
  { s with sessions := s.sessions.insert id c }

/-- A location is a trader. -/
def IsTd (uid : UInt32) : Prop := ∃ location ∈ s.locations.lookup uid, location.category = .TD

instance (uid : UInt32) : Decidable (s.IsTd uid) :=
  match h : s.locations.lookup uid with
  | none => isFalse (by simp [IsTd, h])
  | some location => decidable_of_iff (location.category = .TD) (by simp [IsTd, h])

/-! ### Market data -/

/-- The `InstrumentKey` of an instrument. -/
def instrumentKeyOf (exchangeId instrumentId : String) : Except Wingchun.Fault InstrumentKey := do
  let instrumentType ← Wingchun.getInstrumentType exchangeId instrumentId
  .ok ⟨hashInstrument (cStr exchangeId) (cStr instrumentId), cStr instrumentId, cStr exchangeId,
    instrumentType⟩

/-- Some session subscribes to an instrument. -/
def SubscribedKey (key : UInt32) : Prop := ∃ entry ∈ s.sessions.entries, key ∈ entry.2.subscribedKeys

/-- Some other session does. -/
def NeededByOthers (id key : UInt32) : Prop :=
  ∃ entry ∈ s.sessions.entries, entry.1 ≠ id ∧ key ∈ entry.2.subscribedKeys

instance (key : UInt32) : Decidable (s.SubscribedKey key) := List.decidableBEx _ _

instance (id key : UInt32) : Decidable (s.NeededByOthers id key) := List.decidableBEx _ _

def handleRequestMarketData (id : UInt32) (md : Option Location)
    (exchangeId instrumentId : String) : Handled :=
  match md with
  | none => (s, some "invalid md location")
  | some md =>
      if md.uid ∉ s.writers then (s, some s!"md {uname md} writer not ready")
      else if exchangeId = "" ∨ instrumentId = "" then
        (s, some "exchange_id and instrument_id are required")
      else match instrumentKeyOf exchangeId instrumentId with
        | .error _ => (s, some "stoi")
        | .ok key =>
            ({ s with
                md := {
                  client := s.md.client.subscribe md.uid exchangeId key
                  sent := if s.SubscribedKey key.key then s.md.sent
                    else s.md.sent ++ [⟨md.uid, .instrumentKey key⟩] }
                sessions := s.sessions.insert id ((s.session id).addKey md.uid key) }, none)

/-- The session forgets the instrument before anything can throw. -/
def handleCancelMarketData (id : UInt32) (md : Option Location)
    (exchangeId instrumentId : String) : Handled :=
  match md with
  | none => (s, some "invalid md location")
  | some md =>
      let key := hashInstrument (cStr exchangeId) (cStr instrumentId)
      let s := s.setSession id ((s.session id).eraseKey md.uid key)
      if s.NeededByOthers id key ∨ md.uid ∉ s.writers then (s, none)
      else match instrumentKeyOf exchangeId instrumentId with
        | .error _ => (s, some "stoi")
        | .ok key =>
            ({ s with md := {
                client := s.md.client.unsubscribeAt key.key
                sent := s.md.sent ++ [⟨md.uid, .instrumentUnsubscribe key⟩] } }, none)

/-! ### Strategies -/

/-- The journal is read, or has a page from which it can be. -/
def Opens (k : Key) : Prop := k ∈ s.joins ∨ k ∈ s.pages

instance (k : Key) : Decidable (s.Opens k) := inferInstanceAs (Decidable (_ ∨ _))

/-- `reader_->join`; a journal without a page stays in the reader, and the join throws. -/
def join (k : Key) : Handled :=
  if s.Opens k then ({ s with joins := insert k s.joins }, none)
  else ({ s with hanging := insert k s.hanging },
    some s!"page file {k.location}/{k.dest}.1 not ready (size 0)")

/-- The channels of the live traders among some locations to a strategy are joined. -/
def joinTraders (strategy : UInt32) : List UInt32 → ApiService → Handled
  | [], s => (s, none)
  | uid :: uids, s =>
      if s.IsTd uid ∧ uid ∈ s.registry then
        match s.join ⟨uid, strategy⟩ with
        | (s, none) => joinTraders strategy uids s
        | thrown => thrown
      else joinTraders strategy uids s

/-- The channel of every live trader to a strategy is read. -/
def joinStrategy (strategy : UInt32) : Handled := joinTraders strategy s.locations.keys s

/-- The channel of every trader to a strategy is no longer read. -/
def disjoinStrategy (strategy : UInt32) : ApiService :=
  { s with
    joins := s.joins.filter fun k => ¬ (s.IsTd k.location ∧ k.dest = strategy)
    hanging := s.hanging.filter fun k => ¬ (s.IsTd k.location ∧ k.dest = strategy) }

/-- Some session subscribes to a strategy. -/
def SubscribedStrategy (strategy : UInt32) : Prop :=
  ∃ entry ∈ s.sessions.entries, strategy ∈ entry.2.subscribedStrategies

instance (strategy : UInt32) : Decidable (s.SubscribedStrategy strategy) := List.decidableBEx _ _

/-- A strategy to which a session no longer subscribes. -/
def dropStrategy (strategy : UInt32) : ApiService :=
  if s.SubscribedStrategy strategy then s else s.disjoinStrategy strategy

def handleSubscribeStrategy (id : UInt32) (strat : Option Location) : Handled :=
  match strat with
  | none => (s, some "invalid strategy location")
  | some strat =>
      if strat.category ≠ .STRATEGY then (s, some s!"{uname strat} is not a strategy")
      else match s.sessions.lookup id with
        | none => (s, some "session not found")
        | some c =>
            if strat.uid ∈ c.subscribedStrategies then (s, none)
            else
              let c := { c with subscribedStrategies := strat.uid :: c.subscribedStrategies }
              (s.setSession id c).joinStrategy strat.uid

def handleUnsubscribeStrategy (id : UInt32) (strat : Option Location) : Handled :=
  match strat with
  | none => (s, some "invalid strategy location")
  | some strat =>
      if strat.category ≠ .STRATEGY then (s, some s!"{uname strat} is not a strategy")
      else match s.sessions.lookup id with
        | none => (s, some "session not found")
        | some c =>
            let c := { c with
              subscribedStrategies := c.subscribedStrategies.filter (· ≠ strat.uid) }
            ((s.setSession id c).dropStrategy strat.uid, none)

/-- `push_strategy_event`: the event of an order that a client issued goes to that client, and any
other to the clients that subscribe to the strategy. -/
def pushStrategyEvent (source dest : UInt32) (orderId : UInt64) : ApiService :=
  let message := Outgoing.strategyEvent source dest orderId
  match s.manualOrderSessions.lookup orderId with
  | some id =>
      match s.sessions.lookup id with
      | none => s
      | some c => s.setSession id (c.queue message)
  | none =>
      { s with
        sessions := Table.map
          (fun _ c => if dest ∈ c.subscribedStrategies then c.queue message else c) s.sessions }

/-! ### Clients -/

/-- A client is accepted. -/
def accept : ApiService :=
  { s with
    nextSessionId := s.nextSessionId + 1
    cleaned := s.cleaned.filter (· ≠ s.nextSessionId)
    sessions := Table.tryEmplace s.nextSessionId .new s.sessions }

/-- An instrument is told to a source to be unsubscribed, unless a session needs it. -/
def unsubscribeKey (md : UInt32) (feed : MdFeed) (entry : Sigma fun _ : UInt32 => InstrumentKey) :
    MdFeed :=
  if s.SubscribedKey entry.1 then feed
  else {
    client := feed.client.unsubscribe (hashInstrument entry.2.exchangeId entry.2.instrumentId)
    sent := feed.sent ++ [⟨md, .instrumentUnsubscribe entry.2⟩] }

/-- All instruments of a source. -/
def unsubscribeKeys (feed : MdFeed)
    (entry : Sigma fun _ : UInt32 => AList fun _ : UInt32 => InstrumentKey) : MdFeed :=
  if entry.1 ∈ s.writers then entry.2.entries.foldl (s.unsubscribeKey entry.1) feed else feed

/-- The session of a client that is gone is taken out of the table. -/
def eraseSession (id : UInt32) : ApiService :=
  { s with
    sessions := s.sessions.erase id
    manualOrderSessions := Table.eraseIf (fun entry => entry.2 = id) s.manualOrderSessions }

def cleanupSession (id : UInt32) : ApiService :=
  let s := { s with cleaned := id :: s.cleaned }
  match s.sessions.lookup id with
  | none => s
  | some c =>
      let s := s.eraseSession id
      let s := { s with md := c.mdSubscribedKeys.entries.foldl s.unsubscribeKeys s.md }
      c.subscribedStrategies.foldl dropStrategy s

/-! ### Journals -/

/-- `on_read_from` and its siblings, for what the broker client and the bookkeeper read. -/
def onReadFrom (source dest : UInt32) : ApiService :=
  if source ∈ s.locations then
    { (s.join ⟨source, dest⟩).1 with relied := insert ⟨source, dest⟩ s.relied }
  else s

/-- `on_deregister`. -/
def onDeregister (uid : UInt32) : ApiService :=
  if uid = s.homeUid then s
  else
    { s with
      joins := s.joins.filter fun k => k.location ≠ uid
      hanging := s.hanging.filter fun k => k.location ≠ uid
      relied := s.relied.filter fun k => k.location ≠ uid
      registry := s.registry.erase uid }

end Model

end ApiService

/-! ## Steps -/

/-- What changes the tables of the service; a request names the location that it is resolved to. -/
inductive Op
  | accept
  | onWriteTo (dest : UInt32)
  | addLocation (location : Location)
  /-- The first page of a journal is made. -/
  | page (k : Key)
  | register (uid : UInt32)
  | deregister (uid : UInt32)
  | readFrom (source dest : UInt32)
  | requestMarketData (id : UInt32) (md : Option Location) (exchangeId instrumentId : String)
  | cancelMarketData (id : UInt32) (md : Option Location) (exchangeId instrumentId : String)
  | subscribeStrategy (id : UInt32) (strat : Option Location)
  | unsubscribeStrategy (id : UInt32) (strat : Option Location)
  /-- What `handle_issue_order` keeps of an order. -/
  | issueOrder (id : UInt32) (orderId : UInt64)
  | strategyEvent (source dest : UInt32) (orderId : UInt64)
  | cleanup (id : UInt32)

namespace ApiService

def step (s : ApiService) : Op → ApiService
  | .accept => s.accept
  | .onWriteTo dest => { s with writers := insert dest s.writers }
  | .addLocation location =>
      { s with locations := Table.tryEmplace location.uid location s.locations }
  | .page k => { s with pages := insert k s.pages }
  | .register uid => { s with registry := insert uid s.registry }
  | .deregister uid => s.onDeregister uid
  | .readFrom source dest => s.onReadFrom source dest
  | .requestMarketData id md exchangeId instrumentId =>
      (s.handleRequestMarketData id md exchangeId instrumentId).1
  | .cancelMarketData id md exchangeId instrumentId =>
      (s.handleCancelMarketData id md exchangeId instrumentId).1
  | .subscribeStrategy id strat => (s.handleSubscribeStrategy id strat).1
  | .unsubscribeStrategy id strat => (s.handleUnsubscribeStrategy id strat).1
  | .issueOrder id orderId =>
      { s with manualOrderSessions := s.manualOrderSessions.insert orderId id }
  | .strategyEvent source dest orderId => s.pushStrategyEvent source dest orderId
  | .cleanup id => s.cleanupSession id

abbrev run (s : ApiService) (ops : List Op) : ApiService := ops.foldl step s

/-! ## What is found after a change -/

section Tables

variable {s : ApiService} {id id' key strategy : UInt32} {c : ClientSession}

theorem subscribedKey_iff :
    s.SubscribedKey key ↔ ∃ id c, s.sessions.lookup id = some c ∧ key ∈ c.subscribedKeys := by
  constructor
  · rintro ⟨⟨id, c⟩, hentry, hkey⟩
    exact ⟨id, c, AList.mem_lookup_iff.mpr hentry, hkey⟩
  · rintro ⟨id, c, hlookup, hkey⟩
    exact ⟨⟨id, c⟩, AList.mem_lookup_iff.mp hlookup, hkey⟩

theorem neededByOthers_iff : s.NeededByOthers id key ↔
    ∃ id' c, s.sessions.lookup id' = some c ∧ id' ≠ id ∧ key ∈ c.subscribedKeys := by
  constructor
  · rintro ⟨⟨id', c⟩, hentry, hne, hkey⟩
    exact ⟨id', c, AList.mem_lookup_iff.mpr hentry, hne, hkey⟩
  · rintro ⟨id', c, hlookup, hne, hkey⟩
    exact ⟨⟨id', c⟩, AList.mem_lookup_iff.mp hlookup, hne, hkey⟩

theorem subscribedStrategy_iff : s.SubscribedStrategy strategy ↔
    ∃ id c, s.sessions.lookup id = some c ∧ strategy ∈ c.subscribedStrategies := by
  constructor
  · rintro ⟨⟨id, c⟩, hentry, hstrategy⟩
    exact ⟨id, c, AList.mem_lookup_iff.mpr hentry, hstrategy⟩
  · rintro ⟨id, c, hlookup, hstrategy⟩
    exact ⟨⟨id, c⟩, AList.mem_lookup_iff.mp hlookup, hstrategy⟩

theorem session_of_lookup (h : s.sessions.lookup id = some c) : s.session id = c := by
  simp [session, h]

@[simp] theorem session_setSession :
    (s.setSession id c).session id' = if id' = id then c else s.session id' := by
  by_cases h : id' = id
  · subst h
    simp [session, setSession]
  · simp [session, setSession, h]

theorem session_eraseSession :
    (s.eraseSession id).session id' = if id' = id then .new else s.session id' := by
  by_cases h : id' = id
  · subst h
    simp [session, eraseSession]
  · simp [session, eraseSession, h]

theorem session_accept : s.accept.session id = s.session id := by
  by_cases hmem : s.nextSessionId ∈ s.sessions
  · simp [session, accept, Table.tryEmplace_of_mem hmem]
  · have hlookup := congrFun (Table.lookup_tryEmplace_eq (c := ClientSession.new) hmem) id
    rw [session, session, accept, hlookup]
    by_cases hid : id = s.nextSessionId
    · subst hid
      simp [AList.lookup_eq_none.mpr hmem]
    · simp [hid]

/-- A channel of a trader to one of some strategies to which nobody subscribes. -/
def Dropped (strategies : List UInt32) (s : ApiService) (k : Key) : Prop :=
  s.IsTd k.location ∧ k.dest ∈ strategies ∧ ¬ s.SubscribedStrategy k.dest

instance (strategies : List UInt32) (s : ApiService) (k : Key) :
    Decidable (s.Dropped strategies k) := inferInstanceAs (Decidable (_ ∧ _))

/-- What the loop over the strategies of a session takes out of the journals. -/
theorem foldl_dropStrategy (strategies : List UInt32) (s : ApiService) :
    strategies.foldl dropStrategy s =
      { s with
        joins := s.joins.filter fun k => ¬ s.Dropped strategies k
        hanging := s.hanging.filter fun k => ¬ s.Dropped strategies k } := by
  induction strategies generalizing s with
  | nil => simp [Dropped]
  | cons strategy strategies ih =>
      rw [List.foldl_cons, ih, dropStrategy]
      by_cases hneeded : s.SubscribedStrategy strategy
      · rw [if_pos hneeded]
        have hfilter : ∀ keys : Finset Key, keys.filter (fun k => ¬ s.Dropped strategies k) =
            keys.filter fun k => ¬ s.Dropped (strategy :: strategies) k := by
          refine fun keys => Finset.filter_congr fun k _ => ?_
          have hdest : k.dest = strategy → s.SubscribedStrategy k.dest := fun h => h ▸ hneeded
          simp only [Dropped, List.mem_cons]
          tauto
        rw [hfilter, hfilter]
      · rw [if_neg hneeded, disjoinStrategy]
        have hfilter : ∀ keys : Finset Key,
            (keys.filter fun k => ¬ (s.IsTd k.location ∧ k.dest = strategy)).filter
              (fun k => ¬ s.Dropped strategies k) =
            keys.filter fun k => ¬ s.Dropped (strategy :: strategies) k := by
          intro keys
          rw [Finset.filter_filter]
          refine Finset.filter_congr fun k _ => ?_
          have hdest : k.dest = strategy → ¬ s.SubscribedStrategy k.dest := fun h => h ▸ hneeded
          simp only [Dropped, List.mem_cons]
          tauto
        rw [← hfilter s.joins, ← hfilter s.hanging]
        rfl

/-- All channels of live traders are joined if each can be read. -/
theorem joinTraders_of_opens (strategy : UInt32) (uids : List UInt32) (s : ApiService)
    (h : ∀ uid ∈ uids, s.IsTd uid → uid ∈ s.registry → s.Opens ⟨uid, strategy⟩) :
    ∃ joins, joinTraders strategy uids s = ({ s with joins := joins }, none) ∧ s.joins ⊆ joins ∧
      ∀ uid ∈ uids, s.IsTd uid → uid ∈ s.registry → ⟨uid, strategy⟩ ∈ joins := by
  induction uids generalizing s with
  | nil => exact ⟨s.joins, rfl, Finset.Subset.refl _, by simp⟩
  | cons uid uids ih =>
      rw [joinTraders]
      by_cases hlive : s.IsTd uid ∧ uid ∈ s.registry
      · have hopens := h uid (List.mem_cons_self ..) hlive.1 hlive.2
        rw [if_pos hlive, join, if_pos hopens]
        obtain ⟨joins, hjoins, hsub, hall⟩ := ih { s with joins := insert ⟨uid, strategy⟩ s.joins }
          fun uid' hmem htd hregistered =>
            (h uid' (List.mem_cons_of_mem _ hmem) htd hregistered).imp_left (Finset.mem_insert_of_mem ·)
        refine ⟨joins, hjoins, (Finset.subset_insert _ _).trans hsub, fun uid' hmem htd hreg => ?_⟩
        rcases List.mem_cons.mp hmem with rfl | hmem
        · exact hsub (Finset.mem_insert_self _ _)
        · exact hall uid' hmem htd hreg
      · rw [if_neg hlive]
        obtain ⟨joins, hjoins, hsub, hall⟩ := ih s
          fun uid' hmem => h uid' (List.mem_cons_of_mem _ hmem)
        refine ⟨joins, hjoins, hsub, fun uid' hmem htd hreg => ?_⟩
        rcases List.mem_cons.mp hmem with rfl | hmem
        · exact absurd ⟨htd, hreg⟩ hlive
        · exact hall uid' hmem htd hreg

/-- A channel of a live trader that cannot be read is left without a page. -/
theorem joinTraders_of_not_opens (strategy : UInt32) (uids : List UInt32) (s : ApiService)
    (h : ∃ uid ∈ uids, s.IsTd uid ∧ uid ∈ s.registry ∧ ¬ s.Opens ⟨uid, strategy⟩) :
    ∃ joins k text, joinTraders strategy uids s =
      ({ s with joins := joins, hanging := insert k s.hanging }, some text) := by
  induction uids generalizing s with
  | nil =>
      obtain ⟨uid, hmem, -⟩ := h
      cases hmem
  | cons uid uids ih =>
      obtain ⟨uid', hmem, htd, hreg, hnot⟩ := h
      rw [joinTraders]
      by_cases hlive : s.IsTd uid ∧ uid ∈ s.registry
      · rw [if_pos hlive, join]
        by_cases hopens : s.Opens ⟨uid, strategy⟩
        · rw [if_pos hopens]
          have hne : uid' ≠ uid := fun heq => hnot (heq ▸ hopens)
          refine ih { s with joins := insert ⟨uid, strategy⟩ s.joins }
            ⟨uid', (List.mem_cons.mp hmem).resolve_left hne, htd, hreg, fun hopens' => hnot ?_⟩
          refine hopens'.imp_left fun hjoined => ?_
          rcases Finset.mem_insert.mp hjoined with heq | hjoined
          · exact absurd (Key.mk.inj heq).1 hne
          · exact hjoined
        · rw [if_neg hopens]
          exact ⟨s.joins, _, _, rfl⟩
      · rw [if_neg hlive]
        refine ih s ⟨uid', (List.mem_cons.mp hmem).resolve_left ?_, htd, hreg, hnot⟩
        rintro rfl
        exact hlive ⟨htd, hreg⟩

/-- Joining changes nothing but the journals of the reader. -/
theorem exists_join (s : ApiService) (k : Key) :
    ∃ joins hanging, (s.join k).1 = { s with joins := joins, hanging := hanging } := by
  unfold join
  split
  · exact ⟨_, s.hanging, rfl⟩
  · exact ⟨s.joins, _, rfl⟩

theorem exists_joinTraders (strategy : UInt32) (uids : List UInt32) (s : ApiService) :
    ∃ joins hanging, (joinTraders strategy uids s).1 =
      { s with joins := joins, hanging := hanging } := by
  by_cases h : ∀ uid ∈ uids, s.IsTd uid → uid ∈ s.registry → s.Opens ⟨uid, strategy⟩
  · obtain ⟨joins, hjoins, -⟩ := joinTraders_of_opens strategy uids s h
    exact ⟨joins, s.hanging, by rw [hjoins]⟩
  · push Not at h
    obtain ⟨joins, k, text, hjoins⟩ := joinTraders_of_not_opens strategy uids s h
    exact ⟨joins, _, by rw [hjoins]⟩

end Tables

end ApiService

end Kungfu.Api
