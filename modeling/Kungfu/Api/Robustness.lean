import Kungfu.Api.MarketData
import Kungfu.Api.Requests
import Kungfu.Api.Strategies
import Kungfu.Wingchun.Atomicity

/-!
# What requests leave behind

Every request is answered once, and one that is answered with an error leaves the tables and the
books as they were, except for a few.  A method that is no text is read where nothing is caught.  A
text that is too long for its field is copied past its end.  A session gives up an instrument before
its type is looked up, which may throw, and takes up a strategy before the channels are joined.  An
order is sent before it is booked.
-/

namespace Kungfu.Api

open Longfist Yijinjing Index Practice Logic

/-! ## Sessions -/

namespace ApiService

/-- What is queued for clients, and that they have sessions, is kept. -/
structure QueuesKept (s t : ApiService) : Prop where
  queue : ∀ id, (t.session id).sendQueue = (s.session id).sendQueue
  present : ∀ id ∈ s.sessions, id ∈ t.sessions

section Kept

variable {s t u : ApiService} {id : UInt32} {c : ClientSession}

theorem QueuesKept.of_sessions (h : t.sessions = s.sessions) : QueuesKept s t where
  queue id := by rw [session, session, h]
  present id hid := by rwa [h]

theorem QueuesKept.trans (h : QueuesKept s t) (h' : QueuesKept t u) : QueuesKept s u where
  queue id := (h'.queue id).trans (h.queue id)
  present id hid := h'.present id (h.present id hid)

/-- A session is changed, but for its queue. -/
theorem queuesKept_setSession (hqueue : c.sendQueue = (s.session id).sendQueue) :
    QueuesKept s (s.setSession id c) where
  queue id' := by
    rw [session_setSession]
    split
    · rename_i hid
      rw [hid, hqueue]
    · rfl
  present id' hid' := (AList.mem_insert _).mpr (.inr hid')

theorem queuesKept_handleRequestMarketData (md : Option Location) (exchangeId instrumentId : String) :
    QueuesKept s (s.handleRequestMarketData id md exchangeId instrumentId).1 := by
  unfold handleRequestMarketData
  cases md with
  | none => exact .of_sessions rfl
  | some md =>
      dsimp only
      split
      · exact .of_sessions rfl
      split
      · exact .of_sessions rfl
      cases instrumentKeyOf exchangeId instrumentId with
      | error fault => exact .of_sessions rfl
      | ok key =>
          exact (queuesKept_setSession (c := (s.session id).addKey md.uid key) rfl).trans
            (.of_sessions rfl)

theorem queuesKept_handleCancelMarketData (md : Option Location) (exchangeId instrumentId : String) :
    QueuesKept s (s.handleCancelMarketData id md exchangeId instrumentId).1 := by
  unfold handleCancelMarketData
  cases md with
  | none => exact .of_sessions rfl
  | some md =>
      have hkept : QueuesKept s (s.setSession id ((s.session id).eraseKey md.uid
          (hashInstrument (cStr exchangeId) (cStr instrumentId)))) := queuesKept_setSession rfl
      dsimp only
      split
      · exact hkept
      cases instrumentKeyOf exchangeId instrumentId with
      | error fault => exact hkept
      | ok key => exact hkept.trans (.of_sessions rfl)

theorem queuesKept_handleSubscribeStrategy (strat : Option Location) :
    QueuesKept s (s.handleSubscribeStrategy id strat).1 := by
  unfold handleSubscribeStrategy
  cases strat with
  | none => exact .of_sessions rfl
  | some strat =>
      dsimp only
      split
      · exact .of_sessions rfl
      cases hlookup : s.sessions.lookup id with
      | none => exact .of_sessions rfl
      | some c =>
          dsimp only
          split
          · exact .of_sessions rfl
          · let c' := { c with subscribedStrategies := strat.uid :: c.subscribedStrategies }
            have hkept : QueuesKept s (s.setSession id c') := by
              refine queuesKept_setSession ?_
              rw [session_of_lookup hlookup]
            obtain ⟨joins, hanging, hjoined⟩ := exists_joinTraders strat.uid
              (s.setSession id c').locations.keys (s.setSession id c')
            rw [joinStrategy, hjoined]
            exact hkept.trans (.of_sessions rfl)

theorem sessions_dropStrategy (strategy : UInt32) : (s.dropStrategy strategy).sessions = s.sessions := by
  unfold dropStrategy
  split <;> rfl

theorem hanging_dropStrategy (strategy : UInt32) : (s.dropStrategy strategy).hanging ⊆ s.hanging := by
  unfold dropStrategy
  split
  · exact Finset.Subset.refl _
  · exact fun k hk => (Finset.mem_filter.mp hk).1

theorem queuesKept_handleUnsubscribeStrategy (strat : Option Location) :
    QueuesKept s (s.handleUnsubscribeStrategy id strat).1 := by
  unfold handleUnsubscribeStrategy
  cases strat with
  | none => exact .of_sessions rfl
  | some strat =>
      dsimp only
      split
      · exact .of_sessions rfl
      cases hlookup : s.sessions.lookup id with
      | none => exact .of_sessions rfl
      | some c =>
          refine QueuesKept.trans (queuesKept_setSession ?_) (.of_sessions (sessions_dropStrategy _))
          rw [session_of_lookup hlookup]

end Kept

end ApiService

/-! ## What is asked of a request -/

/-- Two sessions have the same subscriptions and the same queue. -/
structure SameSession (c c' : ClientSession) : Prop where
  keys : ∀ key, c'.subscribedKeys.lookup key = c.subscribedKeys.lookup key
  mdKeys : ∀ md key, c'.mdKey md key = c.mdKey md key
  strategies : c'.subscribedStrategies = c.subscribedStrategies
  queue : c'.sendQueue = c.sendQueue

theorem SameSession.refl (c : ClientSession) : SameSession c c :=
  ⟨fun _ => rfl, fun _ _ => rfl, rfl, rfl⟩

namespace Request

variable (r : Request)

/-- The body is an object whose method, if it has one, is a text. -/
def MethodIsText : Prop :=
  ∃ members, r.body = .object members ∧
    ∀ j, members.lookup "method" = some j → ∃ text, j = .string text

def method : String :=
  match r.body.member "method" with
  | some (.string text) => text
  | _ => ""

def data : Json := (r.body.member "data").getD (.object [])

end Request

namespace Server

section Model

variable (env : Env) (id : UInt32) (data : Json) (s t : Server)

/-- The sessions, the other tables and the books are as they were; a book that was made is still
empty. -/
structure Unchanged : Prop where
  sessions : ∀ id, Option.Rel SameSession (s.service.sessions.lookup id) (t.service.sessions.lookup id)
  tables : t.service = { s.service with sessions := t.service.sessions }
  books : ∀ uid, Wingchun.getBook (s.app env) t.books uid = Wingchun.getBook (s.app env) s.books uid

/-- No text of the order is too long for its field, and the books take the order as a whole. -/
def SoundOrder : Prop :=
  s.service.issuedOrder env.homeMode env.frameUid env.now data ≠ .error .overflow ∧
    ∀ account input, s.service.issuedOrder env.homeMode env.frameUid env.now data =
        .ok (account, input) →
      Wingchun.SafeUpdate (s.app env) env.market (s.bookInput env account input) s.books

/-- The ids are not too long where they are copied. -/
def SoundRequestMarketData : Prop :=
  ∀ md exchangeId instrumentId, s.service.resolveLocation env.homeMode data = .ok (some md) →
    md.uid ∈ s.service.writers → readIds data = .ok (exchangeId, instrumentId) →
      exchangeId ≠ "" → instrumentId ≠ "" → IdsCopied exchangeId instrumentId

/-- The session does not have the instrument. -/
def Lacks (md : Location) (exchangeId instrumentId : String) : Prop :=
  ∃ c ∈ s.service.sessions.lookup id,
    hashInstrument (cStr exchangeId) (cStr instrumentId) ∉ c.subscribedKeys ∧
      c.mdKey md.uid (hashInstrument (cStr exchangeId) (cStr instrumentId)) = none

/-- Where a source is told, the ids are not too long, and the type of the instrument can be told or
the session does not have the instrument. -/
def SoundCancelMarketData : Prop :=
  ∀ md exchangeId instrumentId, s.service.resolveLocation env.homeMode data = .ok (some md) →
    readIds data = .ok (exchangeId, instrumentId) → s.Tells id md exchangeId instrumentId →
      IdsCopied exchangeId instrumentId ∧
        ((Wingchun.getInstrumentType exchangeId instrumentId).isOk = true ∨
          s.Lacks id md exchangeId instrumentId)

/-- The channels that are to be joined can be read. -/
def SoundSubscribeStrategy : Prop :=
  ∀ strat, s.service.resolveLocation env.homeMode data = .ok strat →
    s.service.Joins (.subscribeStrategy id strat)

/-- What is asked of the data of a request. -/
def SoundData (method : String) : Prop :=
  match method with
  | "issue_order" => s.SoundOrder env data
  | "request_market_data" => s.SoundRequestMarketData env data
  | "cancel_market_data" => s.SoundCancelMarketData env id data
  | "subscribe_strategy" => s.SoundSubscribeStrategy env id data
  | _ => True

def SoundRequest (r : Request) : Prop := r.MethodIsText ∧ s.SoundData env r.sessionId r.data r.method

/-- What a handler leaves and answers. -/
structure Answers (p : Server × Reply) : Prop where
  queues : ApiService.QueuesKept s.service p.1.service
  hanging : p.1.service.hanging ⊆ s.service.hanging
  requestQueue : p.1.requestQueue = s.requestQueue
  stopped : p.1.stopped = s.stopped
  caught : p.2 ≠ .error .overflow
  unchanged : ∀ thrown, p.2 = .error thrown → s.Unchanged env p.1

end Model

/-! ## Handlers -/

section Handlers

variable {env : Env} {id : UInt32} {data : Json} {s t : Server} {reply : Reply}

theorem Unchanged.refl (env : Env) (s : Server) : s.Unchanged env s where
  sessions id := by
    cases s.service.sessions.lookup id with
    | none => exact .none
    | some c => exact .some (.refl c)
  tables := rfl
  books _ := rfl

/-- What only writes a frame keeps everything. -/
theorem Answers.of_service (hservice : t.service = s.service) (hbooks : t.books = s.books)
    (hrequests : t.requestQueue = s.requestQueue) (hstopped : t.stopped = s.stopped)
    (hcaught : reply ≠ .error .overflow) : s.Answers env (t, reply) where
  queues := .of_sessions (by rw [hservice])
  hanging := by rw [hservice]
  requestQueue := hrequests
  stopped := hstopped
  caught := hcaught
  unchanged _ _ := by
    obtain ⟨hsessions, -, -⟩ := Unchanged.refl env s
    exact ⟨fun id => by rw [hservice]; exact hsessions id, by rw [hservice], fun uid => by rw [hbooks]⟩

theorem answers_exception (what : String) : s.Answers env (s, .error (.exception what)) :=
  .of_service rfl rfl rfl rfl (by simp)

/-- What throws at most exceptions does not leave a handler. -/
theorem answers_liftM (x : Except String Json) : s.Answers env (s, liftM x) := by
  refine .of_service rfl rfl rfl rfl ?_
  cases x <;> simp

/-- A handler of the tables. -/
theorem answers_lift {handled : Handled} {result : Json}
    (hqueues : ApiService.QueuesKept s.service handled.1)
    (hhanging : handled.1.hanging ⊆ s.service.hanging)
    (hsame : ∀ what, handled.2 = some what →
      s.Unchanged env { s with service := handled.1 }) : s.Answers env (s.lift handled result) where
  queues := hqueues
  hanging := hhanging
  requestQueue := rfl
  stopped := rfl
  caught := by
    unfold lift
    cases handled.2 <;> simp
  unchanged thrown hthrown := by
    cases hwhat : handled.2 with
    | none => simp [lift, hwhat] at hthrown
    | some what => exact hsame what hwhat

/-- A handler of the tables that throws nothing after a change. -/
theorem unchanged_of_eq {service : ApiService} (h : service = s.service) :
    s.Unchanged env { s with service := service } := by
  rw [h]
  exact .refl env s

theorem answers_handleIssueOrder (h : s.SoundOrder env data) :
    s.Answers env (s.handleIssueOrder env id data) := by
  unfold handleIssueOrder
  cases hissued : s.service.issuedOrder env.homeMode env.frameUid env.now data with
  | error thrown =>
      refine .of_service rfl rfl rfl rfl ?_
      exact fun heq => h.1 (by rw [hissued, Except.error.inj heq])
  | ok issued =>
      obtain ⟨account, input⟩ := issued
      have hsafe := Wingchun.totalOrAtomic_of_safe (h.2 account input hissued)
      dsimp only
      split
      · rename_i thrown herror
        exact ⟨.of_sessions rfl, Finset.Subset.refl _, rfl, rfl, by simp, fun _ _ =>
          ⟨(Unchanged.refl env s).sessions, rfl, (hsafe thrown herror).2⟩⟩
      · exact ⟨.of_sessions rfl, Finset.Subset.refl _, rfl, rfl, by simp, fun _ hthrown => by
          cases hthrown⟩

theorem answers_handleCancelOrder : s.Answers env (s.handleCancelOrder env data) := by
  unfold handleCancelOrder
  split
  · exact answers_exception _
  · exact .of_service rfl rfl rfl rfl (by simp)

/-- What only the tables throw. -/
theorem handleRequestMarketData_of_error {md : Option Location} {exchangeId instrumentId : String}
    (h : (s.service.handleRequestMarketData id md exchangeId instrumentId).2.isSome) :
    (s.service.handleRequestMarketData id md exchangeId instrumentId).1 = s.service := by
  revert h
  unfold ApiService.handleRequestMarketData
  cases md with
  | none => simp
  | some md =>
      dsimp only
      split
      · simp
      split
      · simp
      cases ApiService.instrumentKeyOf exchangeId instrumentId <;> simp

theorem hanging_handleRequestMarketData (md : Option Location) (exchangeId instrumentId : String) :
    (s.service.handleRequestMarketData id md exchangeId instrumentId).1.hanging = s.service.hanging := by
  unfold ApiService.handleRequestMarketData
  cases md with
  | none => rfl
  | some md =>
      dsimp only
      split
      · rfl
      split
      · rfl
      cases ApiService.instrumentKeyOf exchangeId instrumentId <;> rfl

theorem answers_lift_handleRequestMarketData (md : Option Location)
    (exchangeId instrumentId : String) (result : Json) :
    s.Answers env
      (s.lift (s.service.handleRequestMarketData id md exchangeId instrumentId) result) := by
  refine answers_lift (ApiService.queuesKept_handleRequestMarketData md exchangeId instrumentId)
    (hanging_handleRequestMarketData md exchangeId instrumentId).subset fun what hwhat => ?_
  exact unchanged_of_eq (handleRequestMarketData_of_error (by rw [hwhat]; rfl))

theorem answers_handleRequestMarketData (h : s.SoundRequestMarketData env data) :
    s.Answers env (s.handleRequestMarketData env id data) := by
  unfold handleRequestMarketData
  cases hmd : s.service.resolveLocation env.homeMode data with
  | error what => exact answers_exception what
  | ok md =>
      dsimp only
      split
      · rename_i hwriter
        obtain ⟨location, rfl, hwriter⟩ := hwriter
        cases hids : readIds data with
        | error what => exact answers_exception what
        | ok ids =>
            obtain ⟨exchangeId, instrumentId⟩ := ids
            dsimp only
            rw [if_neg fun hlong => hlong.2.2 (h location exchangeId instrumentId hmd hwriter hids
              hlong.1 hlong.2.1)]
            exact answers_lift_handleRequestMarketData _ _ _ _
      · exact answers_lift_handleRequestMarketData _ _ _ _

/-- A session that does not have an instrument is the same without it. -/
theorem sameSession_eraseKey {c : ClientSession} {md key : UInt32} (hkey : key ∉ c.subscribedKeys)
    (hmd : c.mdKey md key = none) : SameSession c (c.eraseKey md key) where
  keys key' := by
    rw [ClientSession.eraseKey, Table.lookup_erase_apply]
    split
    · rename_i heq
      rw [heq, AList.lookup_eq_none.mpr hkey]
    · rfl
  mdKeys md' key' := by
    rw [ClientSession.mdKey_eraseKey]
    split
    · rename_i heq
      rw [heq.1, heq.2, hmd]
    · rfl
  strategies := rfl
  queue := rfl

/-- What a request to give up an instrument throws and leaves. -/
theorem handleCancelMarketData_of_error {md : Location} {exchangeId instrumentId what : String}
    (h : (s.service.handleCancelMarketData id (some md) exchangeId instrumentId).2 = some what) :
    s.Tells id md exchangeId instrumentId ∧
      (Wingchun.getInstrumentType exchangeId instrumentId).isOk = false ∧
      (s.service.handleCancelMarketData id (some md) exchangeId instrumentId).1 =
        s.service.setSession id ((s.service.session id).eraseKey md.uid
          (hashInstrument (cStr exchangeId) (cStr instrumentId))) := by
  have hneeded : ∀ key c, (s.service.setSession id c).NeededByOthers id key ↔
      s.service.NeededByOthers id key := by
    intro key c
    simp only [ApiService.neededByOthers_iff_session, ApiService.session_setSession]
    exact exists_congr fun id' => and_congr_right fun hne => by rw [if_neg hne]
  revert h
  unfold ApiService.handleCancelMarketData
  simp only [hneeded]
  split
  · simp
  · rename_i hsent
    rw [not_or, not_not] at hsent
    unfold ApiService.instrumentKeyOf
    cases htype : Wingchun.getInstrumentType exchangeId instrumentId with
    | error fault => exact fun _ => ⟨hsent, rfl, rfl⟩
    | ok instrumentType => simp

theorem hanging_handleCancelMarketData (md : Option Location) (exchangeId instrumentId : String) :
    (s.service.handleCancelMarketData id md exchangeId instrumentId).1.hanging = s.service.hanging := by
  unfold ApiService.handleCancelMarketData
  cases md with
  | none => rfl
  | some md =>
      dsimp only
      split
      · rfl
      cases ApiService.instrumentKeyOf exchangeId instrumentId <;> rfl

theorem answers_handleCancelMarketData (h : s.SoundCancelMarketData env id data) :
    s.Answers env (s.handleCancelMarketData env id data) := by
  unfold handleCancelMarketData
  cases hmd : s.service.resolveLocation env.homeMode data with
  | error what => exact answers_exception what
  | ok md =>
      cases md with
      | none => exact answers_exception _
      | some md =>
          dsimp only
          cases hids : readIds data with
          | error what => exact answers_exception what
          | ok ids =>
              obtain ⟨exchangeId, instrumentId⟩ := ids
              dsimp only
              have hsound := h md exchangeId instrumentId hmd hids
              rw [if_neg fun hlong => hlong.2 (hsound hlong.1).1]
              refine answers_lift (ApiService.queuesKept_handleCancelMarketData _ _ _)
                (hanging_handleCancelMarketData _ _ _).subset fun what hwhat => ?_
              obtain ⟨htells, htype, hleft⟩ := handleCancelMarketData_of_error hwhat
              have hlacks := (hsound htells).2.resolve_left (by simp [htype])
              obtain ⟨c, hlookup, hkey, hmdKey⟩ := hlacks
              rw [ApiService.session_of_lookup hlookup] at hleft
              rw [hleft]
              refine ⟨fun id' => ?_, rfl, fun _ => rfl⟩
              rw [ApiService.setSession, Table.lookup_insert_apply]
              split
              · rename_i hid
                rw [hid, hlookup]
                exact .some (sameSession_eraseKey hkey hmdKey)
              · exact (Unchanged.refl env s).sessions id'

/-- Whoever can join all channels has no error. -/
theorem handleSubscribeStrategy_of_joins {strat : Option Location}
    (h : s.service.Joins (.subscribeStrategy id strat)) :
    (s.service.handleSubscribeStrategy id strat).1.hanging = s.service.hanging ∧
      ((s.service.handleSubscribeStrategy id strat).2.isSome →
        (s.service.handleSubscribeStrategy id strat).1 = s.service) := by
  unfold ApiService.handleSubscribeStrategy
  cases strat with
  | none => exact ⟨rfl, fun _ => rfl⟩
  | some strat =>
      dsimp only
      split
      · exact ⟨rfl, fun _ => rfl⟩
      rename_i hcategory
      cases hlookup : s.service.sessions.lookup id with
      | none => exact ⟨rfl, fun _ => rfl⟩
      | some c =>
          dsimp only
          split
          · exact ⟨rfl, fun _ => rfl⟩
          · rename_i hnew
            have hid : id ∈ s.service.sessions := AList.lookup_isSome.mp (by rw [hlookup]; rfl)
            have hopens := h (not_not.mp hcategory) hid
              (by rwa [ApiService.session_of_lookup hlookup])
            obtain ⟨joins, hjoined, -⟩ := ApiService.joinTraders_of_opens strat.uid
              s.service.locations.keys (s.service.setSession id _)
              fun uid _ htd hregistered => hopens uid hregistered htd
            rw [ApiService.joinStrategy,
              show (s.service.setSession id _).locations.keys = s.service.locations.keys from rfl,
              hjoined]
            exact ⟨rfl, by simp⟩

theorem answers_handleSubscribeStrategy (h : s.SoundSubscribeStrategy env id data) :
    s.Answers env (s.handleSubscribeStrategy env id data) := by
  unfold handleSubscribeStrategy
  cases hstrat : s.service.resolveLocation env.homeMode data with
  | error what => exact answers_exception what
  | ok strat =>
      obtain ⟨hhanging, hsame⟩ := handleSubscribeStrategy_of_joins (h strat hstrat)
      refine answers_lift (ApiService.queuesKept_handleSubscribeStrategy strat) hhanging.subset
        fun what hwhat => unchanged_of_eq (hsame (by rw [hwhat]; rfl))

theorem answers_handleUnsubscribeStrategy :
    s.Answers env (s.handleUnsubscribeStrategy env id data) := by
  unfold handleUnsubscribeStrategy
  cases s.service.resolveLocation env.homeMode data with
  | error what => exact answers_exception what
  | ok strat =>
      have hleft : (s.service.handleUnsubscribeStrategy id strat).1.hanging ⊆ s.service.hanging ∧
          ((s.service.handleUnsubscribeStrategy id strat).2.isSome →
            (s.service.handleUnsubscribeStrategy id strat).1 = s.service) := by
        unfold ApiService.handleUnsubscribeStrategy
        cases strat with
        | none => exact ⟨Finset.Subset.refl _, fun _ => rfl⟩
        | some strat =>
            dsimp only
            split
            · exact ⟨Finset.Subset.refl _, fun _ => rfl⟩
            cases s.service.sessions.lookup id with
            | none => exact ⟨Finset.Subset.refl _, fun _ => rfl⟩
            | some c =>
                exact ⟨ApiService.hanging_dropStrategy _, by simp⟩
      exact answers_lift (ApiService.queuesKept_handleUnsubscribeStrategy strat) hleft.1
        fun what hwhat => unchanged_of_eq (hleft.2 (by rw [hwhat]; rfl))

theorem answers_handleStopStrategy : s.Answers env (s.handleStopStrategy env data) := by
  unfold handleStopStrategy
  split
  · exact answers_exception _
  · exact answers_exception _
  split
  · exact answers_exception _
  split
  · exact answers_exception _
  split
  · exact answers_exception _
  · exact .of_service rfl rfl rfl rfl (by simp)

theorem answers_handleRequestPosition : s.Answers env (s.handleRequestPosition env) := by
  refine .of_service ?_ ?_ ?_ ?_ (by simp) <;> split <;> rfl

/-- Every handler of a sound request keeps what it should. -/
theorem answers_dispatch {method : String} (h : s.SoundData env id data method) :
    s.Answers env (s.dispatch env id data method) := by
  unfold dispatch
  unfold SoundData at h
  split
  case h_1 => exact answers_handleIssueOrder h
  case h_2 => exact answers_handleCancelOrder
  case h_3 => exact answers_handleRequestMarketData h
  case h_4 => exact answers_handleCancelMarketData h
  case h_5 => exact answers_handleRequestPosition
  case h_12 => exact answers_handleSubscribeStrategy h
  case h_13 => exact answers_handleUnsubscribeStrategy
  case h_15 => exact answers_handleStopStrategy
  case h_8 | h_14 => exact answers_liftM _
  case h_16 => exact answers_exception _
  all_goals exact .of_service rfl rfl rfl rfl (by simp)

end Handlers

/-! ## Requests -/

section Model

variable (parse : List UInt8 → Option Json) (env : Env) (id : UInt32) (s : Server)

/-- Nothing leaves the handling of a request, an answer that is an error comes with everything as it
was, and no channel is joined that cannot be read. -/
def ServesRequest (r : Request) : Prop :=
  ∃ t reply, s.answer env r = .ok (t, reply) ∧
    (∀ what, reply = .error what → s.Unchanged env t) ∧ t.service.hanging ⊆ s.service.hanging

/-- What is asked of the requests that are handled in a step. -/
def Sound : Event → Prop
  | .drain env => Along (handle env) (fun s r => s.SoundRequest (env r.2) r.1)
      { s with requestQueue := [] } s.requestQueue.zipIdx
  | _ => True

/-- The loop of events goes on, and the requests that are handled are served. -/
def Serves (event : Event) : Prop :=
  (s.step parse event).stopped = none ∧ match event with
    | .drain env => (s.step parse event).requestQueue = [] ∧
        Along (handle env) (fun s r => s.ServesRequest (env r.2) r.1)
          { s with requestQueue := [] } s.requestQueue.zipIdx
    | _ => True

/-- The ids of the requests that a client has been answered. -/
def answered : List UInt64 := (s.service.session id).sendQueue.filterMap Outgoing.requestId

/-- The ids of the requests of a client that wait. -/
def waiting : List UInt64 := (s.requestQueue.filter (·.sessionId = id)).map (·.requestId)

/-- The id of the request that a client sends in a step: the body is an object, and the id a number
if there is one. -/
def Event.accepted : Event → Option UInt64
  | .receive id' body =>
      if id' = id then
        (parse body).bind fun j => (j.value Json.getArithmetic "request_id" 0).toOption
      else none
  | _ => none

end Model

section Requests

variable {env : Env} {id : UInt32} {r : Request} {s t u : Server} {ids ids' : UInt32 → List UInt64}

/-- What is read before anything is caught can be read. -/
theorem value_of_methodIsText (h : r.MethodIsText) :
    r.body.value Json.getString "method" "" = .ok r.method ∧
      r.body.value .ok "data" (.object []) = .ok r.data := by
  obtain ⟨members, hbody, htext⟩ := h
  constructor
  · cases hmethod : members.lookup "method" with
    | none => simp [Json.value, Request.method, Json.member, hbody, hmethod]
    | some j =>
        obtain ⟨text, rfl⟩ := htext j hmethod
        simp [Json.value, Request.method, Json.member, hbody, hmethod, Json.getString]
  · cases hdata : members.lookup "data" <;>
      simp [Json.value, Request.data, Json.member, hbody, hdata]

/-- A sound request is answered. -/
theorem exists_answer (h : s.SoundRequest env r) : ∃ t reply, s.answer env r = .ok (t, reply) ∧
    (∀ what, reply = .error what → s.Unchanged env t) ∧ t.service.hanging ⊆ s.service.hanging ∧
      ApiService.QueuesKept s.service t.service ∧ t.requestQueue = s.requestQueue ∧
        t.stopped = s.stopped := by
  obtain ⟨hmethod, hdata⟩ := value_of_methodIsText h.1
  have hanswers := answers_dispatch h.2
  rw [answer, hmethod, hdata, liftM_ok, Outcome.ok_bind, liftM_ok, Outcome.ok_bind]
  generalize s.dispatch env r.sessionId r.data r.method = p at hanswers ⊢
  obtain ⟨t, reply⟩ := p
  obtain ⟨hqueues, hhanging, hrequests, hstopped, hcaught, hunchanged⟩ := hanswers
  cases reply with
  | ok result => exact ⟨t, .ok result, rfl, by simp, hhanging, hqueues, hrequests, hstopped⟩
  | error thrown =>
      cases thrown with
      | exception what =>
          exact ⟨t, .error what, rfl, fun _ _ => hunchanged _ rfl, hhanging, hqueues, hrequests,
            hstopped⟩
      | overflow => exact absurd rfl hcaught

/-- Some requests of clients have been answered, each once. -/
structure Answered (s t : Server) (ids : UInt32 → List UInt64) : Prop where
  running : t.stopped = none
  requestQueue : t.requestQueue = s.requestQueue
  ids : ∀ id ∈ s.service.sessions, id ∈ t.service.sessions ∧ t.answered id = s.answered id ++ ids id

theorem Answered.refl (h : s.stopped = none) : Answered s s fun _ => [] :=
  ⟨h, rfl, fun _ hid => ⟨hid, (List.append_nil _).symm⟩⟩

theorem Answered.trans (h : Answered s t ids) (h' : Answered t u ids') :
    Answered s u fun id => ids id ++ ids' id where
  running := h'.running
  requestQueue := h'.requestQueue.trans h.requestQueue
  ids id hid := by
    obtain ⟨hmem, hids⟩ := h.ids id hid
    obtain ⟨hmem', hids'⟩ := h'.ids id hmem
    exact ⟨hmem', by rw [hids', hids, List.append_assoc]⟩

/-- The answer is queued for the client, and for no other. -/
theorem answered_sendJson (hid : id ∈ s.service.sessions) (reply : Except String Json) :
    id ∈ (s.sendJson r.sessionId (.response r.requestId reply)).service.sessions ∧
      (s.sendJson r.sessionId (.response r.requestId reply)).answered id =
        s.answered id ++ if id = r.sessionId then [r.requestId] else [] := by
  unfold sendJson
  cases hlookup : s.service.sessions.lookup r.sessionId with
  | none =>
      have hne : id ≠ r.sessionId := fun heq => AList.lookup_eq_none.mp hlookup (heq ▸ hid)
      simp [hne, hid]
  | some c =>
      refine ⟨(AList.mem_insert _).mpr (.inr hid), ?_⟩
      by_cases heq : id = r.sessionId
      · subst heq
        simp [answered, ClientSession.queue, ApiService.session_of_lookup hlookup,
          Outgoing.requestId]
      · simp [answered, heq]

/-- A request is answered once. -/
theorem answered_handle {env : ℕ → Env} {r : Request × ℕ} (hs : s.stopped = none)
    (h : s.SoundRequest (env r.2) r.1) :
    Answered s (handle env s r) fun id => if id = r.1.sessionId then [r.1.requestId] else [] := by
  obtain ⟨t, reply, hanswer, -, -, hqueues, hrequests, hstopped⟩ := exists_answer h
  have hhandle : handle env s r = t.sendJson r.1.sessionId (.response r.1.requestId reply) := by
    simp [handle, hs, handleRequest, hanswer, pure, Except.pure]
  have hsame : ∀ id message, (t.sendJson id message).stopped = t.stopped ∧
      (t.sendJson id message).requestQueue = t.requestQueue := by
    intro id message
    unfold sendJson
    cases t.service.sessions.lookup id <;> exact ⟨rfl, rfl⟩
  rw [hhandle]
  refine ⟨((hsame _ _).1.trans hstopped).trans hs, (hsame _ _).2.trans hrequests, fun id hid => ?_⟩
  have hsent := answered_sendJson (r := r.1) (hqueues.present id hid) reply
  rwa [show t.answered id = s.answered id by rw [answered, answered, hqueues.queue id]] at hsent

/-- The requests in a queue are answered, each once and in turn. -/
theorem answered_foldl {env : ℕ → Env} {rs : List (Request × ℕ)} (hs : s.stopped = none)
    (h : Along (handle env) (fun s r => s.SoundRequest (env r.2) r.1) s rs) :
    Answered s (rs.foldl (handle env) s) fun id =>
      ((rs.map Prod.fst).filter (·.sessionId = id)).map (·.requestId) := by
  induction rs generalizing s with
  | nil => exact .refl hs
  | cons r rs ih =>
      have hfirst := answered_handle hs h.1
      have hall := hfirst.trans (ih hfirst.running h.2)
      refine ⟨hall.running, hall.requestQueue, fun id hid => ?_⟩
      obtain ⟨hmem, hids⟩ := hall.ids id hid
      refine ⟨hmem, hids.trans ?_⟩
      by_cases heq : id = r.1.sessionId
      · simp [heq]
      · simp [heq, Ne.symm heq]

end Requests

/-! ## Runs -/

section Runs

variable {parse : List UInt8 → Option Json} {id : UInt32} {s t : Server} {event : Event} {op : Op}

theorem answered_strategyEvent (hid : id ∈ s.service.sessions) (source dest : UInt32)
    (orderId : UInt64) : id ∈ (s.service.pushStrategyEvent source dest orderId).sessions ∧
      ((s.service.pushStrategyEvent source dest orderId).session id).sendQueue.filterMap
        Outgoing.requestId = s.answered id := by
  unfold ApiService.pushStrategyEvent
  cases s.service.manualOrderSessions.lookup orderId with
  | some id' =>
      dsimp only
      cases hlookup : s.service.sessions.lookup id' with
      | none => exact ⟨hid, rfl⟩
      | some c =>
          refine ⟨(AList.mem_insert _).mpr (.inr hid), ?_⟩
          by_cases heq : id = id'
          · subst heq
            simp [answered, ClientSession.queue, ApiService.session_of_lookup hlookup,
              Outgoing.requestId]
          · simp [answered, heq]
  | none =>
      obtain ⟨c, hlookup⟩ := Option.isSome_iff_exists.mp (AList.lookup_isSome.mpr hid)
      by_cases hdest : dest ∈ c.subscribedStrategies <;>
        simp [ApiService.session, answered, hlookup, hdest, ClientSession.queue,
          Outgoing.requestId, ← AList.lookup_isSome]

theorem answered_cleanup {id' : UInt32} (hid : id ∈ s.service.sessions) (hne : id ≠ id') :
    id ∈ (s.service.cleanupSession id').sessions ∧
      ((s.service.cleanupSession id').session id).sendQueue.filterMap Outgoing.requestId =
        s.answered id := by
  unfold ApiService.cleanupSession
  dsimp only
  cases s.service.sessions.lookup id' with
  | none => exact ⟨hid, rfl⟩
  | some c =>
      dsimp only
      rw [ApiService.foldl_dropStrategy]
      refine ⟨AList.mem_erase.mpr ⟨hne, hid⟩, ?_⟩
      have hsession : (s.service.eraseSession id').session id = s.service.session id := by
        rw [ApiService.session_eraseSession, if_neg hne]
      rw [answered, ← hsession]
      rfl

/-- What else happens to the tables answers nobody, and takes no session but that of a client that is
gone. -/
theorem answered_service (hop : op ≠ .cleanup id) (hid : id ∈ s.service.sessions) :
    id ∈ (s.service.step op).sessions ∧
      ((s.service.step op).session id).sendQueue.filterMap Outgoing.requestId = s.answered id := by
  have hkept : ApiService.QueuesKept s.service (s.service.step op) →
      id ∈ (s.service.step op).sessions ∧
        ((s.service.step op).session id).sendQueue.filterMap Outgoing.requestId = s.answered id :=
    fun h => ⟨h.present id hid, by rw [h.queue, answered]⟩
  cases op with
  | accept =>
      refine hkept ⟨fun id' => ?_, fun id' hid' => Table.mem_tryEmplace.mpr (.inr hid')⟩
      rw [ApiService.step, ApiService.session_accept]
  | onWriteTo | addLocation | page | register | issueOrder => exact hkept (.of_sessions rfl)
  | deregister uid =>
      refine hkept (.of_sessions ?_)
      rw [ApiService.step, ApiService.onDeregister]
      split <;> rfl
  | readFrom source dest =>
      refine hkept (.of_sessions ?_)
      rw [ApiService.step, ApiService.onReadFrom]
      split
      · obtain ⟨joins, hanging, hjoined⟩ := s.service.exists_join ⟨source, dest⟩
        rw [hjoined]
      · rfl
  | requestMarketData => exact hkept (ApiService.queuesKept_handleRequestMarketData ..)
  | cancelMarketData => exact hkept (ApiService.queuesKept_handleCancelMarketData ..)
  | subscribeStrategy => exact hkept (ApiService.queuesKept_handleSubscribeStrategy _)
  | unsubscribeStrategy => exact hkept (ApiService.queuesKept_handleUnsubscribeStrategy _)
  | strategyEvent source dest orderId => exact answered_strategyEvent hid source dest orderId
  | cleanup id' => exact answered_cleanup hid fun heq => hop (heq ▸ rfl)

/-- The requests of a client that were answered and those that wait are what they were, and what the
client sends in a step is put behind them. -/
structure Progress (parse : List UInt8 → Option Json) (s t : Server) (events : List Event) : Prop where
  running : t.stopped = none
  ids : ∀ id ∈ s.service.sessions, (∀ event ∈ events, event ≠ .service (.cleanup id)) →
    id ∈ t.service.sessions ∧ t.answered id ++ t.waiting id =
      s.answered id ++ s.waiting id ++ events.filterMap (Event.accepted parse id)

theorem progress_receive (hs : s.stopped = none) (id' : UInt32) (body : List UInt8) :
    Progress parse s (s.receive parse id' body) [.receive id' body] := by
  unfold receive
  cases hparse : parse body with
  | none => exact ⟨hs, fun id hid _ => ⟨hid, by simp [Event.accepted, hparse]⟩⟩
  | some j =>
      dsimp only
      cases hvalue : j.value Json.getArithmetic "request_id" 0 with
      | error what =>
          exact ⟨hs, fun id hid _ => ⟨hid, by
            simp [Event.accepted, hparse, hvalue, Except.toOption]⟩⟩
      | ok requestId =>
          refine ⟨hs, fun id hid _ => ⟨hid, ?_⟩⟩
          by_cases heq : id' = id
          · simp [answered, waiting, Event.accepted, hparse, hvalue, heq, Except.toOption]
          · simp [answered, waiting, Event.accepted, heq]

theorem progress_drain (parse : List UInt8 → Option Json) {env : ℕ → Env} (hs : s.stopped = none) (h : s.Sound (.drain env)) :
    Progress parse s (s.drainRequests env) [.drain env] ∧ (s.drainRequests env).requestQueue = [] := by
  have hall := answered_foldl (s := { s with requestQueue := [] }) hs h
  rw [List.zipIdx_map_fst] at hall
  refine ⟨⟨hall.running, fun id hid _ => ?_⟩, hall.requestQueue⟩
  obtain ⟨hmem, hids⟩ := hall.ids id hid
  have hwaiting : (s.drainRequests env).waiting id = [] := by
    rw [waiting, show (s.drainRequests env).requestQueue = [] from hall.requestQueue]
    rfl
  refine ⟨hmem, ?_⟩
  rw [hwaiting, List.append_nil, show [Event.drain env].filterMap (Event.accepted parse id) = [] from rfl,
    List.append_nil]
  exact hids

/-- A step in which all requests are sound answers each of them. -/
theorem progress_step (parse : List UInt8 → Option Json) (hs : s.stopped = none) (h : s.Sound event) :
    Progress parse s (s.step parse event) [event] := by
  unfold step
  rw [if_neg (by simp [hs])]
  cases event with
  | receive id' body => exact progress_receive hs id' body
  | drain env => exact (progress_drain parse hs h).1
  | service op =>
      refine ⟨hs, fun id hid hgone => ?_⟩
      obtain ⟨hmem, hids⟩ := answered_service
        (fun heq : op = _ => hgone _ (List.mem_singleton_self _) (heq ▸ rfl)) hid
      refine ⟨hmem, ?_⟩
      simp only [answered, waiting, Event.accepted, List.filterMap_cons, List.filterMap_nil,
        List.append_nil] at hids ⊢
      rw [hids]
  | bookkeeper books => exact ⟨hs, fun id hid _ => ⟨hid, by simp [answered, waiting, Event.accepted]⟩⟩

theorem Progress.trans {u : Server} {events events' : List Event} (h : Progress parse s t events)
    (h' : Progress parse t u events') : Progress parse s u (events ++ events') where
  running := h'.running
  ids id hid hgone := by
    obtain ⟨hmem, hids⟩ := h.ids id hid fun event hevent => hgone event (List.mem_append_left _ hevent)
    obtain ⟨hmem', hids'⟩ := h'.ids id hmem fun event hevent =>
      hgone event (List.mem_append_right _ hevent)
    exact ⟨hmem', by rw [hids', hids, List.filterMap_append, List.append_assoc _ _ (List.filterMap _ _)]⟩

/-- Requests that are sound are served. -/
theorem serves_step (hs : s.stopped = none) (h : s.Sound event) : s.Serves parse event := by
  refine ⟨(progress_step parse hs h).running, ?_⟩
  cases event with
  | receive | service | bookkeeper => trivial
  | drain env =>
      refine ⟨?_, ?_⟩
      · unfold step
        rw [if_neg (by simp [hs])]
        exact (progress_drain parse hs h).2
      · refine h.along (P := fun s => s.stopped = none) (fun t r ht hr => (answered_handle ht hr).running)
          (fun t r _ hr => ?_) hs
        obtain ⟨u, reply, hanswer, hunchanged, hhanging, -⟩ := exists_answer hr
        exact ⟨u, reply, hanswer, hunchanged, hhanging⟩

/-- In every run in which all requests are sound when they are handled, the loop of events goes on
and every request is served; and for a client that stays connected, the requests that were answered
and those that wait are the ones that it sent, each once and in turn. -/
theorem serves_of_run (parse : List UInt8 → Option Json) (s : Server) (events : List Event)
    (hrunning : s.stopped = none) (h : Along (step parse) Sound s events) :
    Along (step parse) (Serves parse) s events ∧ Progress parse s (events.foldl (step parse) s) events := by
  induction events generalizing s with
  | nil => exact ⟨trivial, hrunning, fun id hid _ => ⟨hid, by simp⟩⟩
  | cons event events ih =>
      have hstep := progress_step parse hrunning h.1
      obtain ⟨hserves, hprogress⟩ := ih _ hstep.running h.2
      exact ⟨⟨serves_step hrunning h.1, hserves⟩, hstep.trans hprogress⟩

end Runs

/-! ## A method that is none, and one that is a number -/

def exampleEnv : Env where
  now := 100
  homeMode := .LIVE
  ledgerUid := 3
  tradingDay := "20240102"
  frameUid := 7
  market := ⟨fun _ => none, fun _ => none⟩
  launched := .ok 4000

/-- A client is connected. -/
def exampleServer : Server := ⟨(ApiService.start 1).run [.accept], fun _ => none, [], [], none⟩

def nowBody : List UInt8 := "\x7b\"request_id\":7,\"method\":\"now\"\x7d".toUTF8.toList

def numberBody : List UInt8 := "\x7b\"request_id\":7,\"method\":5\x7d".toUTF8.toList

def foreignBody : List UInt8 := "\x7b\"request_id\":8,\"method\":\"then\"\x7d".toUTF8.toList

/-- The values of three documents. -/
def exampleParse (body : List UInt8) : Option Json :=
  if body = nowBody then some (.object [("method", .string "now"), ("request_id", .integer 7)])
  else if body = foreignBody then
    some (.object [("method", .string "then"), ("request_id", .integer 8)])
  else if body = numberBody then some (.object [("method", .integer 5), ("request_id", .integer 7)])
  else none


/-- An answer that is an error. -/
def isError : Outgoing → Bool
  | .response _ (.error _) => true
  | _ => false

/-- A request that is answered with the time, and one of an unknown method that is answered with an
error. -/
theorem serves_of_run_two :
    let events := [.receive 1 nowBody, .receive 1 foreignBody, .drain fun _ => exampleEnv]
    Along (step exampleParse) (Serves exampleParse) exampleServer events ∧
      Progress exampleParse exampleServer (events.foldl (step exampleParse) exampleServer) events ∧
      (((events.foldl (step exampleParse) exampleServer).service.session 1).sendQueue.map isError) =
        [false, true] := by
  have hparse : exampleParse nowBody =
      some (.object [("method", .string "now"), ("request_id", .integer 7)]) := if_pos rfl
  have hforeign : exampleParse foreignBody =
      some (.object [("method", .string "then"), ("request_id", .integer 8)]) :=
    (if_neg (by decide +kernel)).trans (if_pos rfl)
  have hfirst : step exampleParse exampleServer (.receive 1 nowBody) = { exampleServer with
      requestQueue := [⟨1, 7, .object [("method", .string "now"), ("request_id", .integer 7)]⟩] } := by
    change receive exampleParse 1 nowBody exampleServer = _
    rw [receive, hparse]
    rfl
  have hsecond : step exampleParse { exampleServer with
      requestQueue := [⟨1, 7, .object [("method", .string "now"), ("request_id", .integer 7)]⟩] }
      (.receive 1 foreignBody) = { exampleServer with
        requestQueue := [⟨1, 7, .object [("method", .string "now"), ("request_id", .integer 7)]⟩,
          ⟨1, 8, .object [("method", .string "then"), ("request_id", .integer 8)]⟩] } := by
    change receive exampleParse 1 foreignBody _ = _
    rw [receive, hforeign]
    rfl
  refine and_assoc.mp ⟨serves_of_run exampleParse exampleServer _ rfl ⟨trivial, trivial, ?_, trivial⟩,
    by decide +kernel⟩
  rw [hfirst, hsecond]
  refine ⟨⟨⟨_, rfl, ?_⟩, trivial⟩, ⟨⟨_, rfl, ?_⟩, trivial⟩, trivial⟩
  · rintro j hj
    exact ⟨"now", (Option.some.inj hj).symm⟩
  · rintro j hj
    exact ⟨"then", (Option.some.inj hj).symm⟩

/-- What its reading throws ends the loop of events. -/
theorem stopped_of_method :
    ([.receive 1 numberBody, .drain fun _ => exampleEnv].foldl (step exampleParse)
        exampleServer).stopped =
      some (.exception "[json.exception.type_error.302] type must be string, but is number") := by
  decide +kernel

end Server

end Kungfu.Api
