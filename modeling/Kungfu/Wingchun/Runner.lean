import Kungfu.Wingchun.Restart

/-!
# How a strategy starts

A strategy starts when it has heard from the ledger what it holds.  It asks for that once, when all
its accounts and sources of market data are ready and there are channels to the accounts.  The
answer counts only if all of them are ready when it is read; one that comes when they are not is
passed over, and there is no other.
-/

namespace Kungfu.Wingchun

open Longfist Logic Outcome

/-- What a strategy that starts writes to the ledger. -/
inductive RunnerRequest
  | brokerState
  | keepPositions
  | resetBook
  | instrumentKey (key : Api.InstrumentKey)
  | mirrorPositions
  | rebuildPositions
  | asset
  | position
  deriving DecidableEq, Repr

/-- What a runner sees of its app, its context and its broker client. -/
structure View where
  /-- There is a writer for the ledger. -/
  hasWriter : Bool
  hasChannel : UInt32 → UInt32 → Bool
  accounts : List UInt32
  md : List UInt32
  isBookHeld : Bool
  isPositionsMirrored : Bool
  instrumentKeys : List Api.InstrumentKey
  isConnected : UInt32 → Bool
  isReady : UInt32 → Bool
  /-- There is a location and a writer for a broker that is ready. -/
  connected_of_ready : ∀ uid, isReady uid = true → isConnected uid = true

/-- An event, by what a runner that starts looks at. -/
inductive RunnerEvent (δ : Type)
  | position (holderUid : UInt32) (exchangeId instrumentId : String)
  | positionEnd (source : UInt32)
  | other (data : δ)

structure Runner (δ : Type) where
  brokerStatesRequested : Bool
  positionsRequested : Bool
  positionsSet : Bool
  started : Bool
  /-- What `guard_positions` sets. -/
  positionsGuarded : Bool
  /-- The instruments that it has subscribed to for its positions. -/
  subscribed : List (String × String)
  /-- What was written to the ledger. -/
  written : List RunnerRequest
  /-- The events that what `post_start` subscribes sees. -/
  invoked : List (RunnerEvent δ)

namespace View

variable (homeUid : UInt32) (v : View)

/-- `connected_test` of the accounts and of the sources of market data. -/
def connectedTest : Bool := v.accounts.all v.isConnected && v.md.all v.isConnected

/-- `ready_test` of the accounts and of the sources of market data. -/
def readyTest : Bool := v.accounts.all v.isReady && v.md.all v.isReady

/-- `has_td_channel`. -/
def hasTdChannel : Bool :=
  v.accounts.all fun account => v.hasChannel homeUid account && v.hasChannel account homeUid

/-- What the ledger is asked for: to prepare the book, and then to send it. -/
def startRequests : List RunnerRequest :=
  (if v.isBookHeld then [] else [.keepPositions, .resetBook]) ++
    v.instrumentKeys.map .instrumentKey ++
    (if v.isPositionsMirrored then [.mirrorPositions] else []) ++
    (if v.isBookHeld || v.isPositionsMirrored then [] else [.rebuildPositions]) ++
    [.asset, .position]

end View

namespace Runner

variable {δ : Type} (homeUid ledgerUid : UInt32)

/-- A runner that is made, which in a backtest has started. -/
def make (isBacktest : Bool) : Runner δ where
  brokerStatesRequested := false
  positionsRequested := false
  positionsSet := isBacktest
  started := isBacktest
  positionsGuarded := false
  subscribed := []
  written := []
  invoked := []

/-- What `prepare` does with a position. -/
def subscribe (r : Runner δ) : RunnerEvent δ → Runner δ
  | .position holderUid exchangeId instrumentId =>
      if holderUid = homeUid then { r with subscribed := r.subscribed ++ [(exchangeId, instrumentId)] }
      else r
  | _ => r

/-- The brokers are asked for their states, once. -/
def requestBrokerStates (r : Runner δ) (v : View) : Runner δ :=
  if !r.brokerStatesRequested && v.connectedTest then
    { r with written := r.written ++ [.brokerState], brokerStatesRequested := true }
  else r

/-- The event is the answer of the ledger. -/
def isAnswer : RunnerEvent δ → Bool
  | .positionEnd source => source = ledgerUid
  | _ => false

/-- `Runner::prepare`. -/
def prepare (r : Runner δ) (v : View) (event : RunnerEvent δ) : Runner δ :=
  let r := r.subscribe homeUid event
  if !v.hasWriter then r
  else
    let r := r.requestBrokerStates v
    if !v.readyTest then r
    else if !v.hasTdChannel homeUid then r
    else if !r.positionsRequested then
      { r with written := r.written ++ v.startRequests, positionsRequested := true }
    else
      let r := if isAnswer ledgerUid event then { r with positionsSet := true } else r
      if !r.positionsSet then r
      else { r with positionsGuarded := true, started := true }

/-- An event is prepared for until the strategy has started; after that its handlers see it. -/
def step (r : Runner δ) (seen : View × RunnerEvent δ) : Runner δ :=
  if r.started then { r with invoked := r.invoked ++ [seen.2] }
  else r.prepare homeUid ledgerUid seen.1 seen.2

def run (r : Runner δ) (events : List (View × RunnerEvent δ)) : Runner δ :=
  events.foldl (step homeUid ledgerUid) r

end Runner

/-! ## When a strategy starts -/

section Start

variable {δ : Type} (homeUid ledgerUid : UInt32)

/-- Nothing keeps the runner from going on. -/
def View.Able (v : View) : Prop :=
  v.hasWriter = true ∧ v.readyTest = true ∧ v.hasTdChannel homeUid = true

instance (v : View) : Decidable (v.Able homeUid) := inferInstanceAs (Decidable (_ ∧ _ ∧ _))

/-- The answer of the ledger is read while nothing keeps the runner from going on. -/
def Answers (seen : View × RunnerEvent δ) : Prop :=
  seen.1.Able homeUid ∧ Runner.isAnswer ledgerUid seen.2 = true

/-- The events on which a strategy starts: the first one at which it is able to asks for the
positions, and the first answer after that which is read while it is able to ends the wait. -/
structure Starts (events : List (View × RunnerEvent δ)) (request : View)
    (rest : List (View × RunnerEvent δ)) : Prop where
  split : ∃ before event between answer, events = before ++ (request, event) :: (between ++ answer :: rest) ∧
    (∀ seen ∈ before, ¬ seen.1.Able homeUid) ∧ request.Able homeUid ∧
    (∀ seen ∈ between, ¬ Answers homeUid ledgerUid seen) ∧ Answers homeUid ledgerUid answer

/-- How far a runner is after some events. -/
inductive Runner.Stage (events : List (View × RunnerEvent δ)) (r : Runner δ) : Prop
  | waits (hevents : ∀ seen ∈ events, ¬ seen.1.Able homeUid) (hstarted : r.started = false)
      (hset : r.positionsSet = false) (hrequested : r.positionsRequested = false)
      (hwritten : r.written = if r.brokerStatesRequested then [.brokerState] else [])
      (hinvoked : r.invoked = [])
  | asks (request : View) (hevents : ∃ before event between,
        events = before ++ (request, event) :: between ∧
          (∀ seen ∈ before, ¬ seen.1.Able homeUid) ∧ request.Able homeUid ∧
          ∀ seen ∈ between, ¬ Answers homeUid ledgerUid seen)
      (hstarted : r.started = false) (hset : r.positionsSet = false)
      (hstates : r.brokerStatesRequested = true) (hrequested : r.positionsRequested = true)
      (hwritten : r.written = .brokerState :: request.startRequests) (hinvoked : r.invoked = [])
  | starts (request : View) (rest : List (View × RunnerEvent δ))
      (hevents : Starts homeUid ledgerUid events request rest)
      (hstarted : r.started = true) (hguarded : r.positionsGuarded = true)
      (hwritten : r.written = .brokerState :: request.startRequests)
      (hinvoked : r.invoked = rest.map (·.2))

end Start

namespace Runner

variable {δ : Type} {homeUid ledgerUid : UInt32} {r : Runner δ} {v : View} {event : RunnerEvent δ}
  {events : List (View × RunnerEvent δ)}

theorem connectedTest_of_readyTest (h : v.readyTest = true) : v.connectedTest = true := by
  simp only [View.readyTest, View.connectedTest, Bool.and_eq_true, List.all_eq_true] at h ⊢
  exact ⟨fun uid huid => v.connected_of_ready uid (h.1 uid huid),
    fun uid huid => v.connected_of_ready uid (h.2 uid huid)⟩

/-! ### One event -/

/-- What `prepare` does at every event. -/
def heard (homeUid : UInt32) (r : Runner δ) (v : View) (event : RunnerEvent δ) : Runner δ :=
  let r := r.subscribe homeUid event
  if v.hasWriter then r.requestBrokerStates v else r

theorem subscribe_eq (homeUid : UInt32) (r : Runner δ) (event : RunnerEvent δ) :
    ∃ subscribed, r.subscribe homeUid event = { r with subscribed := subscribed } := by
  unfold subscribe
  split
  · split
    · exact ⟨_, rfl⟩
    · exact ⟨r.subscribed, rfl⟩
  · exact ⟨r.subscribed, rfl⟩

/-- Nothing else changes at every event. -/
theorem heard_eq (homeUid : UInt32) (r : Runner δ) (v : View) (event : RunnerEvent δ) :
    ∃ subscribed states, r.heard homeUid v event =
    { r with
      subscribed := subscribed
      brokerStatesRequested := r.brokerStatesRequested || states
      written := r.written ++ if !r.brokerStatesRequested && states then [.brokerState] else [] } ∧
    states = (v.hasWriter && v.connectedTest) := by
  obtain ⟨subscribed, hsubscribed⟩ := subscribe_eq homeUid r event
  refine ⟨subscribed, v.hasWriter && v.connectedTest, ?_, rfl⟩
  unfold heard requestBrokerStates
  rw [hsubscribed]
  cases v.hasWriter <;> cases v.connectedTest <;> cases r.brokerStatesRequested <;> simp

/-- What it does besides where the runner is able to go on. -/
theorem prepare_eq : r.prepare homeUid ledgerUid v event =
    if v.Able homeUid then
      if !r.positionsRequested then
        { r.heard homeUid v event with
          written := (r.heard homeUid v event).written ++ v.startRequests
          positionsRequested := true }
      else if isAnswer ledgerUid event || r.positionsSet then
        { r.heard homeUid v event with
          positionsSet := true, positionsGuarded := true, started := true }
      else r.heard homeUid v event
    else r.heard homeUid v event := by
  obtain ⟨subscribed, states, heq, -⟩ := heard_eq homeUid r v event
  have hprepare : r.prepare homeUid ledgerUid v event =
      if !v.hasWriter then r.heard homeUid v event
      else if !v.readyTest then r.heard homeUid v event
      else if !v.hasTdChannel homeUid then r.heard homeUid v event
      else if !(r.heard homeUid v event).positionsRequested then
        { r.heard homeUid v event with
          written := (r.heard homeUid v event).written ++ v.startRequests
          positionsRequested := true }
      else
        let r := if isAnswer ledgerUid event then
          { r.heard homeUid v event with positionsSet := true } else r.heard homeUid v event
        if !r.positionsSet then r
        else { r with positionsGuarded := true, started := true } := by
    unfold prepare heard
    cases v.hasWriter <;> rfl
  rw [hprepare, heq]
  cases hwriter : v.hasWriter <;> cases hready : v.readyTest <;>
    cases hchannel : v.hasTdChannel homeUid <;> simp only [View.Able, hwriter, hready, hchannel]
  case true.true.true =>
    cases isAnswer ledgerUid event <;> cases r.positionsSet <;> cases r.positionsRequested <;> simp
  all_goals simp

/-! ### All events -/

theorem Stage.step (h : Stage homeUid ledgerUid events r) (seen : View × RunnerEvent δ) :
    Stage homeUid ledgerUid (events ++ [seen]) (r.step homeUid ledgerUid seen) := by
  obtain ⟨v, event⟩ := seen
  obtain ⟨subscribed, states, hheard, hstates⟩ := heard_eq homeUid r v event
  cases h with
  | waits hevents hstarted hset hrequested hwritten hinvoked =>
      rw [Runner.step, if_neg (by simp [hstarted]), prepare_eq, hheard]
      by_cases hable : v.Able homeUid
      · have htrue : states = true := by
          rw [hstates, hable.1, connectedTest_of_readyTest hable.2.1]
          rfl
        rw [if_pos hable, if_pos (by simp [hrequested])]
        refine .asks v ⟨events, event, [], rfl, hevents, hable, fun _ h => by cases h⟩ hstarted hset
          (by simp [htrue]) rfl ?_ hinvoked
        cases hbefore : r.brokerStatesRequested <;> simp [hbefore, hwritten, htrue]
      · rw [if_neg hable]
        refine .waits (fun seen hseen => ?_) hstarted hset hrequested ?_ hinvoked
        · rcases List.mem_append.mp hseen with hseen | hseen
          · exact hevents seen hseen
          · rw [List.mem_singleton.mp hseen]
            exact hable
        · cases hbefore : r.brokerStatesRequested <;> simp [hbefore, hwritten]
  | asks request hevents hstarted hset hasked hrequested hwritten hinvoked =>
      obtain ⟨before, first, between, rfl, hbefore, hable, hbetween⟩ := hevents
      rw [Runner.step, if_neg (by simp [hstarted]), prepare_eq, hheard]
      by_cases hanswer : Answers homeUid ledgerUid (v, event)
      · obtain ⟨hable', hevent⟩ := hanswer
        rw [if_pos hable', if_neg (by simp [hrequested]), if_pos (by simp [hevent])]
        refine .starts request [] ⟨before, first, between, (v, event), by simp, hbefore, hable, hbetween,
          hable', hevent⟩ rfl rfl ?_ hinvoked
        simp [hwritten, hasked]
      · have hstays : Stage homeUid ledgerUid ((before ++ (request, first) :: between) ++ [(v, event)])
            { r with
              subscribed := subscribed
              brokerStatesRequested := r.brokerStatesRequested || states
              written := r.written ++ if !r.brokerStatesRequested && states then [.brokerState] else [] } := by
          refine .asks request ⟨before, first, between ++ [(v, event)], by simp, hbefore, hable, ?_⟩
            hstarted hset (by simp [hasked]) hrequested (by simp [hwritten, hasked]) hinvoked
          intro seen hseen
          rcases List.mem_append.mp hseen with hseen | hseen
          · exact hbetween seen hseen
          · rw [List.mem_singleton.mp hseen]
            exact hanswer
        by_cases hable' : v.Able homeUid
        · have hother : isAnswer ledgerUid event = false := by
            by_contra hevent
            exact hanswer ⟨hable', by simpa using hevent⟩
          rw [if_pos hable', if_neg (by simp [hrequested]), if_neg (by simp [hother, hset])]
          exact hstays
        · rw [if_neg hable']
          exact hstays
  | starts request rest hevents hstarted hguarded hwritten hinvoked =>
      obtain ⟨before, first, between, answer, rfl, hbefore, hable, hbetween, hanswer⟩ := hevents
      rw [Runner.step, if_pos hstarted]
      refine .starts request (rest ++ [(v, event)]) ⟨before, first, between, answer, by simp, hbefore,
        hable, hbetween, hanswer⟩ hstarted hguarded hwritten ?_
      simp [hinvoked]

theorem stage_run (events : List (View × RunnerEvent δ)) :
    Stage homeUid ledgerUid events ((make false).run homeUid ledgerUid events) := by
  induction events using List.reverseRecOn with
  | nil => exact .waits (fun _ h => by cases h) rfl rfl rfl rfl rfl
  | append_singleton events seen ih =>
      rw [run, List.foldl_append]
      exact ih.step seen

/-- A list is split in one way at the first element that meets a condition. -/
theorem first_unique {α : Type} {P : α → Prop} {xs xs' ys ys' : List α} {x y : α}
    (h : xs ++ x :: xs' = ys ++ y :: ys') (hxs : ∀ a ∈ xs, ¬ P a) (hx : P x)
    (hys : ∀ a ∈ ys, ¬ P a) (hy : P y) : x = y ∧ xs' = ys' := by
  induction xs generalizing ys with
  | nil =>
      cases ys with
      | nil => exact List.cons.inj h
      | cons a ys =>
          obtain ⟨rfl, -⟩ := List.cons.inj h
          exact absurd hx (hys _ List.mem_cons_self)
  | cons a xs ih =>
      cases ys with
      | nil =>
          obtain ⟨rfl, -⟩ := List.cons.inj h
          exact absurd hy (hxs _ List.mem_cons_self)
      | cons b ys =>
          exact ih (List.cons.inj h).2 (fun c hc => hxs c (List.mem_cons_of_mem a hc))
            fun c hc => hys c (List.mem_cons_of_mem b hc)

/-- The runner is where the events on which it starts say. -/
theorem Stage.of_starts {request : View} {rest : List (View × RunnerEvent δ)}
    (h : Stage homeUid ledgerUid events r) (hstarts : Starts homeUid ledgerUid events request rest) :
    r.started = true ∧ r.positionsGuarded = true ∧
      r.written = .brokerState :: request.startRequests ∧ r.invoked = rest.map (·.2) := by
  obtain ⟨before, event, between, answer, rfl, hbefore, hable, hbetween, hanswer⟩ := hstarts
  cases h with
  | waits hevents _ _ _ _ _ => exact absurd hable (hevents (request, event) (by simp))
  | asks request' hevents _ _ _ _ _ _ =>
      obtain ⟨before', event', between', heq, hbefore', hable', hbetween'⟩ := hevents
      obtain ⟨-, rfl⟩ := first_unique heq hbefore hable hbefore' hable'
      exact absurd hanswer (hbetween' answer (by simp))
  | starts request' rest' hevents hstarted hguarded hwritten hinvoked =>
      obtain ⟨before', event', between', answer', heq, hbefore', hable', hbetween', hanswer'⟩ := hevents
      obtain ⟨hfirst, hafter⟩ := first_unique heq hbefore hable hbefore' hable'
      obtain ⟨-, rfl⟩ := first_unique hafter hbetween hanswer hbetween' hanswer'
      cases hfirst
      exact ⟨hstarted, hguarded, hwritten, hinvoked⟩

/-- The first event at which a runner is able to go on. -/
theorem find?_able {before between : List (View × RunnerEvent δ)}
    (hbefore : ∀ seen ∈ before, ¬ seen.1.Able homeUid) (hable : v.Able homeUid) :
    (before ++ (v, event) :: between).find? (fun seen => decide (seen.1.Able homeUid)) =
      some (v, event) := by
  have hnone : before.find? (fun seen => decide (seen.1.Able homeUid)) = none := by
    rw [List.find?_eq_none]
    intro seen hseen
    simpa using hbefore seen hseen
  rw [List.find?_append, hnone, Option.none_or, List.find?_cons_of_pos (by simpa using hable)]

/-- A strategy starts just where it reads an answer of the ledger while it is able to go on, after
it was able before.  It asks once, at the first event at which it is able, and its handlers see what
comes after the answer.  Before it starts they see nothing, and it has asked if it was able. -/
theorem started_iff (events : List (View × RunnerEvent δ)) :
    let r := (make false).run homeUid ledgerUid events
    (r.started = true ↔ ∃ request rest, Starts homeUid ledgerUid events request rest) ∧
      (∀ request rest, Starts homeUid ledgerUid events request rest →
        r.positionsGuarded = true ∧ r.written = .brokerState :: request.startRequests ∧
          r.invoked = rest.map (·.2)) ∧
      (r.started = false → r.invoked = [] ∧
        (events.find? (fun seen => decide (seen.1.Able homeUid)) = none →
          r.written = [] ∨ r.written = [.brokerState]) ∧
        ∀ seen ∈ events.find? (fun seen => decide (seen.1.Able homeUid)),
          r.written = .brokerState :: seen.1.startRequests) := by
  intro r
  have hstage : Stage homeUid ledgerUid events r := stage_run events
  refine ⟨⟨fun hstarted => ?_, fun ⟨request, rest, h⟩ => (hstage.of_starts h).1⟩,
    fun request rest h => (hstage.of_starts h).2, fun hstarted => ?_⟩
  · cases hstage with
    | waits _ hnot _ _ _ _ => simp [hnot] at hstarted
    | asks _ _ hnot _ _ _ _ _ => simp [hnot] at hstarted
    | starts request rest hevents _ _ _ _ => exact ⟨request, rest, hevents⟩
  · cases hstage with
    | waits hevents _ _ _ hwritten hinvoked =>
        have hnone : events.find? (fun seen => decide (seen.1.Able homeUid)) = none := by
          rw [List.find?_eq_none]
          intro seen hseen
          simpa using hevents seen hseen
        refine ⟨hinvoked, fun _ => ?_, by simp [hnone]⟩
        cases hstates : r.brokerStatesRequested with
        | false => exact .inl (by simpa [hstates] using hwritten)
        | true => exact .inr (by simpa [hstates] using hwritten)
    | asks request hevents _ _ _ _ hwritten hinvoked =>
        obtain ⟨before, event, between, rfl, hbefore, hable, -⟩ := hevents
        have hfirst : (before ++ (request, event) :: between).find?
            (fun seen => decide (seen.1.Able homeUid)) = some (request, event) :=
          find?_able hbefore hable
        refine ⟨hinvoked, fun hnone => ?_, fun seen hseen => ?_⟩
        · rw [hfirst] at hnone
          exact absurd hnone (Option.some_ne_none _)
        · rw [hfirst] at hseen
          cases hseen
          exact hwritten
    | starts _ _ _ hstarted' _ _ _ => simp [hstarted'] at hstarted

end Runner

/-! ## What a strategy starts with -/

/-- The request of a strategy that the ledger handles. -/
def LedgerEvent.request : LedgerEvent → Option RunnerRequest
  | keepPositions _ => some .keepPositions
  | resetBook _ => some .resetBook
  | instrumentKey _ key => some (.instrumentKey key)
  | rebuildPositions _ _ => some .rebuildPositions
  | update _ | others _ => none

/-- The request is about the book that the ledger prepares. -/
def RunnerRequest.Prepares : RunnerRequest → Bool
  | keepPositions | resetBook | instrumentKey _ | mirrorPositions | rebuildPositions => true
  | brokerState | asset | position => false

section GoesOn

variable {δ : Type} {strategyUid ledgerUid : UInt32} {keys : List Api.InstrumentKey} {v : View}
  {events : List LedgerEvent} {event : LedgerEvent}

theorem prepares_startRequests (hheld : v.isBookHeld = false) (hmirrored : v.isPositionsMirrored = false) :
    v.startRequests.filter (·.Prepares) = .keepPositions :: .resetBook ::
      (v.instrumentKeys.map .instrumentKey ++ [.rebuildPositions]) := by
  simp [View.startRequests, hheld, hmirrored, RunnerRequest.Prepares]

/-- A request for an instrument is about that instrument. -/
theorem instrumentKey_of_request {key : Api.InstrumentKey} (hown : event.IsOf strategyUid = true)
    (h : event.request = some (.instrumentKey key)) : event = .instrumentKey strategyUid key := by
  cases event with
  | instrumentKey source key' =>
      cases h
      rw [of_decide_eq_true hown]
  | _ => cases h

theorem instrumentKeys_of_requests (hown : ∀ event ∈ events, event.IsOf strategyUid = true)
    (h : events.map LedgerEvent.request = keys.map fun key => some (.instrumentKey key)) :
    events = keys.map (.instrumentKey strategyUid) := by
  induction events generalizing keys with
  | nil =>
      obtain rfl := List.map_eq_nil_iff.mp h.symm
      rfl
  | cons event events ih =>
      obtain ⟨key, keys, rfl, hkey, hkeys⟩ := List.map_eq_cons_iff.mp h.symm
      rw [instrumentKey_of_request (hown event List.mem_cons_self) hkey.symm,
        ih (fun event hevent => hown event (List.mem_cons_of_mem _ hevent)) hkeys.symm,
        List.map_cons]

/-- A ledger that handles what a strategy asks for handles the conversation. -/
theorem conversation_of_requests (hown : ∀ event ∈ events, event.IsOf strategyUid = true)
    (h : events.map LedgerEvent.request = (RunnerRequest.keepPositions :: .resetBook ::
      (keys.map .instrumentKey ++ [.rebuildPositions])).map some) :
    ∃ triggerTime, events = conversation strategyUid keys triggerTime := by
  simp only [List.map_cons, List.map_append, List.map_map, List.map_nil] at h
  obtain ⟨first, events, rfl, hfirst, h⟩ := List.map_eq_cons_iff.mp h
  obtain ⟨second, events, rfl, hsecond, h⟩ := List.map_eq_cons_iff.mp h
  obtain ⟨named, last, rfl, hnamed, hlast⟩ := List.map_eq_append_iff.mp h
  obtain ⟨last, events, rfl, hlast, hnil⟩ := List.map_eq_cons_iff.mp hlast
  obtain rfl := List.map_eq_nil_iff.mp hnil
  simp only [List.forall_mem_cons, List.forall_mem_append] at hown
  obtain ⟨hown₁, hown₂, hown₃, hown₄, -⟩ := hown
  rw [instrumentKeys_of_requests hown₃ hnamed]
  cases first with
  | keepPositions source => 
      cases second with
      | resetBook source' => 
          cases last with
          | rebuildPositions source'' triggerTime =>
              refine ⟨triggerTime, ?_⟩
              rw [of_decide_eq_true hown₁, of_decide_eq_true hown₂, of_decide_eq_true hown₄]
              rfl
          | _ => cases hlast
      | _ => cases hsecond
  | _ => cases hfirst

end GoesOn

section Holds

variable {δ : Type} {app strategyApp : App} {market strategyMarket : Market}
  {order replicaOrder : Iteration (PositionAt ℚ)} {bookOrder : Iteration fun _ : UInt32 => AccountBook}
  {l l' : LedgerBooks} {ledger : Ledger} {strategyUid ledgerUid : UInt32} {now : Int64}
  {seen rest : List (View × RunnerEvent δ)} {request : View} {events : List LedgerEvent}
  {keeper keeper' : Bookkeeper}

/-- A strategy that has started, and neither holds its book nor mirrors positions, goes on with what
the ledger held for it in its instruments, whatever the ledger does for others before it answers.
Under other keys it has what it had itself. -/
theorem Runner.goes_on (hstarts : Starts strategyUid ledgerUid seen request rest)
    (hheld : request.isBookHeld = false) (hmirrored : request.isPositionsMirrored = false)
    (hheard : (events.filter (·.IsOf strategyUid)).map LedgerEvent.request =
      (((make false).run strategyUid ledgerUid seen).written.filter (·.Prepares)).map some)
    (hapart : AlongM (LedgerBooks.step app market order) (LedgerBooks.Apart strategyUid) l events)
    (hfiled : l.Filed) (hevents : ∀ event ∈ events, LedgerBooks.KeepsFiled event)
    (hrun : events.foldlM (LedgerBooks.step app market order) l = .ok l')
    (hbooks : ledger.books.lookup = l'.books) (hledger : Ledger.Reserved ledger.locations)
    (happ : Ledger.Reserved strategyApp.locations)
    (hcategory : ledger.locations strategyUid = some .STRATEGY)
    (hwriter : ledger.hasWriter strategyUid = true)
    (hknown : Bookkeeper.hasLocation strategyApp strategyUid = true)
    (hguard : keeper.positionsGuarded = false)
    (hanswer : (ledger.writeStrategyData order bookOrder strategyUid).foldlM
      (Bookkeeper.receive strategyApp strategyMarket replicaOrder now) keeper = .ok keeper') :
    ∃ before after, getBook strategyApp keeper.books strategyUid = .ok before ∧
      getBook strategyApp keeper'.books strategyUid = .ok after ∧ ∀ key,
        (∀ lot, Resumes l strategyUid request.instrumentKeys key lot → lot.ShownAs (after.shown key)) ∧
        ((∀ lot, ¬ Resumes l strategyUid request.instrumentKeys key lot) →
          after.shown key = before.shown key) := by
  obtain ⟨-, -, hwritten, -⟩ := (stage_run seen).of_starts hstarts
  rw [hwritten, List.filter_cons_of_neg (by decide), prepares_startRequests hheld hmirrored] at hheard
  obtain ⟨triggerTime, hasked⟩ := conversation_of_requests
    (fun event hevent => (List.mem_filter.mp hevent).2) hheard
  exact restarted hasked hapart hfiled hevents hrun hbooks hledger happ hcategory hwriter hknown
    hguard hanswer

end Holds

/-! ### One instrument of two -/

/-- A strategy that has one instrument and one account, which is ready or not. -/
def exampleView (ready : Bool) : View where
  hasWriter := true
  hasChannel _ _ := true
  accounts := [10]
  md := []
  isBookHeld := false
  isPositionsMirrored := false
  instrumentKeys := [⟨hashInstrument "SHFE" "rb2410", "rb2410", "SHFE", .Future⟩]
  isConnected _ := ready
  isReady _ := ready
  connected_of_ready _ h := h

/-- An answer that comes when the account is not ready is passed over. -/
def exampleSeen : List (View × RunnerEvent Unit) :=
  [(exampleView false, .other ()), (exampleView true, .other ()), (exampleView false, .positionEnd 9),
    (exampleView true, .positionEnd 9), (exampleView true, .other ())]

theorem exampleSeen_starts :
    Starts 7 9 exampleSeen (exampleView true) [(exampleView true, .other ())] :=
  ⟨[(exampleView false, .other ())], .other (), [(exampleView false, .positionEnd 9)],
    (exampleView true, .positionEnd 9), rfl, by decide, by decide,
    fun seen h => by rw [List.mem_singleton.mp h]; exact fun h => absurd h.1 (by decide),
    by decide, rfl⟩

theorem Runner.goes_on_example : ∃ l' keeper' before after,
    exampleConversation.foldlM (LedgerBooks.step exampleLedgerApp noInstruments .sorted)
      exampleLedgerBooks = .ok l' ∧
    ((⟨tableOf l'.books [7, 10], Ledger.exampleLocations, fun _ => true, fun _ _ => false⟩ :
      Ledger).writeStrategyData .sorted Ledger.byUid 7).foldlM
        (Bookkeeper.receive exampleLedgerApp noInstruments .sorted 0)
        (Ledger.exampleReceiver fun _ => none) = .ok keeper' ∧
    getBook exampleLedgerApp (fun _ => none) 7 = .ok before ∧
    getBook exampleLedgerApp keeper'.books 7 = .ok after ∧
    (after.shown (positionKey .Long "SHFE" "rb2410")).volume = 5 ∧
    (after.shown (positionKey .Long "SHFE" "rb2501")).volume = 0 := by
  obtain ⟨keeper', hall⟩ := exists_of_isOk (x := (do
    let l' ← exampleConversation.foldlM (LedgerBooks.step exampleLedgerApp noInstruments .sorted)
      exampleLedgerBooks
    ((⟨tableOf l'.books [7, 10], Ledger.exampleLocations, fun _ => true, fun _ _ => false⟩ :
      Ledger).writeStrategyData .sorted Ledger.byUid 7).foldlM
        (Bookkeeper.receive exampleLedgerApp noInstruments .sorted 0)
        (Ledger.exampleReceiver fun _ => none))) (by decide +kernel)
  obtain ⟨l', hrun, hanswer⟩ := exists_of_bind hall
  have hapart {uid : UInt32} (hne : uid ≠ 10) : AlongM
      (LedgerBooks.step exampleLedgerApp noInstruments .sorted) (LedgerBooks.Apart uid)
      exampleLedgerBooks exampleConversation := by
    refine .of_forall (fun event hevent s => ?_) _
    simp only [exampleConversation, List.mem_cons, List.not_mem_nil, or_false] at hevent
    rcases hevent with rfl | rfl | rfl | rfl | rfl
    case inr.inl =>
      rintro (h | h)
      · exact hne h.symm
      · exact h.2 rfl
    all_goals trivial
  have hbooks : (tableOf l'.books [7, 10]).lookup = l'.books := by
    refine lookup_tableOf fun uid huid => ?_
    simp only [List.mem_cons, List.not_mem_nil, or_false, not_or] at huid
    refine (LedgerBooks.spared_run (fun event hevent => ?_) (hapart huid.2) hrun).eq_none_iff.mpr
      (if_neg huid.1)
    simp only [exampleConversation, List.mem_cons, List.not_mem_nil, or_false] at hevent
    rcases hevent with rfl | rfl | rfl | rfl | rfl <;>
      simp [LedgerEvent.IsOf, Ne.symm huid.1]
  have hfiled : exampleLedgerBooks.Filed := by
    refine ⟨fun uid book hbook => ?_, fun uid book hbook => by cases hbook⟩
    simp only [exampleLedgerBooks] at hbook
    split at hbook
    · next huid =>
      cases hbook
      refine ⟨huid.symm, huid.symm, fun key p hp => .inl ?_⟩
      rcases List.mem_cons.mp (mem_of_lookup_collect hp) with h | h
      · cases h
        exact huid.symm
      · cases List.mem_singleton.mp h
        exact huid.symm
    · cases hbook
  obtain ⟨before, after, hbefore, hafter, hkeys⟩ := goes_on exampleSeen_starts rfl rfl rfl
    (hapart (by decide)) hfiled
    (by simp [exampleConversation, LedgerBooks.KeepsFiled]) hrun hbooks ⟨rfl, rfl⟩ ⟨rfl, rfl⟩ rfl rfl
    rfl rfl hanswer
  refine ⟨l', keeper', before, after, hrun, hanswer, hbefore, hafter, ?_, ?_⟩
  · refine ((hkeys _).1 ⟨7, 5, 0, 0, 0, 0, 0⟩ ⟨?_, ?_, ?_, rfl⟩).volume <;> decide +kernel
  · have hnot : (positionKey .Long "SHFE" "rb2501").hash ∉
        hashesOf [⟨hashInstrument "SHFE" "rb2410", "rb2410", "SHFE", .Future⟩] := by decide +kernel
    rw [(hkeys _).2 fun lot h => hnot h.named]
    cases hbefore
    rfl

end Kungfu.Wingchun
