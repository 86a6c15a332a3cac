import Kungfu.Api.Service
import Kungfu.Broker.Resume
import Kungfu.Logic.Outcome
import Kungfu.Logic.Run

/-!
# Brokers that are ready

A client hears of the states of brokers and opens writers to them.  A broker is ready when it
says so and there is a writer to it.  The client tests this when it hears of a state, but not when
the writer is opened; of the states that are not `Ready` only two take a broker back; and the first
state of a broker that is recorded stays.
-/

namespace Kungfu.Broker

open Longfist Wingchun Logic

inductive BrokerState
  | Pending | Idle | DisConnected | Connected | LoggedIn | LoginFailed | Ready
  deriving DecidableEq, Repr

/-- What a client asks the master for. -/
inductive ClientRequest
  | writeTo (uid : UInt32)
  | readFrom (uid : UInt32) (fromTime : ℤ)
  | readFromPublic (uid : UInt32) (fromTime : ℤ)
  | readFromSync (uid : UInt32) (fromTime : ℤ)
  deriving DecidableEq, Repr

/-- What a client writes to a broker. -/
inductive ClientMessage
  | instrumentKey (key : Api.InstrumentKey)
  | assetRequest
  | positionRequest
  | orderTradeRequest
  deriving DecidableEq, Repr

/-- What is kept by `Client`, and by the app that it belongs to: `locations_` and `writers_`. -/
structure Client where
  locations : UInt32 → Option Category
  writers : Finset UInt32
  brokerStates : AList fun _ : UInt32 => BrokerState
  readyMdLocations : Finset UInt32
  readyTdLocations : Finset UInt32
  connectedLocations : Finset UInt32
  replay : Api.BrokerClient
  requests : List ClientRequest
  written : List (UInt32 × ClientMessage)

inductive ClientEvent
  | location (uid : UInt32) (category : Category)
  /-- The master grants a writer. -/
  | writeTo (uid : UInt32)
  | register (uid : UInt32) (data : Register)
  | brokerStateUpdate (uid : UInt32) (state : BrokerState)
  | deregister (uid : UInt32)

namespace Client

/-- A client that has started; it was told of some subscriptions. -/
def start (replay : Api.BrokerClient) : Client where
  locations := fun _ => none
  writers := ∅
  brokerStates := ∅
  readyMdLocations := ∅
  readyTdLocations := ∅
  connectedLocations := ∅
  replay := replay
  requests := []
  written := []

section Model

variable (c : Client)

/-- `is_ready`. -/
def isReady (uid : UInt32) : Bool :=
  match c.locations uid with
  | none => false
  | some category =>
      uid ∈ c.writers ∧ (category = .MD ∧ uid ∈ c.readyMdLocations ∨
        category = .TD ∧ uid ∈ c.readyTdLocations)

/-- `get_location`. -/
def getLocation (uid : UInt32) : Except Fault Category :=
  match c.locations uid with
  | none => .error .outOfRange
  | some category => .ok category

/-- What is asked for to connect to a location. -/
def requestsTo (category : Category) (uid : UInt32) (fromTime : ℤ) : List ClientRequest :=
  match category with
  | .MD => [.writeTo uid, .readFromPublic uid fromTime]
  | .STRATEGY => [.writeTo uid, .readFrom uid fromTime, .readFromPublic uid fromTime]
  | .TD | .SYSTEM =>
      [.writeTo uid, .readFrom uid fromTime, .readFromPublic uid fromTime, .readFromSync uid fromTime]

/-- `renew`. -/
def renew (uid : UInt32) : Client :=
  { c with written := c.written ++ (c.replay.renewed uid).map fun key => (uid, .instrumentKey key) }

/-- `sync`. -/
def sync (uid : UInt32) : Client :=
  { c with written := c.written ++
      [(uid, .assetRequest), (uid, .positionRequest), (uid, .orderTradeRequest)] }

variable (connectTime : Register → ℤ) (shouldConnect : Category → UInt32 → Bool)

/-- `connect`. -/
def connect (uid : UInt32) (data : Register) : Except Fault Client :=
  if uid ∈ c.connectedLocations then .ok c
  else do
    let category ← c.getLocation uid
    return if shouldConnect category uid then
        { c with
          connectedLocations := insert uid c.connectedLocations
          requests := c.requests ++ requestsTo category uid (connectTime data) }
      else c

/-- Whether `switch_broker_state` finds a broker ready. -/
def BecomesReady (uid : UInt32) (state : BrokerState) (readyLocations : Finset UInt32) : Prop :=
  state = .Ready ∧ uid ∈ c.writers ∧ uid ∉ readyLocations

instance (uid : UInt32) (state : BrokerState) (readyLocations : Finset UInt32) :
    Decidable (c.BecomesReady uid state readyLocations) := inferInstanceAs (Decidable (_ ∧ _ ∧ _))

/-- What `switch_broker_state` leaves of the brokers that are ready. -/
def switchBrokerState (uid : UInt32) (state : BrokerState) (readyLocations : Finset UInt32) :
    Finset UInt32 :=
  if c.BecomesReady uid state readyLocations then insert uid readyLocations
  else if state = .Connected ∨ state = .DisConnected then readyLocations.erase uid
  else readyLocations

/-- `update_broker_state` for `BrokerStateUpdate`. -/
def updateBrokerState (uid : UInt32) (state : BrokerState) : Except Fault Client := do
  let category ← c.getLocation uid
  let brokerStates := Table.tryEmplace uid state c.brokerStates
  return match category with
    | .MD =>
        { c with
          readyMdLocations := c.switchBrokerState uid state c.readyMdLocations
          brokerStates := brokerStates
          written := if c.BecomesReady uid state c.readyMdLocations then (c.renew uid).written
            else c.written }
    | .TD =>
        { c with
          readyTdLocations := c.switchBrokerState uid state c.readyTdLocations
          brokerStates := brokerStates
          written := if c.BecomesReady uid state c.readyTdLocations then (c.sync uid).written
            else c.written }
    | _ => { c with brokerStates := brokerStates }

/-- `update_broker_state` for `Deregister`. -/
def deregister (uid : UInt32) : Except Fault Client := do
  let _ ← c.getLocation uid
  return { c with
    brokerStates := Table.tryEmplace uid .DisConnected c.brokerStates
    readyMdLocations := c.readyMdLocations.erase uid
    readyTdLocations := c.readyTdLocations.erase uid
    connectedLocations := c.connectedLocations.erase uid }

def handle : ClientEvent → Except Fault Client
  | .location uid category =>
      let known := (c.locations uid).getD category
      .ok { c with locations := Function.update c.locations uid (some known) }
  | .writeTo uid => .ok { c with writers := insert uid c.writers }
  | .register uid data => c.connect connectTime shouldConnect uid data
  | .brokerStateUpdate uid state => c.updateBrokerState uid state
  | .deregister uid => c.deregister uid

end Model

end Client

/-! ## What is to hold -/

/-- A client, and the latest state of each broker that it has heard of. -/
structure Watched where
  client : Client
  latest : UInt32 → Option BrokerState

/-- The latest states after an event. -/
def ClientEvent.hear (latest : UInt32 → Option BrokerState) :
    ClientEvent → UInt32 → Option BrokerState
  | brokerStateUpdate uid state => Function.update latest uid (some state)
  | deregister uid => Function.update latest uid (some .DisConnected)
  | _ => latest

/-- A location is one of market data or of trading. -/
def Client.IsBroker (c : Client) (uid : UInt32) : Prop :=
  c.locations uid = some .MD ∨ c.locations uid = some .TD

instance (c : Client) : DecidablePred c.IsBroker := fun _ => inferInstanceAs (Decidable (_ ∨ _))

namespace Watched

/-- The state that is recorded of each broker is the latest one. -/
def RecordsLatest (w : Watched) : Prop :=
  ∀ uid, w.client.IsBroker uid → w.client.brokerStates.lookup uid = w.latest uid

/-- A broker is ready if there is a writer to it and its latest state says so, and not else. -/
def ReadyExactly (w : Watched) : Prop :=
  ∀ uid, w.client.IsBroker uid →
    (w.client.isReady uid = true ↔ uid ∈ w.client.writers ∧ w.latest uid = some .Ready)

/-- A broker whose state is heard of had no state before, or the same. -/
def KeepsState (w : Watched) : ClientEvent → Prop
  | .brokerStateUpdate uid state =>
      w.client.IsBroker uid → w.latest uid = none ∨ w.latest uid = some state
  | .deregister uid =>
      w.client.IsBroker uid → w.latest uid = none ∨ w.latest uid = some .DisConnected
  | _ => True

/-- A broker with a writer does not go from `Ready` to a state other than `Connected` and
`DisConnected`, and no writer is opened to a broker whose latest state is `Ready`. -/
def KeepsReady (w : Watched) : ClientEvent → Prop
  | .brokerStateUpdate uid state =>
      w.client.IsBroker uid → uid ∈ w.client.writers → w.latest uid = some .Ready →
        state = .Ready ∨ state = .Connected ∨ state = .DisConnected
  | .writeTo uid =>
      w.client.IsBroker uid → w.latest uid = some .Ready → uid ∈ w.client.writers
  | _ => True

section

variable (connectTime : Register → ℤ) (shouldConnect : Category → UInt32 → Bool)

def step (w : Watched) (event : ClientEvent) : Except Fault Watched := do
  let client ← w.client.handle connectTime shouldConnect event
  return ⟨client, event.hear w.latest⟩

def run (events : List ClientEvent) (w : Watched) : Except Fault Watched :=
  events.foldlM (step connectTime shouldConnect) w

end

/-- A client that has heard of nothing. -/
def start (replay : Api.BrokerClient) : Watched := ⟨Client.start replay, fun _ => none⟩

end Watched

/-! ## What the handlers do -/

namespace Client

variable {connectTime : Register → ℤ} {shouldConnect : Category → UInt32 → Bool} {c c' : Client}
  {uid : UInt32} {state : BrokerState} {category : Category}

/-- A broker is recorded as ready. -/
def Recorded (c : Client) (uid : UInt32) : Prop :=
  uid ∈ c.readyMdLocations ∨ uid ∈ c.readyTdLocations

/-- Brokers are recorded as ready by their category, and there are writers to them. -/
structure Sound (c : Client) : Prop where
  md : ∀ uid ∈ c.readyMdLocations, c.locations uid = some .MD ∧ uid ∈ c.writers
  td : ∀ uid ∈ c.readyTdLocations, c.locations uid = some .TD ∧ uid ∈ c.writers
  states : ∀ uid, c.locations uid = none → c.brokerStates.lookup uid = none

theorem exists_of_getLocation (h : c.getLocation uid = .ok category) :
    c.locations uid = some category := by
  unfold getLocation at h
  split at h
  · cases h
  · cases h
    assumption

theorem Sound.isReady_iff (h : c.Sound) : c.isReady uid = true ↔ c.Recorded uid := by
  unfold isReady Recorded
  constructor
  · intro hready
    split at hready
    · cases hready
    · obtain ⟨-, ⟨-, hmd⟩ | ⟨-, htd⟩⟩ := of_decide_eq_true hready
      · exact .inl hmd
      · exact .inr htd
  · rintro (hmd | htd)
    · obtain ⟨hlocation, hwriter⟩ := h.md uid hmd
      rw [hlocation]
      exact decide_eq_true ⟨hwriter, .inl ⟨rfl, hmd⟩⟩
    · obtain ⟨hlocation, hwriter⟩ := h.td uid htd
      rw [hlocation]
      exact decide_eq_true ⟨hwriter, .inr ⟨rfl, htd⟩⟩

theorem Sound.writer_of_recorded (h : c.Sound) (hrecorded : c.Recorded uid) : uid ∈ c.writers :=
  hrecorded.elim (fun hmd => (h.md uid hmd).2) fun htd => (h.td uid htd).2

theorem mem_switchBrokerState {readyLocations : Finset UInt32} {uid' : UInt32} :
    uid' ∈ c.switchBrokerState uid state readyLocations ↔
      if uid' = uid then
        (state = .Ready ∧ uid ∈ c.writers) ∨
          (uid ∈ readyLocations ∧ state ≠ .Connected ∧ state ≠ .DisConnected)
      else uid' ∈ readyLocations := by
  rw [switchBrokerState]
  by_cases huid : uid' = uid
  · subst huid
    rw [if_pos rfl]
    by_cases hbecomes : c.BecomesReady uid' state readyLocations
    · rw [if_pos hbecomes]
      simp [hbecomes.1, hbecomes.2.1]
    · rw [if_neg hbecomes]
      split
      · rename_i hreset
        rcases hreset with rfl | rfl <;> simp
      · rename_i hreset
        rw [not_or] at hreset
        constructor
        · exact fun hmem => .inr ⟨hmem, hreset⟩
        · rintro (⟨hready, hwriter⟩ | ⟨hmem, -⟩)
          · by_contra hnot
            exact hbecomes ⟨hready, hwriter, hnot⟩
          · exact hmem
  · rw [if_neg huid]
    by_cases hbecomes : c.BecomesReady uid state readyLocations
    · rw [if_pos hbecomes]
      simp [huid]
    · rw [if_neg hbecomes]
      split
      · simp [huid]
      · rfl

/-- What a state that is heard of changes. -/
theorem updateBrokerState_spec (hsound : c.Sound) (h : c.updateBrokerState uid state = .ok c') :
    c.locations uid ≠ none ∧ c'.locations = c.locations ∧ c'.writers = c.writers ∧
      c'.brokerStates = Table.tryEmplace uid state c.brokerStates ∧ c'.Sound ∧
      ∀ uid', c'.Recorded uid' ↔
        if uid' = uid ∧ c.IsBroker uid then
          (state = .Ready ∧ uid ∈ c.writers) ∨
            (c.Recorded uid ∧ state ≠ .Connected ∧ state ≠ .DisConnected)
        else c.Recorded uid' := by
  obtain ⟨category, hlocation, hret⟩ := Outcome.exists_of_bind h
  have hknown := exists_of_getLocation hlocation
  have hstates (uid' : UInt32) (hnone : c.locations uid' = none) :
      (Table.tryEmplace uid state c.brokerStates).lookup uid' = none := by
    rw [Table.lookup_tryEmplace_apply, if_neg]
    · exact hsound.states uid' hnone
    · rintro rfl
      cases hknown.symm.trans hnone
  refine ⟨by simp [hknown], ?_⟩
  cases category with
  | MD =>
      cases hret
      have hbroker : c.IsBroker uid := .inl hknown
      have htd : uid ∉ c.readyTdLocations := fun htd => by
        cases hknown.symm.trans (hsound.td uid htd).1
      refine ⟨rfl, rfl, rfl, ⟨fun uid' hmem => ?_, hsound.td, hstates⟩, fun uid' => ?_⟩
      · rw [mem_switchBrokerState] at hmem
        split at hmem
        · rename_i huid
          subst huid
          exact ⟨hknown, hmem.elim And.right fun h => (hsound.md uid' h.1).2⟩
        · exact hsound.md uid' hmem
      · rw [Recorded, mem_switchBrokerState]
        by_cases huid : uid' = uid
        · subst huid
          simp [hbroker, Recorded, htd]
        · simp [huid, Recorded]
  | TD =>
      cases hret
      have hbroker : c.IsBroker uid := .inr hknown
      have hmd : uid ∉ c.readyMdLocations := fun hmd => by
        cases hknown.symm.trans (hsound.md uid hmd).1
      refine ⟨rfl, rfl, rfl, ⟨hsound.md, fun uid' hmem => ?_, hstates⟩, fun uid' => ?_⟩
      · rw [mem_switchBrokerState] at hmem
        split at hmem
        · rename_i huid
          subst huid
          exact ⟨hknown, hmem.elim And.right fun h => (hsound.td uid' h.1).2⟩
        · exact hsound.td uid' hmem
      · rw [Recorded, mem_switchBrokerState]
        by_cases huid : uid' = uid
        · subst huid
          simp [hbroker, Recorded, hmd]
        · simp [huid, Recorded]
  | STRATEGY =>
      cases hret
      have hbroker : ¬ c.IsBroker uid := by simp [IsBroker, hknown]
      exact ⟨rfl, rfl, rfl, ⟨hsound.md, hsound.td, hstates⟩, fun uid' => by simp [hbroker, Recorded]⟩
  | SYSTEM =>
      cases hret
      have hbroker : ¬ c.IsBroker uid := by simp [IsBroker, hknown]
      exact ⟨rfl, rfl, rfl, ⟨hsound.md, hsound.td, hstates⟩, fun uid' => by simp [hbroker, Recorded]⟩

/-- What a broker that is gone changes. -/
theorem deregister_spec (hsound : c.Sound) (h : c.deregister uid = .ok c') :
    c.locations uid ≠ none ∧ c'.locations = c.locations ∧ c'.writers = c.writers ∧
      c'.brokerStates = Table.tryEmplace uid .DisConnected c.brokerStates ∧ c'.Sound ∧
      ∀ uid', c'.Recorded uid' ↔ uid' ≠ uid ∧ c.Recorded uid' := by
  obtain ⟨category, hlocation, hret⟩ := Outcome.exists_of_bind h
  have hknown := exists_of_getLocation hlocation
  cases hret
  refine ⟨by simp [hknown], rfl, rfl, rfl, ⟨fun uid' hmem => ?_, fun uid' hmem => ?_,
    fun uid' hnone => ?_⟩, fun uid' => ?_⟩
  · exact hsound.md uid' (Finset.mem_of_mem_erase hmem)
  · exact hsound.td uid' (Finset.mem_of_mem_erase hmem)
  · rw [Table.lookup_tryEmplace_apply, if_neg]
    · exact hsound.states uid' hnone
    · rintro rfl
      cases hknown.symm.trans hnone
  · simp only [Recorded, Finset.mem_erase]
    exact and_or_left.symm

/-- A connection changes nothing that is known of the states of brokers. -/
theorem connect_spec {data : Register} (h : c.connect connectTime shouldConnect uid data = .ok c') :
    ∃ connected requests,
      c' = { c with connectedLocations := connected, requests := requests } := by
  unfold connect at h
  split at h
  · cases h
    exact ⟨c.connectedLocations, c.requests, rfl⟩
  · obtain ⟨category, -, hret⟩ := Outcome.exists_of_bind h
    cases hret
    split
    · exact ⟨_, _, rfl⟩
    · exact ⟨c.connectedLocations, c.requests, rfl⟩

theorem exists_updateBrokerState (state : BrokerState) (h : c.locations uid ≠ none) :
    ∃ c', c.updateBrokerState uid state = .ok c' := by
  obtain ⟨category, hknown⟩ := Option.ne_none_iff_exists'.mp h
  rw [updateBrokerState, getLocation, hknown]
  exact ⟨_, rfl⟩

theorem exists_deregister (h : c.locations uid ≠ none) : ∃ c', c.deregister uid = .ok c' := by
  obtain ⟨category, hknown⟩ := Option.ne_none_iff_exists'.mp h
  rw [deregister, getLocation, hknown]
  exact ⟨_, rfl⟩

theorem IsBroker.known (h : c.IsBroker uid) : c.locations uid ≠ none := by
  rcases h with h | h <;> simp [h]

theorem isBroker_congr (hlocations : c'.locations = c.locations) :
    c'.IsBroker uid ↔ c.IsBroker uid := by
  rw [IsBroker, hlocations]
  rfl

/-- A broker whose location is told was one before, or was not known. -/
theorem isBroker_location {uid' : UInt32}
    (hok : c.handle connectTime shouldConnect (.location uid category) = .ok c')
    (h : c'.IsBroker uid') : c.locations uid' = none ∨ c.IsBroker uid' := by
  by_cases hnone : c.locations uid' = none
  · exact .inl hnone
  · refine .inr ?_
    cases hok
    unfold IsBroker at h ⊢
    dsimp only at h
    rw [Function.update_apply] at h
    split at h
    · rename_i huid
      subst huid
      obtain ⟨known, hlocation⟩ := Option.ne_none_iff_exists'.mp hnone
      rw [hlocation] at h ⊢
      exact h
    · exact h

end Client

namespace Watched

variable {connectTime : Register → ℤ} {shouldConnect : Category → UInt32 → Bool} {w w' : Watched}
  {c' : Client} {event : ClientEvent} {uid : UInt32} {state : BrokerState}

/-- Nothing is known of locations that are not. -/
structure Known (w : Watched) : Prop where
  sound : w.client.Sound
  heard : ∀ uid, w.client.locations uid = none → w.latest uid = none

theorem forall_step_iff {P : Watched → Prop} :
    (∀ w', w.step connectTime shouldConnect event = .ok w' → P w') ↔
      ∀ c', w.client.handle connectTime shouldConnect event = .ok c' →
        P ⟨c', event.hear w.latest⟩ := by
  unfold step
  cases w.client.handle connectTime shouldConnect event with
  | error fault => exact ⟨fun _ => nofun, fun _ => nofun⟩
  | ok c =>
      constructor
      · rintro h c' ⟨⟩
        exact h _ rfl
      · rintro h w' ⟨⟩
        exact h c rfl

/-- The state of a location that is known is heard. -/
theorem Known.hear (h : w.Known) (hknown : w.client.locations uid ≠ none)
    (hlocations : c'.locations = w.client.locations) (hsound : c'.Sound) :
    Known ⟨c', Function.update w.latest uid (some state)⟩ := by
  refine ⟨hsound, fun uid' hnone => ?_⟩
  dsimp only at hnone
  rw [hlocations] at hnone
  have hne : uid' ≠ uid := fun huid => hknown (huid ▸ hnone)
  exact (Function.update_of_ne hne ..).trans (h.heard uid' hnone)

theorem Known.step (h : w.Known) : ∀ w', w.step connectTime shouldConnect event = .ok w' →
    w'.Known := by
  rw [forall_step_iff]
  intro c' hok
  cases event with
  | location uid category =>
      cases hok
      have hold (uid' : UInt32) (hnone : Function.update w.client.locations uid
          (some ((w.client.locations uid).getD category)) uid' = none) :
          w.client.locations uid' = none := by
        rw [Function.update_apply] at hnone
        split at hnone
        · cases hnone
        · exact hnone
      have hkeep (uid' : UInt32) {known : Category} (hknown : w.client.locations uid' = some known) :
          Function.update w.client.locations uid
            (some ((w.client.locations uid).getD category)) uid' = some known := by
        rw [Function.update_apply]
        split
        · rename_i huid
          rw [← huid, hknown, Option.getD_some]
        · exact hknown
      refine ⟨⟨fun uid' hmem => ?_, fun uid' hmem => ?_, fun uid' hnone => ?_⟩,
        fun uid' hnone => ?_⟩
      · exact ⟨hkeep uid' (h.sound.md uid' hmem).1, (h.sound.md uid' hmem).2⟩
      · exact ⟨hkeep uid' (h.sound.td uid' hmem).1, (h.sound.td uid' hmem).2⟩
      · exact h.sound.states uid' (hold uid' hnone)
      · exact h.heard uid' (hold uid' hnone)
  | writeTo uid =>
      cases hok
      refine ⟨⟨fun uid' hmem => ?_, fun uid' hmem => ?_, h.sound.states⟩, h.heard⟩
      · exact ⟨(h.sound.md uid' hmem).1, Finset.mem_insert_of_mem (h.sound.md uid' hmem).2⟩
      · exact ⟨(h.sound.td uid' hmem).1, Finset.mem_insert_of_mem (h.sound.td uid' hmem).2⟩
  | register uid data =>
      obtain ⟨connected, requests, rfl⟩ := Client.connect_spec hok
      exact ⟨⟨h.sound.md, h.sound.td, h.sound.states⟩, h.heard⟩
  | brokerStateUpdate uid state =>
      obtain ⟨hknown, hlocations, -, -, hsound, -⟩ := Client.updateBrokerState_spec h.sound hok
      exact h.hear hknown hlocations hsound
  | deregister uid =>
      obtain ⟨hknown, hlocations, -, -, hsound, -⟩ := Client.deregister_spec h.sound hok
      exact h.hear hknown hlocations hsound

/-- A state is recorded unless there is one. -/
theorem RecordsLatest.emplace_iff (h : w.RecordsLatest)
    (hlocations : c'.locations = w.client.locations)
    (hstates : c'.brokerStates = Table.tryEmplace uid state w.client.brokerStates) :
    RecordsLatest ⟨c', Function.update w.latest uid (some state)⟩ ↔
      (w.client.IsBroker uid → w.latest uid = none ∨ w.latest uid = some state) := by
  have hbroker (uid' : UInt32) : c'.IsBroker uid' ↔ w.client.IsBroker uid' :=
    Client.isBroker_congr hlocations
  constructor
  · intro hrecords huid
    have hown := hrecords uid ((hbroker uid).mpr huid)
    dsimp only at hown
    rw [hstates, Table.lookup_tryEmplace_apply, if_pos rfl, Function.update_self, h uid huid] at hown
    cases hlatest : w.latest uid with
    | none => exact .inl rfl
    | some latest =>
        rw [hlatest, Option.getD_some] at hown
        exact .inr hown
  · intro hkeeps uid' huid'
    have hrecorded := h uid' ((hbroker uid').mp huid')
    dsimp only
    rw [hstates, Table.lookup_tryEmplace_apply, Function.update_apply]
    split
    · rename_i huid
      subst huid
      rw [hrecorded]
      rcases hkeeps ((hbroker uid').mp huid') with hlatest | hlatest <;> rw [hlatest] <;> rfl
    · exact hrecorded

/-- The latest states stay recorded exactly when brokers keep the states that they had. -/
theorem keepsState_iff (hknown : w.Known) (h : w.RecordsLatest) : w.KeepsState event ↔
    ∀ w', w.step connectTime shouldConnect event = .ok w' → w'.RecordsLatest := by
  rw [forall_step_iff]
  cases event with
  | location uid category =>
      refine iff_of_true trivial ?_
      intro c' hok uid' hbroker
      rcases Client.isBroker_location hok hbroker with hnone | hbefore
      · cases hok
        exact (hknown.sound.states uid' hnone).trans (hknown.heard uid' hnone).symm
      · cases hok
        exact h uid' hbefore
  | writeTo uid =>
      refine iff_of_true trivial ?_
      rintro c' ⟨⟩
      exact h
  | register uid data =>
      refine iff_of_true trivial fun c' hok => ?_
      obtain ⟨connected, requests, rfl⟩ := Client.connect_spec hok
      exact h
  | brokerStateUpdate uid state =>
      constructor
      · intro hkeeps c' hok
        obtain ⟨-, hlocations, -, hstates, -⟩ := Client.updateBrokerState_spec hknown.sound hok
        exact (h.emplace_iff hlocations hstates).mpr hkeeps
      · intro hrecords hbroker
        obtain ⟨c', hok⟩ := Client.exists_updateBrokerState state hbroker.known
        obtain ⟨-, hlocations, -, hstates, -⟩ := Client.updateBrokerState_spec hknown.sound hok
        exact (h.emplace_iff hlocations hstates).mp (hrecords c' hok) hbroker
  | deregister uid =>
      constructor
      · intro hkeeps c' hok
        obtain ⟨-, hlocations, -, hstates, -⟩ := Client.deregister_spec hknown.sound hok
        exact (h.emplace_iff hlocations hstates).mpr hkeeps
      · intro hrecords hbroker
        obtain ⟨c', hok⟩ := Client.exists_deregister hbroker.known
        obtain ⟨-, hlocations, -, hstates, -⟩ := Client.deregister_spec hknown.sound hok
        exact (h.emplace_iff hlocations hstates).mp (hrecords c' hok) hbroker

theorem readyExactly_iff (hsound : w.client.Sound) : w.ReadyExactly ↔
    ∀ uid, w.client.IsBroker uid →
      (w.client.Recorded uid ↔ uid ∈ w.client.writers ∧ w.latest uid = some .Ready) := by
  unfold ReadyExactly
  simp only [hsound.isReady_iff]

/-- A state leaves brokers as ready as they should be if it does not end the readiness of one with a
writer without disconnecting it. -/
theorem ready_updateBrokerState_iff {state : BrokerState} (hknown : w.Known)
    (h : ∀ uid, w.client.IsBroker uid →
      (w.client.Recorded uid ↔ uid ∈ w.client.writers ∧ w.latest uid = some .Ready)) :
    (w.client.IsBroker uid → uid ∈ w.client.writers → w.latest uid = some .Ready →
        state = .Ready ∨ state = .Connected ∨ state = .DisConnected) ↔
      ∀ c', w.client.updateBrokerState uid state = .ok c' → ∀ uid', c'.IsBroker uid' →
        (c'.Recorded uid' ↔
          uid' ∈ c'.writers ∧ Function.update w.latest uid (some state) uid' = some .Ready) := by
  constructor
  · intro hkeeps c' hok uid' hbroker
    obtain ⟨-, hlocations, hwriters, -, -, hrecorded⟩ :=
      Client.updateBrokerState_spec hknown.sound hok
    have hbefore := (Client.isBroker_congr hlocations).mp hbroker
    rw [hrecorded, hwriters, Function.update_apply]
    by_cases huid : uid' = uid
    · subst huid
      rw [if_pos ⟨rfl, hbefore⟩, if_pos rfl, Option.some_inj]
      constructor
      · rintro (⟨hready, hwriter⟩ | ⟨hrecorded, hconnected, hdisconnected⟩)
        · exact ⟨hwriter, hready⟩
        · obtain ⟨hwriter, hready⟩ := (h uid' hbefore).mp hrecorded
          rcases hkeeps hbefore hwriter hready with hstate | hstate | hstate
          · exact ⟨hwriter, hstate⟩
          · exact absurd hstate hconnected
          · exact absurd hstate hdisconnected
      · exact fun ⟨hwriter, hready⟩ => .inl ⟨hready, hwriter⟩
    · rw [if_neg fun hand => huid hand.1, if_neg huid]
      exact h uid' hbefore
  · intro hall hbroker hwriter hready
    obtain ⟨c', hok⟩ := Client.exists_updateBrokerState state hbroker.known
    obtain ⟨-, hlocations, hwriters, -, -, hrecorded⟩ :=
      Client.updateBrokerState_spec hknown.sound hok
    have hafter := (Client.isBroker_congr hlocations).mpr hbroker
    have hown := hall c' hok uid hafter
    rw [hrecorded, if_pos ⟨rfl, hbroker⟩, Function.update_self, Option.some_inj] at hown
    by_contra hother
    rw [not_or, not_or] at hother
    obtain ⟨hnotReady, hconnected, hdisconnected⟩ := hother
    have hstill := (h uid hbroker).mpr ⟨hwriter, hready⟩
    exact hnotReady (hown.mp (.inr ⟨hstill, hconnected, hdisconnected⟩)).2

/-- Brokers stay ready exactly when none with a writer fails without being disconnected, and none
gets a writer that is ready. -/
theorem keepsReady_iff (hknown : w.Known) (h : w.ReadyExactly) : w.KeepsReady event ↔
    ∀ w', w.step connectTime shouldConnect event = .ok w' → w'.ReadyExactly := by
  rw [readyExactly_iff hknown.sound] at h
  have hiff (w' : Watched) (hstep : w.step connectTime shouldConnect event = .ok w') :=
    readyExactly_iff (hknown.step w' hstep).sound
  rw [forall₂_congr hiff, forall_step_iff]
  cases event with
  | location uid category =>
      refine iff_of_true trivial ?_
      intro c' hok uid' hbroker
      rcases Client.isBroker_location hok hbroker with hnone | hbefore
      · cases hok
        refine iff_of_false ?_ fun hready => ?_
        · rintro (hmd | htd)
          · cases hnone.symm.trans (hknown.sound.md uid' hmd).1
          · cases hnone.symm.trans (hknown.sound.td uid' htd).1
        · cases (hknown.heard uid' hnone).symm.trans hready.2
      · cases hok
        exact h uid' hbefore
  | writeTo uid =>
      constructor
      · rintro hkeeps c' ⟨⟩ uid' hbroker
        refine (h uid' hbroker).trans ⟨fun ⟨hwriter, hready⟩ => ?_, fun ⟨hwriter, hready⟩ => ?_⟩
        · exact ⟨Finset.mem_insert_of_mem hwriter, hready⟩
        · refine ⟨?_, hready⟩
          rcases Finset.mem_insert.mp hwriter with rfl | hwriter
          · exact hkeeps hbroker hready
          · exact hwriter
      · intro hall hbroker hready
        have hrecorded := (hall _ rfl uid hbroker).mpr ⟨Finset.mem_insert_self .., hready⟩
        exact hknown.sound.writer_of_recorded hrecorded
  | register uid data =>
      refine iff_of_true trivial fun c' hok => ?_
      obtain ⟨connected, requests, rfl⟩ := Client.connect_spec hok
      exact h
  | brokerStateUpdate uid state => exact ready_updateBrokerState_iff hknown h
  | deregister uid =>
      refine iff_of_true trivial fun c' hok uid' hbroker => ?_
      obtain ⟨-, hlocations, hwriters, -, -, hrecorded⟩ := Client.deregister_spec hknown.sound hok
      have hbefore := (Client.isBroker_congr hlocations).mp hbroker
      rw [hrecorded, hwriters, ClientEvent.hear]
      dsimp only
      rw [Function.update_apply]
      by_cases huid : uid' = uid
      · rw [if_pos huid]
        exact iff_of_false (fun hand => hand.1 huid) fun hand => (by cases hand.2)
      · rw [if_neg huid, h uid' hbefore]
        exact and_iff_right huid

theorem known_start (replay : Api.BrokerClient) : (start replay).Known := by
  refine ⟨⟨fun uid hmem => ?_, fun uid hmem => ?_, fun uid _ => rfl⟩, fun uid _ => rfl⟩
  · cases hmem
  · cases hmem

theorem not_isBroker_start (replay : Api.BrokerClient) (uid : UInt32) :
    ¬ (start replay).client.IsBroker uid := by
  rintro (h | h) <;> cases h

/-- The client records the latest states all the time exactly if every broker keeps the first one,
and it finds brokers ready as it should exactly if none with a writer fails without being
disconnected, and none gets a writer that is ready. -/
theorem tracks_iff (connectTime : Register → ℤ) (shouldConnect : Category → UInt32 → Bool)
    (replay : Api.BrokerClient) (events : List ClientEvent) :
    ((∀ done w, done <+: events → run connectTime shouldConnect done (start replay) = .ok w →
        w.RecordsLatest) ↔
      AlongM (step connectTime shouldConnect) KeepsState (start replay) events) ∧
    ((∀ done w, done <+: events → run connectTime shouldConnect done (start replay) = .ok w →
        w.ReadyExactly) ↔
      AlongM (step connectTime shouldConnect) KeepsReady (start replay) events) := by
  have hstart := known_start replay
  have hnone := not_isBroker_start replay
  constructor
  · symm
    exact alongM_iff_forall_prefix (J := Known) (I := RecordsLatest)
      (fun _ _ s' hknown hok => hknown.step s' hok) (fun _ _ hknown h => keepsState_iff hknown h)
      hstart fun uid hbroker => absurd hbroker (hnone uid)
  · symm
    exact alongM_iff_forall_prefix (J := Known) (I := ReadyExactly)
      (fun _ _ s' hknown hok => hknown.step s' hok) (fun _ _ hknown h => keepsReady_iff hknown h)
      hstart fun uid hbroker => absurd hbroker (hnone uid)

/-- A trader was ready and cannot log in any more. -/
theorem ready_of_loginFailed : ∃ w, run (fun _ => 0) (fun _ _ => true)
      [.location 5 .TD, .writeTo 5, .brokerStateUpdate 5 .Ready, .brokerStateUpdate 5 .LoginFailed]
      (start ⟨∅, ∅, ∅⟩) = .ok w ∧ ¬ w.RecordsLatest ∧ ¬ w.ReadyExactly := by
  refine ⟨_, rfl, fun hrecords => ?_, fun hready => ?_⟩
  · have h := hrecords 5 (by decide)
    revert h
    decide
  · have h := (hready 5 (by decide)).mp (by decide)
    revert h
    decide

end Watched

end Kungfu.Broker
