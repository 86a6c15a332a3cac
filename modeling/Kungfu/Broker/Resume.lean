import Kungfu.Logic.Run
import Mathlib.Data.List.Sort
import Mathlib.Tactic.Common

/-!
# Resuming a connection to a broker

When a client hears that a broker is registered it reads the journals of the broker from a time
that its policy chooses.  The policy knows when both checked in and when both were last active
before that.  It takes a broker that checked in after the client, and was last active after the
client's check-in, for one that the client was connected to meanwhile.  That is not so while the
client has not started.
-/

namespace Kungfu.Broker

open Logic

def INT64_MIN : ℤ := -9223372036854775808

/-- What a client hears of a broker; `lastActiveTime` is the end of the session before. -/
structure Register where
  checkinTime : ℤ
  lastActiveTime : ℤ
  deriving DecidableEq, Repr

/-- What a client knows of itself. -/
structure Apprentice where
  checkinTime : ℤ
  lastActiveTime : ℤ
  deriving DecidableEq, Repr

/-- `ResumePolicy::get_connect_time`. -/
def getConnectTime (getResumeTime : Apprentice → Register → ℤ) (app : Apprentice)
    (broker : Register) : ℤ :=
  if app.lastActiveTime = INT64_MIN then broker.checkinTime
  else if app.checkinTime ≤ broker.checkinTime ∧ app.checkinTime ≤ broker.lastActiveTime then
    broker.checkinTime
  else if app.checkinTime ≤ broker.checkinTime ∧ broker.lastActiveTime ≤ app.lastActiveTime then
    broker.checkinTime
  else if broker.checkinTime ≤ app.lastActiveTime then app.lastActiveTime
  else getResumeTime app broker

/-- `ContinuousResumePolicy::get_resume_time`. -/
def continuousResumeTime (app : Apprentice) (_ : Register) : ℤ := app.lastActiveTime

/-! ## Sessions -/

/-- A broker and a client over their sessions; a frame is its `gen_time`.  `connectedBefore` tells
that the client connected in its present session, and the ends are those of the last sessions. -/
structure History where
  now : ℤ
  broker : Option Register
  brokerEnd : ℤ
  journal : List ℤ
  client : Option Apprentice
  clientEnd : ℤ
  firstCheckin : Option ℤ
  started : Bool
  connected : Bool
  connectedBefore : Bool
  received : List ℤ

inductive SessionEvent where
  | brokerRegister (time : ℤ)
  | brokerFrame (time : ℤ)
  | brokerEnd (time : ℤ)
  | clientCheckin (time : ℤ)
  | clientStart (time : ℤ)
  | clientEnd (time : ℤ)
  /-- The client hears again that the broker is registered. -/
  | register (time : ℤ)

def SessionEvent.time : SessionEvent → ℤ
  | brokerRegister time => time
  | brokerFrame time => time
  | brokerEnd time => time
  | clientCheckin time => time
  | clientStart time => time
  | clientEnd time => time
  | register time => time

namespace History

def start : History where
  now := 0
  broker := none
  brokerEnd := INT64_MIN
  journal := []
  client := none
  clientEnd := INT64_MIN
  firstCheckin := none
  started := false
  connected := false
  connectedBefore := false
  received := []

section Model

variable (s : History)

/-- `Client::connect`: the journals are read from the time on that the policy chooses. -/
def connect (app : Apprentice) (broker : Register) : History :=
  if s.connected then s
  else
    let time := getConnectTime continuousResumeTime app broker
    { s with
      connected := true
      connectedBefore := true
      received := s.received ++ s.journal.filter (time < ·) }

/-- What an event is, but for the connection that it leads to. -/
def change : SessionEvent → History
  | .brokerRegister time => { s with now := time, broker := some ⟨time, s.brokerEnd⟩ }
  | .brokerFrame time =>
      { s with
        now := time
        journal := s.journal ++ [time]
        received := if s.connected then s.received ++ [time] else s.received }
  | .brokerEnd time =>
      { s with now := time, broker := none, brokerEnd := time, connected := false }
  | .clientCheckin time =>
      { s with
        now := time
        client := some ⟨time, s.clientEnd⟩
        firstCheckin := some (s.firstCheckin.getD time) }
  | .clientStart time => { s with now := time, started := true }
  | .clientEnd time =>
      { s with
        now := time
        client := none
        clientEnd := time
        started := false
        connected := false
        connectedBefore := false }
  | .register time => { s with now := time }

/-- The registration that a client hears of; before it has started it does not listen, and when it
starts it is told who is registered. -/
def heard : SessionEvent → Option Register
  | .brokerRegister time => if s.started then some ⟨time, s.brokerEnd⟩ else none
  | .clientStart _ => s.broker
  | .register _ => if s.started then s.broker else none
  | _ => none

def step (event : SessionEvent) : History :=
  match s.client, s.heard event with
  | some app, some broker => (s.change event).connect app broker
  | _, _ => s.change event

/-! ## What is asked for -/

/-- The frames that were written after the first check-in of the client. -/
def counted (frames : List ℤ) : List ℤ :=
  frames.filter fun f => s.firstCheckin.any (· < f)

/-- The client has received frames from the first on without one left out or repeated, and all of
them while it is connected. -/
def Resumed : Prop :=
  s.counted s.received <+: s.counted s.journal ∧
    (s.connected = true → s.counted s.received = s.counted s.journal)

/-- An event can happen; when its session ends the client has read everything. -/
def Valid (event : SessionEvent) : Prop :=
  s.now ≤ event.time ∧ match event with
    | .brokerRegister _ => s.broker = none
    | .brokerFrame time => s.broker ≠ none ∧ s.now < time
    | .brokerEnd _ => s.broker ≠ none
    | .clientCheckin _ => s.client = none
    | .clientStart _ => s.client ≠ none ∧ s.started = false
    | .clientEnd _ => s.client ≠ none ∧ s.counted s.received = s.counted s.journal
    | .register _ => True

/-- A session of the broker ended after the check-in of a client that has not been connected since,
and there are frames of it that the client did not read. -/
def Skips (app : Apprentice) (broker : Register) : Prop :=
  s.connectedBefore = false ∧ app.checkinTime ≤ broker.lastActiveTime ∧
    ∃ f ∈ s.counted s.journal, app.lastActiveTime < f ∧ f ≤ broker.lastActiveTime

/-- The client does not hear of a broker whose last session it missed. -/
def Safe (event : SessionEvent) : Prop :=
  ∀ app ∈ s.client, ∀ broker ∈ s.heard event, ¬ s.Skips app broker

instance : Decidable s.Resumed := inferInstanceAs (Decidable (_ ∧ _))

instance (event : SessionEvent) : Decidable (s.Valid event) := by
  unfold Valid
  cases event <;> infer_instance

instance (app : Apprentice) (broker : Register) : Decidable (s.Skips app broker) :=
  have : Decidable (∃ f ∈ s.counted s.journal,
      app.lastActiveTime < f ∧ f ≤ broker.lastActiveTime) := List.decidableBEx _ _
  inferInstanceAs (Decidable (_ ∧ _))

instance (event : SessionEvent) : Decidable (s.Safe event) :=
  decidable_of_iff (∀ app ∈ s.client.toList, ∀ broker ∈ (s.heard event).toList,
    ¬ s.Skips app broker) (by simp [Safe])

end Model

/-! ## Sorted frames -/

section Sorted

variable {frames : List ℤ} {time : ℤ}

/-- The frames up to a time, and those after it. -/
theorem filter_le_append_filter_lt (h : frames.Pairwise (· < ·)) (time : ℤ) :
    frames.filter (· ≤ time) ++ frames.filter (time < ·) = frames := by
  induction frames with
  | nil => rfl
  | cons f frames ih =>
      obtain ⟨hf, hrest⟩ := List.pairwise_cons.mp h
      by_cases hle : f ≤ time
      · simpa [hle] using ih hrest
      · have hlater : ∀ g ∈ frames, time < g := fun g hg => by
          have := hf g hg
          omega
        have hnone : frames.filter (· ≤ time) = [] := by
          simpa [List.filter_eq_nil_iff] using hlater
        have hall : frames.filter (time < ·) = frames := by
          simpa [List.filter_eq_self] using hlater
        rw [List.filter_cons_of_neg (by simpa using hle), List.filter_cons_of_pos (by simpa using hle),
          hnone, hall, List.nil_append]

end Sorted

/-! ## What holds of a history -/

/-- The time up to which the client has received everything. -/
def horizon (s : History) : ℤ := if s.connectedBefore then s.now else s.clientEnd

/-- What a change keeps. -/
structure Base (s : History) : Prop where
  nonneg : 0 ≤ s.now
  sorted : s.journal.Pairwise (· < ·)
  frames : ∀ f ∈ s.journal, 0 ≤ f ∧ f ≤ s.now
  brokerEnd : s.brokerEnd ≤ s.now
  broker : ∀ r, s.broker = some r → r.lastActiveTime = s.brokerEnd ∧
    s.brokerEnd ≤ r.checkinTime ∧ r.checkinTime ≤ s.now ∧
    ∀ f ∈ s.journal, f ≤ s.brokerEnd ∨ r.checkinTime < f
  noBroker : s.broker = none → ∀ f ∈ s.journal, f ≤ s.brokerEnd
  clientEnd : s.clientEnd ≤ s.now ∧ (s.clientEnd = INT64_MIN ∨ 0 ≤ s.clientEnd)
  first : s.firstCheckin = none → s.client = none ∧ s.received = []
  client : ∀ app, s.client = some app → app.lastActiveTime = s.clientEnd ∧
    s.clientEnd ≤ app.checkinTime ∧ app.checkinTime ≤ s.now ∧
    (s.clientEnd = INT64_MIN → s.firstCheckin = some app.checkinTime)
  noClient : s.client = none → s.started = false ∧ (s.firstCheckin ≠ none → 0 ≤ s.clientEnd)
  listens : s.connectedBefore = true → s.started = true
  connected : s.connected = true → s.connectedBefore = true
  missed : s.connectedBefore = true → s.connected = false →
    ∀ app, s.client = some app → app.checkinTime ≤ s.brokerEnd
  received : s.counted s.received = s.counted (s.journal.filter (· ≤ s.horizon))

/-- What a step keeps: a client that was connected is, while the broker is there. -/
structure Inv (s : History) : Prop extends Base s where
  stays : s.connectedBefore = true → s.connected = true ∨ s.broker = none

section Steps

variable {s : History} {event : SessionEvent} {app : Apprentice} {broker : Register}
  {frames frames' : List ℤ} {f : ℤ}

theorem mem_counted :
    f ∈ s.counted frames ↔ f ∈ frames ∧ s.firstCheckin.any (fun c => decide (c < f)) = true :=
  List.mem_filter

@[simp] theorem counted_append :
    s.counted (frames ++ frames') = s.counted frames ++ s.counted frames' := List.filter_append ..

theorem base_start : start.Base := by
  constructor <;> simp [start, counted, INT64_MIN]

/-- A client that was connected has received everything. -/
theorem Base.all (h : s.Base) (hbefore : s.connectedBefore = true) :
    s.counted s.received = s.counted s.journal := by
  have hall : s.journal.filter (· ≤ s.horizon) = s.journal := by
    rw [List.filter_eq_self]
    intro f hf
    simpa [horizon, hbefore] using (h.frames f hf).2
  rw [h.received, hall]

theorem Base.resumed (h : s.Base) : s.Resumed := by
  refine ⟨?_, fun hconnected => h.all (h.connected hconnected)⟩
  refine ⟨s.counted (s.journal.filter (s.horizon < ·)), ?_⟩
  rw [h.received, ← counted_append, filter_le_append_filter_lt h.sorted]

/-! ### Changes -/

/-- A change of the broker, or none, keeps what was received. -/
theorem Base.received_of_horizon (h : s.Base) {s' : History} (hfirst : s'.firstCheckin = s.firstCheckin)
    (hjournal : s'.journal = s.journal) (hreceived : s'.received = s.received)
    (hhorizon : s.counted (s.journal.filter (· ≤ s'.horizon)) =
      s.counted (s.journal.filter (· ≤ s.horizon))) :
    s'.counted s'.received = s'.counted (s'.journal.filter (· ≤ s'.horizon)) := by
  have hcounted : s'.counted = s.counted := by
    funext frames
    rw [counted, counted, hfirst]
  rw [hcounted, hjournal, hreceived, hhorizon, h.received]

/-- All frames are there when the clock is read. -/
theorem Base.filter_le (h : s.Base) {time : ℤ} (hnow : s.now ≤ time) :
    s.journal.filter (· ≤ time) = s.journal := by
  rw [List.filter_eq_self]
  intro f hf
  have := (h.frames f hf).2
  simp
  omega

theorem Base.horizon_change (h : s.Base) {time : ℤ} {s' : History} (hnow : s.now ≤ time)
    (hnow' : s'.now = time) (hbefore : s'.connectedBefore = s.connectedBefore)
    (hend : s'.clientEnd = s.clientEnd) :
    s.journal.filter (· ≤ s'.horizon) = s.journal.filter (· ≤ s.horizon) := by
  unfold horizon
  rw [hbefore, hend, hnow']
  split
  · rw [h.filter_le hnow, h.filter_le le_rfl]
  · rfl

/-- Time goes on. -/
theorem Base.wait (h : s.Base) {time : ℤ} (hnow : s.now ≤ time) :
    ({ s with now := time } : History).Base where
  nonneg := h.nonneg.trans hnow
  sorted := h.sorted
  frames f hf := ⟨(h.frames f hf).1, (h.frames f hf).2.trans hnow⟩
  brokerEnd := h.brokerEnd.trans hnow
  broker r hr := by
    obtain ⟨hlast, hend, hcheckin, hold⟩ := h.broker r hr
    exact ⟨hlast, hend, hcheckin.trans hnow, hold⟩
  noBroker := h.noBroker
  clientEnd := ⟨h.clientEnd.1.trans hnow, h.clientEnd.2⟩
  first := h.first
  client app happ := by
    obtain ⟨hlast, hend, hcheckin, hfirst⟩ := h.client app happ
    exact ⟨hlast, hend, hcheckin.trans hnow, hfirst⟩
  noClient := h.noClient
  listens := h.listens
  connected := h.connected
  missed := h.missed
  received := h.received_of_horizon rfl rfl rfl (congrArg _ (h.horizon_change hnow rfl rfl rfl))

/-- A broker registers. -/
theorem Base.brokerRegister (h : s.Base) (hnone : s.broker = none) :
    ({ s with broker := some ⟨s.now, s.brokerEnd⟩ } : History).Base := by
  refine { h with broker := ?_, noBroker := nofun }
  rintro r ⟨⟩
  exact ⟨rfl, h.brokerEnd, le_rfl, fun f hf => .inl (h.noBroker hnone f hf)⟩

/-- The session of a broker ends. -/
theorem Base.brokerEnds (h : s.Base) :
    ({ s with broker := none, brokerEnd := s.now, connected := false } : History).Base :=
  { h with
    brokerEnd := le_rfl
    broker := nofun
    noBroker := fun _ f hf => (h.frames f hf).2
    connected := nofun
    missed := fun _ _ app happ => (h.client app happ).2.2.1 }

/-- A client starts. -/
theorem Base.clientStart (h : s.Base) (hclient : s.client ≠ none) :
    ({ s with started := true } : History).Base :=
  { h with
    noClient := fun hnone => absurd hnone hclient
    listens := fun _ => rfl }

/-- The session of a client that has read everything ends. -/
theorem Base.clientEnds (h : s.Base) (hread : s.counted s.received = s.counted s.journal) :
    ({ s with client := none, clientEnd := s.now, started := false, connected := false,
              connectedBefore := false } : History).Base :=
  { h with
    clientEnd := ⟨le_rfl, .inr h.nonneg⟩
    first := fun hfirst => ⟨rfl, (h.first hfirst).2⟩
    client := nofun
    noClient := fun _ => ⟨rfl, fun _ => h.nonneg⟩
    listens := nofun
    connected := nofun
    missed := nofun
    received := by
      have hall : s.journal.filter (· ≤ s.now) = s.journal := h.filter_le le_rfl
      simp only [counted] at hread
      simp [horizon, counted, hall, hread] }

/-- A client that is not there is not connected. -/
theorem Base.connectedBefore_eq_false (h : s.Base) (hnone : s.client = none) :
    s.connectedBefore = false := by
  by_contra hbefore
  have hlistens := h.listens (by simpa using hbefore)
  simp [(h.noClient hnone).1] at hlistens

/-- A client checks in. -/
theorem Base.clientCheckin (h : s.Base) (hnone : s.client = none) :
    ({ s with client := some ⟨s.now, s.clientEnd⟩
              firstCheckin := some (s.firstCheckin.getD s.now) } : History).Base := by
  have hbefore := h.connectedBefore_eq_false hnone
  refine { h with first := nofun, client := ?_, noClient := nofun, missed := ?_, received := ?_ }
  · rintro app ⟨⟩
    refine ⟨rfl, h.clientEnd.1, le_rfl, fun hmin => ?_⟩
    cases hfirst : s.firstCheckin with
    | none => simp
    | some c =>
        have hlate := (h.noClient hnone).2 (by simp [hfirst])
        simp only [INT64_MIN] at hmin
        omega
  · intro hb
    simp [hbefore] at hb
  · cases hfirst : s.firstCheckin with
    | none =>
        -- Nothing of what is there was written after the first check-in.
        have hnone : ∀ f ∈ s.journal, ¬ s.now < f := fun f hf => not_lt.mpr (h.frames f hf).2
        have hreceived := (h.first hfirst).2
        simp only [counted, hreceived, Option.getD_none]
        rw [List.filter_nil, eq_comm, List.filter_eq_nil_iff]
        intro f hf
        simpa using hnone f (List.mem_filter.mp hf).1
    | some c => exact h.received_of_horizon (by simp [hfirst]) rfl rfl rfl

/-- What a client has received, when a broker writes a frame. -/
theorem Inv.received_brokerFrame (h : s.Inv) {time : ℤ} (hlive : s.broker ≠ none)
    (hlater : s.now < time) :
    (s.change (.brokerFrame time)).counted (s.change (.brokerFrame time)).received =
      (s.change (.brokerFrame time)).counted ((s.change (.brokerFrame time)).journal.filter
        (· ≤ (s.change (.brokerFrame time)).horizon)) := by
  cases hconnected : s.connected with
  | true =>
      have hbefore := h.connected hconnected
      have hall : (s.journal ++ [time]).filter (· ≤ time) = s.journal ++ [time] := by
        rw [List.filter_append, h.filter_le hlater.le]
        simp
      have hcounted := h.all hbefore
      simp only [counted] at hcounted
      simp [History.change, horizon, hbefore, hconnected, counted, hall, hcounted]
  | false =>
      have hbefore : s.connectedBefore = false := by
        by_contra hbefore
        rcases h.stays (by simpa using hbefore) with hstays | hnone
        · simp [hconnected] at hstays
        · exact hlive hnone
      have hreceived := h.received
      have hnew : ¬ time ≤ s.clientEnd := by
        have := h.clientEnd.1
        omega
      simp only [counted, horizon, hbefore, Bool.false_eq_true, if_false] at hreceived
      simp [History.change, horizon, hbefore, hconnected, counted, hnew, hreceived]

/-- A broker writes a frame. -/
theorem Inv.brokerFrame (h : s.Inv) {time : ℤ} (hlive : s.broker ≠ none) (hlater : s.now < time) :
    (s.change (.brokerFrame time)).Base := by
  have hwait := h.wait hlater.le
  have hmem : ∀ f ∈ s.journal ++ [time], f ∈ s.journal ∨ f = time := fun f hf => by
    simpa using hf
  refine { hwait with
    sorted := ?_
    frames := ?_
    broker := ?_
    noBroker := fun hnone => absurd hnone hlive
    first := ?_
    received := h.received_brokerFrame hlive hlater }
  · refine List.pairwise_append.mpr ⟨h.sorted, List.pairwise_singleton .., ?_⟩
    intro f hf g hg
    obtain rfl := List.mem_singleton.mp hg
    exact ((h.frames f hf).2).trans_lt hlater
  · intro f hf
    rcases hmem f hf with hf | rfl
    · exact hwait.frames f hf
    · exact ⟨hwait.nonneg, le_rfl⟩
  · intro r hr
    obtain ⟨hlast, hend, hcheckin, hold⟩ := hwait.broker r hr
    refine ⟨hlast, hend, hcheckin, fun f hf => ?_⟩
    rcases hmem f hf with hf | rfl
    · exact hold f hf
    · exact .inr ((h.broker r hr).2.2.1.trans_lt hlater)
  · intro hfirst
    obtain ⟨hnone, hreceived⟩ := h.first hfirst
    have hidle : s.connected = false := by
      by_contra hconnected
      have hbefore := h.connected (by simpa using hconnected)
      simp [h.connectedBefore_eq_false hnone] at hbefore
    exact ⟨hnone, by simp [History.change, hidle, hreceived]⟩

theorem Inv.change (h : s.Inv) (hvalid : s.Valid event) : (s.change event).Base := by
  obtain ⟨hnow, henabled⟩ := hvalid
  have hwait := h.wait hnow
  cases event with
  | brokerRegister time => exact hwait.brokerRegister henabled
  | brokerFrame time => exact h.brokerFrame henabled.1 henabled.2
  | brokerEnd time => exact hwait.brokerEnds
  | clientCheckin time => exact hwait.clientCheckin henabled
  | clientStart time => exact hwait.clientStart henabled.1
  | clientEnd time => exact hwait.clientEnds henabled.2
  | register time => exact hwait

/-! ### Connections -/

/-- A client that was not connected before reads on from where it was, unless it missed a session
of the broker. -/
theorem Base.read_from_iff (h : s.Base) (happ : s.client = some app) (hbroker : s.broker = some broker)
    (hbefore : s.connectedBefore = false) :
    (∀ f ∈ s.counted s.journal, f ≤ app.lastActiveTime ↔
        f ≤ getConnectTime continuousResumeTime app broker) ↔ ¬ s.Skips app broker := by
  obtain ⟨hlastActive, hclientEnd, hcheckin, hfirst⟩ := h.client app happ
  obtain ⟨hlast, hend, hregistered, hold⟩ := h.broker broker hbroker
  constructor
  · rintro hsame ⟨-, hmissed, f, hf, hunread, hwritten⟩
    have htime : getConnectTime continuousResumeTime app broker = broker.checkinTime := by
      unfold getConnectTime
      split
      · rfl
      · rw [if_pos ⟨by omega, hmissed⟩]
    have hread := (hsame f hf).mpr (by omega)
    omega
  · intro hsafe f hf
    obtain ⟨hjournal, hlater⟩ := mem_counted.mp hf
    have hcases := hold f hjournal
    have hnonneg := (h.frames f hjournal).1
    have hkept : app.checkinTime ≤ broker.lastActiveTime → f ≤ app.lastActiveTime ∨
        broker.lastActiveTime < f := by
      intro hmissed
      by_contra hskipped
      exact hsafe ⟨hbefore, hmissed, f, hf, by omega, by omega⟩
    unfold getConnectTime continuousResumeTime
    split_ifs with hmin hboth hnew hrunning
    · -- in the first session only frames after the check-in count
      have hcheck : app.checkinTime < f := by
        rw [hfirst (by omega)] at hlater
        simpa using hlater
      simp only [INT64_MIN] at hmin
      omega
    · omega
    · omega
    · rfl
    · rfl

/-- The frames of a journal are all received, once a client that has those up to one time reads
from another, if there are none between the times. -/
theorem counted_connect_iff (hsorted : s.journal.Pairwise (· < ·)) {time time' : ℤ}
    (hreceived : s.counted s.received = s.counted (s.journal.filter (· ≤ time))) :
    s.counted (s.received ++ s.journal.filter (time' < ·)) = s.counted s.journal ↔
      ∀ f ∈ s.counted s.journal, f ≤ time ↔ f ≤ time' := by
  have hsplit := filter_le_append_filter_lt hsorted time
  rw [counted_append, hreceived]
  conv_lhs => rhs; rw [← hsplit, counted_append]
  rw [List.append_cancel_left_eq]
  constructor
  · intro hsame f hf
    have hmem : f ∈ s.counted (s.journal.filter (time' < ·)) ↔
        f ∈ s.counted (s.journal.filter (time < ·)) := by rw [hsame]
    obtain ⟨hjournal, hlater⟩ := mem_counted.mp hf
    simp only [mem_counted, List.mem_filter, hjournal, hlater, true_and, and_true,
      decide_eq_true_eq] at hmem
    omega
  · intro hsame
    unfold counted
    rw [List.filter_filter, List.filter_filter]
    refine List.filter_congr fun f hf => ?_
    by_cases hlater : s.firstCheckin.any (fun c => decide (c < f)) = true
    · have hiff := hsame f (mem_counted.mpr ⟨hf, hlater⟩)
      have hiff' : time' < f ↔ time < f := by omega
      simp [hlater, hiff']
    · simp [hlater]

/-- A client that hears of a broker receives everything, if and only if it has missed nothing. -/
theorem Base.resumed_connect_iff (h : s.Base) (happ : s.client = some app)
    (hbroker : s.broker = some broker)
    (hnow : s.connectedBefore = true → s.connected = false → s.now ≤ broker.checkinTime) :
    (s.connect app broker).Resumed ↔ ¬ s.Skips app broker := by
  cases hconnected : s.connected with
  | true =>
      have hsame : s.connect app broker = s := by simp [connect, hconnected]
      rw [hsame]
      refine iff_of_true h.resumed ?_
      rintro ⟨hbefore, -⟩
      simp [h.connected hconnected] at hbefore
  | false =>
      have hresumed : (s.connect app broker).Resumed ↔ s.counted (s.received ++
          s.journal.filter (getConnectTime continuousResumeTime app broker < ·)) =
            s.counted s.journal := by
        simp only [connect, hconnected, Bool.false_eq_true, if_false]
        constructor
        · exact fun hall => hall.2 rfl
        · exact fun hall => ⟨hall ▸ List.prefix_rfl, fun _ => hall⟩
      rw [hresumed, counted_connect_iff h.sorted h.received]
      cases hbefore : s.connectedBefore with
      | false =>
          rw [← h.read_from_iff happ hbroker hbefore]
          simp only [horizon, hbefore, Bool.false_eq_true, if_false, (h.client app happ).1]
      | true =>
          -- the broker has just come back to a client that had read all of its journal
          obtain ⟨hlast, hend, -⟩ := h.broker broker hbroker
          have hmissed := h.missed hbefore hconnected app happ
          have htime : getConnectTime continuousResumeTime app broker = broker.checkinTime := by
            unfold getConnectTime
            split
            · rfl
            · rw [if_pos ⟨by omega, by omega⟩]
          refine iff_of_true (fun f hf => ?_) ?_
          · have hread := (h.frames f (mem_counted.mp hf).1).2
            simp only [horizon, hbefore, if_true]
            exact iff_of_true hread (htime ▸ hread.trans (hnow hbefore hconnected))
          · rintro ⟨hnever, -⟩
            simp [hbefore] at hnever

/-- A client that received everything goes on as connected. -/
theorem Base.connect (h : s.Base) (happ : s.client = some app) (hstarted : s.started = true)
    (hresumed : (s.connect app broker).Resumed) : (s.connect app broker).Inv := by
  cases hconnected : s.connected with
  | true =>
      have hsame : s.connect app broker = s := by simp [History.connect, hconnected]
      rw [hsame]
      exact ⟨h, fun _ => .inl hconnected⟩
  | false =>
      have hconnect : (s.connect app broker).connected = true := by
        simp [History.connect, hconnected]
      have hall := hresumed.2 hconnect
      simp only [History.connect, hconnected, Bool.false_eq_true, if_false] at hall ⊢
      refine ⟨⟨h.nonneg, h.sorted, h.frames, h.brokerEnd, h.broker, h.noBroker, h.clientEnd, ?_,
        h.client, h.noClient, fun _ => hstarted, fun _ => rfl, nofun, ?_⟩, fun _ => .inl rfl⟩
      · intro hfirst
        simp [(h.first hfirst).1] at happ
      · have hfilter : s.journal.filter (· ≤ s.now) = s.journal := h.filter_le le_rfl
        simpa [counted, horizon, hfilter] using hall

/-- A change that leads to no connection leaves a connected client connected while the broker is
there. -/
theorem Inv.change_of_unheard (h : s.Inv) (hvalid : s.Valid event)
    (hunheard : s.started = true → s.heard event = none) : (s.change event).Inv := by
  refine ⟨h.change hvalid, fun hbefore => ?_⟩
  cases event with
  | brokerRegister time =>
      have hstarted := h.listens hbefore
      have := hunheard hstarted
      simp [heard, hstarted] at this
  | brokerFrame time => exact h.stays hbefore
  | brokerEnd time => exact .inr rfl
  | clientCheckin time => exact h.stays hbefore
  | clientStart time => exact h.stays hbefore
  | clientEnd time => simp [History.change] at hbefore
  | register time => exact h.stays hbefore

/-- What a client hears is of the broker that is registered then, and when it has not been connected
since the broker was there last, the broker has just come back. -/
theorem Inv.heard (h : s.Inv) (hvalid : s.Valid event) (hheard : s.heard event = some broker)
    (happ : s.client = some app) :
    (s.change event).client = some app ∧ (s.change event).broker = some broker ∧
      (s.change event).started = true ∧
      ((s.change event).connectedBefore = true → (s.change event).connected = false →
        (s.change event).now ≤ broker.checkinTime) ∧
      ((s.change event).Skips app broker ↔ s.Skips app broker) := by
  cases event with
  | brokerRegister time =>
      cases hstarted : s.started with
      | false => simp [History.heard, hstarted] at hheard
      | true =>
          simp only [History.heard, hstarted, if_true, Option.some.injEq] at hheard
          subst hheard
          exact ⟨happ, rfl, hstarted, fun _ _ => le_rfl, Iff.rfl⟩
  | clientStart time =>
      refine ⟨happ, hheard, rfl, fun hbefore _ => ?_, Iff.rfl⟩
      have hidle := hvalid.2.2
      simp [h.listens hbefore] at hidle
  | register time =>
      cases hstarted : s.started with
      | false => simp [History.heard, hstarted] at hheard
      | true =>
          simp only [History.heard, hstarted, if_true] at hheard
          refine ⟨happ, hheard, hstarted, fun hbefore hconnected => ?_, Iff.rfl⟩
          rcases h.stays hbefore with hstays | hnone
          · have hidle : s.connected = false := hconnected
            simp [hidle] at hstays
          · simp [hnone] at hheard
  | brokerFrame time => cases hheard
  | brokerEnd time => cases hheard
  | clientCheckin time => cases hheard
  | clientEnd time => cases hheard

/-- What is asked for holds after a step exactly if the step is safe, and the step then keeps the
invariant. -/
theorem Inv.step (h : s.Inv) (hvalid : s.Valid event) :
    ((s.step event).Resumed ↔ s.Safe event) ∧ (s.Safe event → (s.step event).Inv) := by
  have hbase := h.change hvalid
  cases happ : s.client with
  | none =>
      have hstep : s.step event = s.change event := by simp [History.step, happ]
      have hidle := (h.noClient happ).1
      rw [hstep]
      exact ⟨iff_of_true hbase.resumed (by simp [Safe, happ]),
        fun _ => h.change_of_unheard hvalid (by simp [hidle])⟩
  | some app =>
      cases hheard : s.heard event with
      | none =>
          have hstep : s.step event = s.change event := by simp [History.step, happ, hheard]
          rw [hstep]
          exact ⟨iff_of_true hbase.resumed (by simp [Safe, hheard]),
            fun _ => h.change_of_unheard hvalid fun _ => hheard⟩
      | some broker =>
          have hstep : s.step event = (s.change event).connect app broker := by
            simp [History.step, happ, hheard]
          obtain ⟨happ', hbroker, hstarted, hnow, hskips⟩ := h.heard hvalid hheard happ
          have hiff : ((s.change event).connect app broker).Resumed ↔ s.Safe event := by
            rw [hbase.resumed_connect_iff happ' hbroker hnow, hskips]
            simp [Safe, happ, hheard]
          rw [hstep]
          exact ⟨hiff, fun hsafe => hbase.connect happ' hstarted (hiff.mpr hsafe)⟩

theorem inv_start : start.Inv := ⟨base_start, nofun⟩

end Steps

section Main

variable {events : List SessionEvent}

end Main

/-- A broker restarts while a client runs, and again while it is down. -/
def exampleSessions : List SessionEvent :=
  [.brokerRegister 10, .clientCheckin 20, .brokerFrame 25, .clientStart 30, .brokerFrame 35,
    .brokerEnd 40, .brokerRegister 50, .brokerFrame 55, .clientEnd 60, .brokerFrame 65,
    .brokerEnd 70, .brokerRegister 80, .brokerFrame 85, .clientCheckin 90, .clientStart 100]

/-- The broker restarts between the check-in and the start of a client, which does not receive what
the broker wrote before. -/
def missedSession : List SessionEvent :=
  [.brokerRegister 10, .clientCheckin 20, .clientStart 30, .clientEnd 40, .brokerFrame 45,
    .clientCheckin 50, .brokerEnd 60, .brokerRegister 70, .clientStart 80]

end History

end Kungfu.Broker
