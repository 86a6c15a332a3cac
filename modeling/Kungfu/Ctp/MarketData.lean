import Kungfu.Api.Service
import Kungfu.Logic.Iteration
import Kungfu.Logic.Run
import Mathlib.Data.String.Basic

/-!
# The CTP source of market data

Instruments are subscribed to once a second, and unsubscribed at once.  While the source is not
logged in it queues what it is asked for.  A login asks the front for what is queued; only if there
is nothing it asks for everything that was subscribed to before.  So what was subscribed to before a
connection was lost does not come back if there is another request before the next login.  Of the
front it is known only how calls and the connection change what it pushes.
-/

namespace Kungfu.Ctp

open Logic
open Api (InstrumentKey MdMessage)

/-! ## The source -/

/-- A callback that waits for the event loop; those of quotes are left out. -/
inductive MdTask
  | onLoginSuccess | onLoginFailed | onFrontDisconnected
  deriving DecidableEq, Repr

/-- What the source asks the front for. -/
inductive MdCall
  | subscribeMarketData (instrumentIds : List String)
  | unSubscribeMarketData (instrumentIds : List String)

/-- The members of `MarketData` and of `MarketDataCtp`; `pending` are the tasks that
`drain_tasks` has taken. -/
structure MarketData where
  instrumentsToSubscribe : List InstrumentKey
  loggedIn : Bool
  subscribed : Finset String
  pendingSubscribes : List String
  tasks : List MdTask
  pending : List MdTask

namespace MarketData

variable (m : MarketData)

/-- A source that has started. -/
def start : MarketData where
  instrumentsToSubscribe := []
  loggedIn := false
  subscribed := ∅
  pendingSubscribes := []
  tasks := []
  pending := []

/-- The loop of `subscribe`: what is subscribed, and the ids that were not before. -/
def collect (found : Finset String × List String) (key : InstrumentKey) :
    Finset String × List String :=
  if key.instrumentId = "" ∨ key.instrumentId ∈ found.1 then found
  else (insert key.instrumentId found.1, found.2 ++ [key.instrumentId])

/-- `subscribe`. -/
def subscribe (instrumentKeys : List InstrumentKey) : MarketData × Option MdCall :=
  let (subscribed, instrumentIds) := instrumentKeys.foldl collect (m.subscribed, [])
  if instrumentIds = [] then ({ m with subscribed := subscribed }, none)
  else if !m.loggedIn then
    ({ m with
       subscribed := subscribed
       pendingSubscribes := m.pendingSubscribes ++ instrumentIds }, none)
  else ({ m with subscribed := subscribed }, some (.subscribeMarketData instrumentIds))

/-- `unsubscribe` of one instrument, which is all that it is called for. -/
def unsubscribe (key : InstrumentKey) : MarketData × Option MdCall :=
  if key.instrumentId = "" then (m, none)
  else
    ({ m with
       subscribed := m.subscribed.erase key.instrumentId
       pendingSubscribes := m.pendingSubscribes.filter (· ≠ key.instrumentId) },
      if m.loggedIn then some (.unSubscribeMarketData [key.instrumentId]) else none)

/-- `add_instrument_key`. -/
def addInstrumentKey (key : InstrumentKey) : MarketData :=
  { m with instrumentsToSubscribe := m.instrumentsToSubscribe ++ [key] }

/-- `try_subscribe`. -/
def trySubscribe : MarketData × Option MdCall :=
  let (m', call) :=
    if m.instrumentsToSubscribe = [] then (m, none) else m.subscribe m.instrumentsToSubscribe
  ({ m' with instrumentsToSubscribe := [] }, call)

/-- `unsubscribe_key`. -/
def unsubscribeKey (key : InstrumentKey) : MarketData × Option MdCall :=
  unsubscribe { m with
    instrumentsToSubscribe := m.instrumentsToSubscribe.filter (·.key ≠ key.key) } key

/-- The task of `on_login_success`. -/
def onLoginSuccess : MarketData × Option MdCall :=
  let m := { m with loggedIn := true }
  if m.pendingSubscribes ≠ [] then
    ({ m with pendingSubscribes := [] }, some (.subscribeMarketData m.pendingSubscribes))
  else if m.subscribed ≠ ∅ then (m, some (.subscribeMarketData (sortMultiset m.subscribed.val)))
  else (m, none)

/-- What a task does. -/
def perform : MdTask → MarketData × Option MdCall
  | .onLoginSuccess => m.onLoginSuccess
  | .onLoginFailed | .onFrontDisconnected => ({ m with loggedIn := false }, none)

end MarketData

/-- The login that a callback tells of. -/
def MdTask.isLogin : MdTask → Bool
  | onLoginSuccess => true
  | onLoginFailed | onFrontDisconnected => false

/-! ## The front -/

/-- The instruments for which the front accepts a call.  It answers for every one by itself; if the
call fails, for none. -/
abbrev MdAnswer := String → Bool

/-- A front, with what there is to be known of its states: whether a login is in force, and what it
pushes in that session. -/
structure MdFront (φ : Type) where
  isLoggedIn : φ → Bool
  pushes : φ → Finset String
  /-- A call is made. -/
  take : φ → MdAnswer → MdCall → φ
  /-- The connection changes, which a callback tells the source. -/
  connect : φ → MdTask → φ

namespace MdFront

variable {φ : Type} (front : MdFront φ)

/-- What calls and the connection do to what a front pushes.  A call changes it for the instruments
that the front accepts, and for none without a login; a session starts with nothing. -/
structure Lawful : Prop where
  isLoggedIn_take : ∀ f accepts call, front.isLoggedIn (front.take f accepts call) = front.isLoggedIn f
  mem_subscribe : ∀ f accepts instrumentIds id,
    id ∈ front.pushes (front.take f accepts (.subscribeMarketData instrumentIds)) ↔
      id ∈ front.pushes f ∨ (front.isLoggedIn f && accepts id) = true ∧ id ∈ instrumentIds
  mem_unSubscribe : ∀ f accepts instrumentIds id,
    id ∈ front.pushes (front.take f accepts (.unSubscribeMarketData instrumentIds)) ↔
      id ∈ front.pushes f ∧ ((front.isLoggedIn f && accepts id) = true → id ∉ instrumentIds)
  isLoggedIn_connect : ∀ f task, front.isLoggedIn (front.connect f task) = task.isLogin
  pushes_connect : ∀ f task, front.pushes (front.connect f task) = ∅

/-- The call that the source makes, if it makes one. -/
def takeCall (f : φ) (accepts : MdAnswer) : Option MdCall → φ
  | some call => front.take f accepts call
  | none => f

end MdFront

/-- What happens to a source.  CTP calls back at any time; the event loop handles a request or a
timer when it performs no tasks. -/
inductive MdEvent
  | request (message : MdMessage) (accepts : MdAnswer)
  | trySubscribe (accepts : MdAnswer)
  | drainTasks
  | nextTask (accepts : MdAnswer)
  | callback (task : MdTask)

/-- A source with the state of its front.  `wanted` are the instruments whose last request was to
subscribe. -/
structure MdSystem (φ : Type) where
  md : MarketData
  state : φ
  wanted : Finset String

namespace MdSystem

variable {φ : Type} (front : MdFront φ)

/-- A source that starts, with a front in some state. -/
def start (state : φ) : MdSystem φ := ⟨.start, state, ∅⟩

variable (s : MdSystem φ)

/-- What the front pushes. -/
def pushes : Finset String := front.pushes s.state

/-- The source goes on, and the front takes what it calls. -/
def advance (accepts : MdAnswer) (result : MarketData × Option MdCall) : MdSystem φ :=
  { s with md := result.1, state := front.takeCall s.state accepts result.2 }

/-- A request, and what is wanted after it. -/
def handle (accepts : MdAnswer) : MdMessage → MdSystem φ
  | .instrumentKey key =>
      { s with
        md := s.md.addInstrumentKey key
        wanted := insert key.instrumentId s.wanted }
  | .instrumentUnsubscribe key =>
      { s.advance front accepts (s.md.unsubscribeKey key) with
        wanted := s.wanted.erase key.instrumentId }

def step : MdEvent → MdSystem φ
  | .request message accepts => if s.md.pending = [] then s.handle front accepts message else s
  | .trySubscribe accepts =>
      if s.md.pending = [] then s.advance front accepts s.md.trySubscribe else s
  | .drainTasks =>
      if s.md.pending = [] then { s with md := { s.md with tasks := [], pending := s.md.tasks } } else s
  | .nextTask accepts =>
      match s.md.pending with
      | [] => s
      | task :: pending =>
          s.advance front accepts (({ s.md with pending := pending } : MarketData).perform task)
  | .callback task =>
      { s with
        md := { s.md with tasks := s.md.tasks ++ [task] }
        state := front.connect s.state task }

/-! ## What is served -/

/-- The source knows what became of the connection, and that is a login. -/
def Current : Prop := s.md.loggedIn = true ∧ s.md.pending = [] ∧ s.md.tasks = []

/-- The front pushes nothing that is not subscribed to, and all of it once the source knows of the
login. -/
structure Served : Prop where
  subset : s.pushes front ⊆ s.md.subscribed
  all : s.Current → s.md.subscribed ⊆ s.pushes front

/-- What is subscribed to, or waits to be, is what was asked for. -/
def Follows : Prop :=
  ∀ id, id ≠ "" → (id ∈ s.wanted ↔
    id ∈ s.md.subscribed ∨ ∃ key ∈ s.md.instrumentsToSubscribe, key.instrumentId = id)

/-- A step that keeps what is served.  Nothing that the front refuses is asked for again, so what counts
is accepted.  An instrument is unsubscribed while the source takes itself for logged in, unless the
front does not push it.  A login that is not out of date finds nothing queued, or everything that is
not pushed. -/
def Safe (s : MdSystem φ) : MdEvent → Prop
  | .request (.instrumentUnsubscribe key) accepts =>
      s.md.pending = [] → (s.md.loggedIn && accepts key.instrumentId) = false →
        key.instrumentId ∉ s.pushes front
  | .trySubscribe accepts =>
      s.Current → ∀ key ∈ s.md.instrumentsToSubscribe, accepts key.instrumentId = true ∨
        key.instrumentId = "" ∨ key.instrumentId ∈ s.md.subscribed
  | .nextTask accepts =>
      s.md.pending = [.onLoginSuccess] → s.md.tasks = [] → ∀ id ∈ s.md.subscribed,
        id ∈ s.pushes front ∨
          accepts id = true ∧ (s.md.pendingSubscribes = [] ∨ id ∈ s.md.pendingSubscribes)
  | _ => True

instance : Decidable s.Current :=
  inferInstanceAs (Decidable (s.md.loggedIn = true ∧ s.md.pending = [] ∧ s.md.tasks = []))

instance (s : MdSystem φ) : DecidablePred (s.Safe front)
  | .request (.instrumentKey _) _ | .drainTasks | .callback _ => inferInstanceAs (Decidable True)
  | .request (.instrumentUnsubscribe key) accepts =>
      inferInstanceAs (Decidable (s.md.pending = [] →
        (s.md.loggedIn && accepts key.instrumentId) = false → key.instrumentId ∉ s.pushes front))
  | .trySubscribe accepts =>
      inferInstanceAs (Decidable (s.Current →
        ∀ key ∈ s.md.instrumentsToSubscribe, accepts key.instrumentId = true ∨
          key.instrumentId = "" ∨ key.instrumentId ∈ s.md.subscribed))
  | .nextTask accepts =>
      inferInstanceAs (Decidable (s.md.pending = [.onLoginSuccess] → s.md.tasks = [] →
        ∀ id ∈ s.md.subscribed, id ∈ s.pushes front ∨
          accepts id = true ∧ (s.md.pendingSubscribes = [] ∨ id ∈ s.md.pendingSubscribes)))

end MdSystem

/-! ## What calls do -/

namespace MarketData

variable {m : MarketData}

theorem mem_foldl_collect (keys : List InstrumentKey) (found : Finset String × List String)
    (id : String) :
    (id ∈ (keys.foldl collect found).1 ↔
      id ∈ found.1 ∨ id ≠ "" ∧ ∃ key ∈ keys, key.instrumentId = id) ∧
    (id ∈ (keys.foldl collect found).2 ↔
      id ∈ found.2 ∨ id ∈ (keys.foldl collect found).1 ∧ id ∉ found.1) := by
  induction keys generalizing found with
  | nil => simp
  | cons key keys ih =>
      obtain ⟨hfirst, hsecond⟩ := ih (collect found key)
      rw [List.foldl_cons]
      refine ⟨hfirst.trans ?_, hsecond.trans ?_⟩
      · unfold collect
        split
        · grind
        · grind
      · rw [hfirst]
        unfold collect
        split <;> grind

/-- What `subscribe` does: what is new is queued, or the front is asked for it. -/
theorem subscribe_spec (keys : List InstrumentKey) : ∃ subscribed new,
    (m.subscribe keys).1 = { m with
      subscribed := subscribed
      pendingSubscribes := m.pendingSubscribes ++ if m.loggedIn then [] else new } ∧
    (m.subscribe keys).2 = (if m.loggedIn ∧ new ≠ [] then some (.subscribeMarketData new) else none) ∧
    (∀ id, id ∈ subscribed ↔ id ∈ m.subscribed ∨ id ≠ "" ∧ ∃ key ∈ keys, key.instrumentId = id) ∧
    ∀ id, id ∈ new ↔ id ∈ subscribed ∧ id ∉ m.subscribed := by
  have hmem := mem_foldl_collect keys (m.subscribed, [])
  cases hfound : keys.foldl collect (m.subscribed, []) with
  | mk subscribed new =>
      rw [hfound] at hmem
      refine ⟨subscribed, new, ?_, ?_, fun id => (hmem id).1, fun id => by simpa using (hmem id).2⟩
      all_goals
        simp only [subscribe, hfound]
        by_cases hnew : new = []
        · simp [hnew]
        · cases m.loggedIn <;> simp [hnew]

/-- `try_subscribe` subscribes to what waits. -/
theorem trySubscribe_spec : ∃ subscribed new,
    m.trySubscribe.1 = { m with
      instrumentsToSubscribe := []
      subscribed := subscribed
      pendingSubscribes := m.pendingSubscribes ++ if m.loggedIn then [] else new } ∧
    m.trySubscribe.2 = (if m.loggedIn ∧ new ≠ [] then some (.subscribeMarketData new) else none) ∧
    (∀ id, id ∈ subscribed ↔
      id ∈ m.subscribed ∨ id ≠ "" ∧ ∃ key ∈ m.instrumentsToSubscribe, key.instrumentId = id) ∧
    ∀ id, id ∈ new ↔ id ∈ subscribed ∧ id ∉ m.subscribed := by
  by_cases hwaits : m.instrumentsToSubscribe = []
  · exact ⟨m.subscribed, [], by simp [trySubscribe, hwaits]⟩
  · obtain ⟨subscribed, new, hm, hcall, hmem, hnew⟩ := m.subscribe_spec m.instrumentsToSubscribe
    refine ⟨subscribed, new, ?_, ?_, hmem, hnew⟩
    · simp only [trySubscribe, if_neg hwaits, hm]
    · simp only [trySubscribe, if_neg hwaits, hcall]

/-- `unsubscribe_key`, where no id is empty. -/
theorem unsubscribeKey_spec (hnamed : "" ∉ m.subscribed)
    (hqueued : ∀ id ∈ m.pendingSubscribes, id ∈ m.subscribed) (key : InstrumentKey) :
    (m.unsubscribeKey key).1 = { m with
      instrumentsToSubscribe := m.instrumentsToSubscribe.filter (·.key ≠ key.key)
      subscribed := m.subscribed.erase key.instrumentId
      pendingSubscribes := m.pendingSubscribes.filter (· ≠ key.instrumentId) } ∧
    (m.unsubscribeKey key).2 = (if key.instrumentId ≠ "" ∧ m.loggedIn then
      some (.unSubscribeMarketData [key.instrumentId]) else none) := by
  by_cases hid : key.instrumentId = ""
  · have hall : m.pendingSubscribes.filter (· ≠ "") = m.pendingSubscribes := by
      rw [List.filter_eq_self]
      intro id hmem
      have hne : id ≠ "" := fun h => hnamed (h ▸ hqueued id hmem)
      simpa using hne
    simp [unsubscribeKey, unsubscribe, hid, Finset.erase_eq_of_notMem hnamed]
    simpa using hall.symm
  · simp [unsubscribeKey, unsubscribe, hid]

/-- What a task does: a login asks for what is queued, or else for all that is subscribed to. -/
theorem perform_spec (task : MdTask) : ∃ ids,
    (m.perform task).1 = { m with
      loggedIn := task.isLogin
      pendingSubscribes := if task.isLogin then [] else m.pendingSubscribes } ∧
    (m.perform task).2 =
      (if task.isLogin ∧ ids ≠ [] then some (.subscribeMarketData ids) else none) ∧
    ∀ id, id ∈ ids ↔
      if m.pendingSubscribes = [] then id ∈ m.subscribed else id ∈ m.pendingSubscribes := by
  by_cases hqueue : m.pendingSubscribes = []
  · refine ⟨sortMultiset m.subscribed.val, ?_, ?_, by simp [hqueue]⟩
    · cases task <;> simp [perform, onLoginSuccess, MdTask.isLogin, hqueue]
      split <;> simp
    · have hnone : sortMultiset m.subscribed.val = [] ↔ m.subscribed = ∅ := by
        simp [List.eq_nil_iff_forall_not_mem, Finset.eq_empty_iff_forall_notMem]
      cases task <;> simp [perform, onLoginSuccess, MdTask.isLogin, hqueue, hnone]
      split <;> simp [*]
  · refine ⟨m.pendingSubscribes, ?_, ?_, by simp [hqueue]⟩
    all_goals cases task <;> simp [perform, onLoginSuccess, MdTask.isLogin, hqueue]

end MarketData

namespace MdFront.Lawful

variable {φ : Type} {front : MdFront φ} {f : φ} {accepts : MdAnswer} {call : Option MdCall}
  {id : String}

theorem isLoggedIn_takeCall (h : front.Lawful) :
    front.isLoggedIn (front.takeCall f accepts call) = front.isLoggedIn f := by
  cases call with
  | none => rfl
  | some call => exact h.isLoggedIn_take f accepts call

/-- Without a login calls change nothing. -/
theorem pushes_takeCall_of_loggedOut (h : front.Lawful) (hlogin : front.isLoggedIn f = false) :
    front.pushes (front.takeCall f accepts call) = front.pushes f := by
  ext id
  cases call with
  | none => rfl
  | some call =>
      cases call with
      | subscribeMarketData ids => simp [takeCall, h.mem_subscribe, hlogin]
      | unSubscribeMarketData ids => simp [takeCall, h.mem_unSubscribe, hlogin]

end MdFront.Lawful

/-! ## What every step keeps -/

/-- The login that the source knows of once it has performed some tasks. -/
def lastLogin (loggedIn : Bool) (tasks : List MdTask) : Bool :=
  tasks.foldl (fun _ task => task.isLogin) loggedIn

namespace MdSystem

variable {φ : Type} {front : MdFront φ} {s : MdSystem φ} {event : MdEvent} {events : List MdEvent}
  {accepts : MdAnswer} {state : φ}

/-- What every step keeps: the tasks that wait lead to what the front knows of the login, and the
source queues nothing while it takes itself for logged in. -/
structure Base (front : MdFront φ) (s : MdSystem φ) : Prop where
  status : front.isLoggedIn s.state = lastLogin s.md.loggedIn (s.md.pending ++ s.md.tasks)
  down : front.isLoggedIn s.state = false → s.pushes front = ∅
  named : "" ∉ s.md.subscribed
  queued : ∀ id ∈ s.md.pendingSubscribes, id ∈ s.md.subscribed
  flushed : s.md.loggedIn = true → s.md.pendingSubscribes = []

theorem base_start (hdown : front.isLoggedIn state = false) (hnone : front.pushes state = ∅) :
    (start state).Base front where
  status := hdown
  down _ := hnone
  named := by simp [start, MarketData.start]
  queued := by simp [start, MarketData.start]
  flushed := by simp [start, MarketData.start]

/-- A source that is up to date with a login has one. -/
theorem Base.isLoggedIn_of_current (hbase : s.Base front) (hcurrent : s.Current) :
    front.isLoggedIn s.state = true := by
  obtain ⟨hlogin, hpending, htasks⟩ := hcurrent
  simp [hbase.status, hlogin, hpending, htasks, lastLogin]

section Lawful

variable (hfront : front.Lawful)

include hfront

theorem isLoggedIn_advance (result : MarketData × Option MdCall) :
    front.isLoggedIn (s.advance front accepts result).state = front.isLoggedIn s.state :=
  hfront.isLoggedIn_takeCall

/-- What is not logged in pushes nothing after a call either. -/
theorem Base.down_advance (hbase : s.Base front) (result : MarketData × Option MdCall)
    (hlogin : front.isLoggedIn (s.advance front accepts result).state = false) :
    (s.advance front accepts result).pushes front = ∅ := by
  rw [isLoggedIn_advance hfront] at hlogin
  rw [pushes, advance, hfront.pushes_takeCall_of_loggedOut hlogin]
  exact hbase.down hlogin

theorem Base.trySubscribe (hbase : s.Base front) :
    (s.advance front accepts s.md.trySubscribe).Base front := by
  obtain ⟨subscribed, new, hm, -, hmem, hnew⟩ := s.md.trySubscribe_spec
  refine ⟨?_, hbase.down_advance hfront _, ?_, ?_, ?_⟩
  · rw [isLoggedIn_advance hfront, hbase.status]
    simp [advance, hm]
  · simp [advance, hm, hmem, hbase.named]
  · intro id hid
    simp only [advance, hm, List.mem_append] at hid ⊢
    rcases hid with hid | hid
    · exact (hmem id).mpr (.inl (hbase.queued id hid))
    · split at hid
      · simp at hid
      · exact ((hnew id).mp hid).1
  · intro hlogin
    simp only [advance, hm] at hlogin ⊢
    simp [hlogin, hbase.flushed hlogin]

theorem Base.unsubscribeKey (hbase : s.Base front) (accepts : MdAnswer) (key : InstrumentKey) :
    (s.advance front accepts (s.md.unsubscribeKey key)).Base front := by
  have hm := (s.md.unsubscribeKey_spec hbase.named hbase.queued key).1
  refine ⟨?_, hbase.down_advance hfront _, ?_, ?_, ?_⟩
  · rw [isLoggedIn_advance hfront, hbase.status]
    simp [advance, hm]
  · simp [advance, hm, hbase.named]
  · intro id hid
    simp [advance, hm] at hid ⊢
    exact ⟨hid.2, hbase.queued id hid.1⟩
  · intro hlogin
    simp only [advance, hm] at hlogin ⊢
    simp [hbase.flushed hlogin]

theorem Base.nextTask {task : MdTask} {pending : List MdTask} (hbase : s.Base front)
    (hpending : s.md.pending = task :: pending) :
    (s.advance front accepts
      (({ s.md with pending := pending } : MarketData).perform task)).Base front := by
  obtain ⟨ids, hm, -, -⟩ := ({ s.md with pending := pending } : MarketData).perform_spec task
  refine ⟨?_, hbase.down_advance hfront _, ?_, ?_, ?_⟩
  · rw [isLoggedIn_advance hfront, hbase.status]
    simp [advance, hm, hpending, lastLogin]
  · simp [advance, hm, hbase.named]
  · intro id hid
    simp only [advance, hm] at hid ⊢
    split at hid
    · simp at hid
    · exact hbase.queued id hid
  · intro hlogin
    simp only [advance, hm] at hlogin ⊢
    simp [hlogin]

theorem Base.step (hbase : s.Base front) (event : MdEvent) : (s.step front event).Base front := by
  cases event with
  | request message accepts =>
      simp only [MdSystem.step]
      split
      · cases message with
        | instrumentKey key => exact ⟨hbase.status, hbase.down, hbase.named, hbase.queued, hbase.flushed⟩
        | instrumentUnsubscribe key =>
            have h := hbase.unsubscribeKey hfront accepts key
            exact ⟨h.status, h.down, h.named, h.queued, h.flushed⟩
      · exact hbase
  | trySubscribe accepts =>
      simp only [MdSystem.step]
      split
      · exact hbase.trySubscribe hfront
      · exact hbase
  | drainTasks =>
      simp only [MdSystem.step]
      split
      · next hpending =>
          have hstatus := hbase.status
          simp only [hpending, List.nil_append] at hstatus
          exact ⟨by simpa using hstatus, hbase.down, hbase.named, hbase.queued, hbase.flushed⟩
      · exact hbase
  | nextTask accepts =>
      cases hpending : s.md.pending with
      | nil => simpa [MdSystem.step, hpending] using hbase
      | cons task pending => simpa [MdSystem.step, hpending] using hbase.nextTask hfront hpending
  | callback task =>
      refine ⟨?_, fun _ => hfront.pushes_connect _ _, hbase.named, hbase.queued, hbase.flushed⟩
      simp [MdSystem.step, lastLogin, hfront.isLoggedIn_connect]

/-! ## What steps do to what is served -/

/-- What the front pushes after the source has asked for instruments, or not. -/
theorem mem_pushes_subscribe {m : MarketData} {ids : List String} {asks : Prop} [Decidable asks]
    {id : String} : id ∈ (s.advance front accepts
        (m, if asks ∧ ids ≠ [] then some (.subscribeMarketData ids) else none)).pushes front ↔
      id ∈ s.pushes front ∨
        (front.isLoggedIn s.state && accepts id) = true ∧ asks ∧ id ∈ ids := by
  by_cases h : asks ∧ ids ≠ []
  · rw [pushes, advance, if_pos h]
    refine (hfront.mem_subscribe s.state accepts ids id).trans ?_
    simp [pushes, h.1]
  · rw [pushes, advance, if_neg h]
    constructor
    · exact .inl
    · rintro (hid | ⟨-, hasks, hid⟩)
      · exact hid
      · exact absurd ⟨hasks, List.ne_nil_of_mem hid⟩ h

theorem served_trySubscribe (hbase : s.Base front) (hserved : s.Served front) :
    (s.advance front accepts s.md.trySubscribe).Served front ↔
      s.Safe front (.trySubscribe accepts) := by
  obtain ⟨subscribed, new, hm, hcall, hmem, hnew⟩ := s.md.trySubscribe_spec
  have hpushes : ∀ id, id ∈ (s.advance front accepts s.md.trySubscribe).pushes front ↔
      id ∈ s.pushes front ∨
        (front.isLoggedIn s.state && accepts id) = true ∧ s.md.loggedIn = true ∧ id ∈ new := by
    intro id
    rw [← Prod.mk.eta (p := s.md.trySubscribe), hcall]
    exact mem_pushes_subscribe hfront
  have hcurrent : (s.advance front accepts s.md.trySubscribe).Current ↔ s.Current := by
    simp [advance, hm, Current]
  constructor
  · intro h hcur key hkey
    by_cases hid : key.instrumentId = ""
    · exact .inr (.inl hid)
    · have hsub : key.instrumentId ∈ subscribed := (hmem _).mpr (.inr ⟨hid, key, hkey, rfl⟩)
      have hpushed := h.all (hcurrent.mpr hcur) (by simpa [advance, hm] using hsub)
      rw [hpushes] at hpushed
      rcases hpushed with hpushed | ⟨haccepts, -, -⟩
      · exact .inr (.inr (hserved.subset hpushed))
      · exact .inl (Bool.and_eq_true_iff.mp haccepts).2
  · intro hsafe
    refine ⟨fun id hid => ?_, fun hcur id hid => ?_⟩
    · simp only [advance, hm]
      rw [hpushes] at hid
      rcases hid with hid | ⟨-, -, hid⟩
      · exact (hmem id).mpr (.inl (hserved.subset hid))
      · exact ((hnew id).mp hid).1
    · rw [hcurrent] at hcur
      have hlogin := hbase.isLoggedIn_of_current hcur
      simp only [advance, hm] at hid
      rw [hpushes]
      by_cases hold : id ∈ s.md.subscribed
      · exact .inl (hserved.all hcur hold)
      · obtain ⟨hne, key, hkey, rfl⟩ := ((hmem id).mp hid).resolve_left hold
        have haccepts := (hsafe hcur key hkey).resolve_right (not_or.mpr ⟨hne, hold⟩)
        exact .inr ⟨by simp [hlogin, haccepts], hcur.1, (hnew _).mpr ⟨hid, hold⟩⟩

theorem served_unsubscribeKey (hbase : s.Base front) (hserved : s.Served front) (accepts : MdAnswer)
    (key : InstrumentKey) :
    (s.advance front accepts (s.md.unsubscribeKey key)).Served front ↔
      ((s.md.loggedIn && accepts key.instrumentId) = false →
        key.instrumentId ∉ s.pushes front) := by
  obtain ⟨hm, hcall⟩ := s.md.unsubscribeKey_spec hbase.named hbase.queued key
  have hnamed : "" ∉ s.pushes front := fun h => hbase.named (hserved.subset h)
  have hpushes : ∀ id, id ∈ (s.advance front accepts (s.md.unsubscribeKey key)).pushes front ↔
      id ∈ s.pushes front ∧
        ((s.md.loggedIn && accepts key.instrumentId) = true → id ≠ key.instrumentId) := by
    intro id
    cases hlogin : front.isLoggedIn s.state with
    | false =>
        have hsame : (s.advance front accepts (s.md.unsubscribeKey key)).pushes front =
            s.pushes front := hfront.pushes_takeCall_of_loggedOut hlogin
        simp [hsame, hbase.down hlogin]
    | true =>
        simp only [pushes, advance, hcall] at hnamed ⊢
        by_cases h : key.instrumentId ≠ "" ∧ s.md.loggedIn = true
        · rw [if_pos h, MdFront.takeCall, hfront.mem_unSubscribe]
          simp only [hlogin, h.2, Bool.true_and, List.mem_singleton]
          grind
        · rw [if_neg h, MdFront.takeCall]
          grind
  have hcurrent : (s.advance front accepts (s.md.unsubscribeKey key)).Current ↔ s.Current := by
    simp [advance, hm, Current]
  constructor
  · intro h huncalled hpushed
    have hstill := h.subset ((hpushes _).mpr ⟨hpushed, by simp [huncalled]⟩)
    simp [advance, hm] at hstill
  · intro hsafe
    refine ⟨fun id hid => ?_, fun hcur id hid => ?_⟩
    · obtain ⟨hpushed, hne⟩ := (hpushes id).mp hid
      simp only [advance, hm, Finset.mem_erase]
      refine ⟨fun heq => ?_, hserved.subset hpushed⟩
      cases hcalled : s.md.loggedIn && accepts key.instrumentId with
      | true => exact hne hcalled heq
      | false => exact hsafe hcalled (heq ▸ hpushed)
    · simp only [advance, hm, Finset.mem_erase] at hid
      exact (hpushes id).mpr ⟨hserved.all (hcurrent.mp hcur) hid.2, fun _ => hid.1⟩

theorem served_nextTask {task : MdTask} {pending : List MdTask} (hbase : s.Base front)
    (hserved : s.Served front) (hpending : s.md.pending = task :: pending) :
    (s.advance front accepts
      (({ s.md with pending := pending } : MarketData).perform task)).Served front ↔
      s.Safe front (.nextTask accepts) := by
  obtain ⟨ids, hm, hcall, hids⟩ :=
    ({ s.md with pending := pending } : MarketData).perform_spec task
  have hbase' : (s.advance front accepts
      (({ s.md with pending := pending } : MarketData).perform task)).Base front :=
    hbase.nextTask hfront hpending
  have hpushes : ∀ id, id ∈ (s.advance front accepts
      (({ s.md with pending := pending } : MarketData).perform task)).pushes front ↔
        id ∈ s.pushes front ∨
          (front.isLoggedIn s.state && accepts id) = true ∧ task.isLogin = true ∧ id ∈ ids := by
    intro id
    rw [← Prod.mk.eta (p := MarketData.perform _ task), hcall]
    exact mem_pushes_subscribe hfront
  have hlogin : front.isLoggedIn (s.advance front accepts
      (({ s.md with pending := pending } : MarketData).perform task)).state =
        front.isLoggedIn s.state := isLoggedIn_advance hfront _
  generalize hs' : s.advance front accepts
    (({ s.md with pending := pending } : MarketData).perform task) = s' at hpushes hbase' hlogin ⊢
  have hmd : s'.md = { s.md with
      pending := pending
      loggedIn := task.isLogin
      pendingSubscribes := if task.isLogin then [] else s.md.pendingSubscribes } := by
    rw [← hs']
    exact hm
  have hsubset : s'.pushes front ⊆ s'.md.subscribed := by
    intro id hid
    rw [hmd]
    rcases (hpushes id).mp hid with hid | ⟨-, -, hid⟩
    · exact hserved.subset hid
    · have hwhich := (hids id).mp hid
      split at hwhich
      · exact hwhich
      · exact hbase.queued id hwhich
  -- the source is up to date only after the last task that waits, and that is a login
  have hcurrent : s'.Current ↔
      s.md.pending = [.onLoginSuccess] ∧ s.md.tasks = [] := by
    rw [Current, hmd, hpending]
    cases task <;> simp [MdTask.isLogin]
  have hasked : ∀ id ∈ s.md.subscribed,
      id ∈ ids ↔ s.md.pendingSubscribes = [] ∨ id ∈ s.md.pendingSubscribes := by
    intro id hid
    rw [hids]
    by_cases hqueue : s.md.pendingSubscribes = []
    · simp [hqueue, hid]
    · simp [hqueue]
  constructor
  · intro h hlast htasks id hid
    have hpushed := h.all (hcurrent.mpr ⟨hlast, htasks⟩) (by rw [hmd]; exact hid)
    rcases (hpushes id).mp hpushed with hold | ⟨haccepts, -, hnew⟩
    · exact .inl hold
    · exact .inr ⟨(Bool.and_eq_true_iff.mp haccepts).2, (hasked id hid).mp hnew⟩
  · intro hsafe
    refine ⟨hsubset, fun hcur id hid => ?_⟩
    rw [hmd] at hid
    obtain ⟨hlast, htasks⟩ := hcurrent.mp hcur
    have htask : task.isLogin = true := by
      rw [hpending, List.cons.injEq] at hlast
      rw [hlast.1, MdTask.isLogin]
    rw [hpushes]
    rcases hsafe hlast htasks id hid with hold | ⟨haccepts, hqueue⟩
    · exact .inl hold
    · have hon : front.isLoggedIn s.state = true :=
        hlogin.symm.trans (hbase'.isLoggedIn_of_current hcur)
      exact .inr ⟨by simp [hon, haccepts], htask, (hasked id hid).mpr hqueue⟩

/-- A step keeps what is served just when it is safe. -/
theorem served_step (hbase : s.Base front) (hserved : s.Served front) (event : MdEvent) :
    (s.step front event).Served front ↔ s.Safe front event := by
  cases event with
  | request message accepts =>
      simp only [step]
      by_cases hpending : s.md.pending = []
      · rw [if_pos hpending]
        cases message with
        | instrumentKey key => exact ⟨fun _ => trivial, fun _ => ⟨hserved.subset, hserved.all⟩⟩
        | instrumentUnsubscribe key =>
            have hiff := served_unsubscribeKey hfront hbase hserved accepts key
            constructor
            · exact fun h _ => hiff.mp ⟨h.subset, h.all⟩
            · intro hsafe
              have h := hiff.mpr (hsafe hpending)
              exact ⟨h.subset, h.all⟩
      · rw [if_neg hpending]
        refine ⟨fun _ => ?_, fun _ => hserved⟩
        cases message with
        | instrumentKey key => trivial
        | instrumentUnsubscribe key => exact fun h => absurd h hpending
  | trySubscribe accepts =>
      simp only [step]
      by_cases hpending : s.md.pending = []
      · rw [if_pos hpending]
        exact served_trySubscribe hfront hbase hserved
      · rw [if_neg hpending]
        exact ⟨fun _ hcur => absurd hcur.2.1 hpending, fun _ => hserved⟩
  | drainTasks =>
      refine ⟨fun _ => trivial, fun _ => ?_⟩
      simp only [step]
      split
      · refine ⟨hserved.subset, fun hcur => hserved.all ?_⟩
        exact ⟨hcur.1, ‹_›, hcur.2.1⟩
      · exact hserved
  | nextTask accepts =>
      cases hpending : s.md.pending with
      | nil =>
          simp only [step, hpending]
          exact ⟨fun _ hlast => by simp [hpending] at hlast, fun _ => hserved⟩
      | cons task pending =>
          simp only [step, hpending]
          exact served_nextTask hfront hbase hserved hpending
  | callback task =>
      refine ⟨fun _ => trivial, fun _ => ⟨?_, fun hcur => ?_⟩⟩
      · simp [step, pushes, hfront.pushes_connect]
      · simp [Current, step] at hcur

end Lawful

/-! ## What is asked for -/

end MdSystem

/-- The instrument of a request. -/
def MdEvent.keyAsked : MdEvent → Option InstrumentKey
  | request (.instrumentKey key) _ | request (.instrumentUnsubscribe key) _ => some key
  | trySubscribe _ | drainTasks | nextTask _ | callback _ => none

/-- The hash that requests name an instrument by tells its id. -/
def Keyed (keys : List InstrumentKey) : Prop :=
  ∀ k ∈ keys, ∀ k' ∈ keys, k.key = k'.key ↔ k.instrumentId = k'.instrumentId

instance (keys : List InstrumentKey) : Decidable (Keyed keys) :=
  inferInstanceAs (Decidable (∀ k ∈ keys, ∀ k' ∈ keys, k.key = k'.key ↔ k.instrumentId = k'.instrumentId))

namespace MdSystem

variable {φ : Type} {front : MdFront φ} {s : MdSystem φ} {event : MdEvent} {events : List MdEvent}
  {keys : List InstrumentKey} {state : φ}

/-- What is wanted is subscribed to or waits, and what waits was asked for. -/
structure Waiting (keys : List InstrumentKey) (s : MdSystem φ) : Prop where
  asked : ∀ key ∈ s.md.instrumentsToSubscribe, key ∈ keys
  follows : s.Follows

theorem waiting_step (hkeys : Keyed keys) (hbase : s.Base front) (hwaiting : s.Waiting keys)
    (hevent : ∀ key, event.keyAsked = some key → key ∈ keys) :
    (s.step front event).Waiting keys := by
  obtain ⟨hasked, hfollows⟩ := hwaiting
  cases event with
  | request message accepts =>
      simp only [step]
      split
      swap
      · exact ⟨hasked, hfollows⟩
      cases message with
      | instrumentKey key =>
          have hkey : key ∈ keys := hevent key rfl
          refine ⟨?_, fun id hid => ?_⟩
          · simpa [handle, MarketData.addInstrumentKey, or_imp, forall_and] using ⟨hasked, hkey⟩
          · have hold := hfollows id hid
            simp only [handle, MarketData.addInstrumentKey, Finset.mem_insert, List.mem_append,
              List.mem_singleton, hold]
            grind
      | instrumentUnsubscribe key =>
          have hkey : key ∈ keys := hevent key rfl
          obtain ⟨hm, -⟩ := s.md.unsubscribeKey_spec hbase.named hbase.queued key
          refine ⟨?_, fun id hid => ?_⟩
          · intro k hk
            simp only [handle, advance, hm, List.mem_filter] at hk
            exact hasked k hk.1
          · have hold := hfollows id hid
            simp only [handle, advance, hm, Finset.mem_erase, List.mem_filter, hold]
            -- what waits under the same hash is what waits under the same id
            have hsame : ∀ k ∈ s.md.instrumentsToSubscribe,
                k.key = key.key ↔ k.instrumentId = key.instrumentId :=
              fun k hk => hkeys k (hasked k hk) key hkey
            grind
  | trySubscribe accepts =>
      simp only [step]
      split
      swap
      · exact ⟨hasked, hfollows⟩
      obtain ⟨subscribed, new, hm, -, hmem, -⟩ := s.md.trySubscribe_spec
      refine ⟨by simp [advance, hm], fun id hid => ?_⟩
      have hold := hfollows id hid
      simp only [advance, hm, hold, hmem]
      grind
  | drainTasks =>
      simp only [step]
      split <;> exact ⟨hasked, hfollows⟩
  | nextTask accepts =>
      cases hpending : s.md.pending with
      | nil => simpa [step, hpending] using Waiting.mk hasked hfollows
      | cons task pending =>
          obtain ⟨ids, hm, -, -⟩ :=
            ({ s.md with pending := pending } : MarketData).perform_spec task
          simp only [step, hpending]
          exact ⟨by simpa [advance, hm] using hasked, by simpa [Follows, advance, hm] using hfollows⟩
  | callback task => exact ⟨hasked, hfollows⟩

section Runs

variable (hfront : front.Lawful) (hdown : front.isLoggedIn state = false)
  (hnone : front.pushes state = ∅)

include hfront hdown hnone

theorem base_run (events : List MdEvent) : (events.foldl (step front) (start state)).Base front := by
  induction events using List.reverseRecOn with
  | nil => exact base_start hdown hnone
  | append_singleton events event ih => simpa using ih.step hfront event

theorem waiting_run (hkeys : Keyed keys)
    (hevents : ∀ event ∈ events, ∀ key, event.keyAsked = some key → key ∈ keys) :
    (events.foldl (step front) (start state)).Waiting keys := by
  induction events using List.reverseRecOn with
  | nil => exact ⟨by simp [start, MarketData.start], fun id _ => by simp [start, MarketData.start]⟩
  | append_singleton events event ih =>
      simp only [List.mem_append, List.mem_singleton] at hevents
      have hwaiting := ih fun event hevent => hevents event (.inl hevent)
      rw [List.foldl_append, List.foldl_cons, List.foldl_nil]
      exact waiting_step hkeys (base_run hfront hdown hnone events) hwaiting
        (hevents event (.inr rfl))

/-- The front always pushes what is subscribed to, just where every step is safe.  Where it does, and
nothing waits, it pushes what was asked for, if the keys of the requests tell their ids. -/
theorem served_iff :
    (Along (step front) (Safe front) (start state) events ↔
      ∀ done, done <+: events → (done.foldl (step front) (start state)).Served front) ∧
    (Keyed (events.filterMap MdEvent.keyAsked) → ∀ done, done <+: events →
      let s := done.foldl (step front) (start state)
      s.Served front → s.Current → s.md.instrumentsToSubscribe = [] →
        ∀ id, id ≠ "" → (id ∈ s.pushes front ↔ id ∈ s.wanted)) := by
  constructor
  · refine along_iff_forall_prefix (R := fun s _ => s.Base front) ?_ ?_ (base_start hdown hnone) ?_
    · intro s event _ hbase
      exact hbase.step hfront event
    · intro s event _ hbase hserved
      exact served_step hfront hbase hserved event
    · exact ⟨by simp [start, pushes, hnone], by simp [Current, start, MarketData.start]⟩
  · intro hkeys done hdone s hserved hcurrent hwaits id hid
    have hfollows : s.Follows := by
      refine (waiting_run hfront hdown hnone hkeys fun event hevent key hkey => ?_).follows
      exact List.mem_filterMap.mpr ⟨event, hdone.subset hevent, hkey⟩
    rw [hfollows id hid]
    simp only [hwaits, List.not_mem_nil, false_and, exists_false, or_false]
    exact ⟨fun h => hserved.subset h, fun h => hserved.all hcurrent h⟩

end Runs

/-! ### A front that keeps what it pushes -/

/-- A front, by whether a login is in force and what it pushes. -/
def exampleFront : MdFront (Bool × Finset String) where
  isLoggedIn := Prod.fst
  pushes := Prod.snd
  take f accepts
    | .subscribeMarketData instrumentIds =>
        (f.1, f.2 ∪ instrumentIds.toFinset.filter fun id => (f.1 && accepts id) = true)
    | .unSubscribeMarketData instrumentIds =>
        (f.1, f.2 \ instrumentIds.toFinset.filter fun id => (f.1 && accepts id) = true)
  connect _ task := (task.isLogin, ∅)

theorem lawful_exampleFront : exampleFront.Lawful where
  isLoggedIn_take _ _ call := by cases call <;> rfl
  mem_subscribe _ _ _ _ := by simp [exampleFront, and_comm]
  mem_unSubscribe _ _ _ _ := by
    simp only [exampleFront, Finset.mem_sdiff, Finset.mem_filter, List.mem_toFinset, not_and]
    exact and_congr_right fun _ => imp_not_comm
  isLoggedIn_connect _ _ := rfl
  pushes_connect _ _ := rfl

/-- An instrument is subscribed to.  The connection is lost, another instrument is subscribed to,
and the login that follows asks for the second alone. -/
private def reconnect : List MdEvent :=
  let all : MdAnswer := fun _ => true
  let key (key : UInt32) (id : String) : MdEvent :=
    .request (.instrumentKey ⟨key, id, "SHFE", .Future⟩) all
  let perform (task : MdTask) : List MdEvent := [.callback task, .drainTasks, .nextTask all]
  perform .onLoginSuccess ++ [key 1 "rb2405", .trySubscribe all] ++
    perform .onFrontDisconnected ++ [key 2 "ag2406", .trySubscribe all] ++
    perform .onLoginSuccess

/-- The front refuses one of two instruments. -/
private def refuse : List MdEvent :=
  let all : MdAnswer := fun _ => true
  [.callback .onLoginSuccess, .drainTasks, .nextTask all,
    .request (.instrumentKey ⟨1, "rb2405", "SHFE", .Future⟩) all,
    .request (.instrumentKey ⟨2, "ag2406", "SHFE", .Future⟩) all,
    .trySubscribe fun id => id = "rb2405"]

theorem served_example :
    (¬ ∀ done, done <+: reconnect →
      (done.foldl (step exampleFront) (start (false, ∅))).Served exampleFront) ∧
    (∀ done, done <+: reconnect.dropLast →
      (done.foldl (step exampleFront) (start (false, ∅))).Served exampleFront) ∧
    ¬ ∀ done, done <+: refuse →
      (done.foldl (step exampleFront) (start (false, ∅))).Served exampleFront := by
  have hiff : ∀ events, Along (step exampleFront) (Safe exampleFront) (start (false, ∅)) events ↔
      ∀ done, done <+: events →
        (done.foldl (step exampleFront) (start (false, ∅))).Served exampleFront :=
    fun _ => (served_iff lawful_exampleFront rfl rfl).1
  refine ⟨fun h => ?_, (hiff _).mp (by decide), fun h => ?_⟩
  · exact absurd ((hiff _).mpr h) (by decide)
  · exact absurd ((hiff _).mpr h) (by decide)

end MdSystem

end Kungfu.Ctp
