import Kungfu.Log.Inbox
import Kungfu.Practice.Apprentice
import Kungfu.Practice.Offline

/-!
# The master and its applications at work

Every process reads what comes first of the journals that it has joined, and handles it; what its
handlers write is published one frame after another, while other processes go on.  Frames are
published in the order of their times.

Processes start and die at any time.  The master learns of a process when it checks in, and lets go
of a location when its process is dead.
-/

namespace Kungfu.Practice.Startup

open Longfist Yijinjing Index Outcome

variable {δ : Type}

/-- A process: its state, how far it has read, and what its handlers have written that is not
published. -/
structure Party (σ δ : Type) where
  state : σ
  inbox : Inbox Key
  outbox : List (Key × Payload δ)

/-- An application, and where the log was when it started. -/
structure Process (δ : Type) extends Party (App δ) δ where
  since : ℕ

/-- `live` is cleared when the master fails.  `answers` is what the cache has answered to the process
of a location, and `faults` are the failures of applications. -/
structure World (δ : Type) where
  log : List (Post Key Int64 (Payload δ))
  now : Int64
  master : Party Master δ
  live : Bool
  apps : UInt32 → Option (Process δ)
  answers : UInt32 → List (List δ)
  faults : List (UInt32 × Fault)

namespace World

/-- What the master does by itself. -/
inductive Chore
  | active (clock : Clock)
  | publishTimeReset (clock : Clock)
  | publishTradingDay (clock : Clock)

def Chore.step : Chore → Master.Step
  | active clock => .active clock
  | publishTimeReset clock => .publishTimeReset clock
  | publishTradingDay clock => .publishTradingDay clock

inductive Step (δ : Type)
  /-- A process starts. -/
  | start (home : Location) (time : Int64)
  /-- A process dies. -/
  | stop (uid : UInt32)
  /-- The master reads the notice by which a process checks in. -/
  | register (register : Register) (genTime : Int64) (clock : Clock)
  /-- The master finds a process dead. -/
  | deregister (uid : UInt32) (time : Int64)
  /-- The master reads a frame. -/
  | masterReads (frameLength : UInt32) (clock : Clock)
  | masterDoes (chore : Chore)
  | masterPublishes (time : Int64)
  /-- An application reads a frame; `answer` is what the cache has stored. -/
  | reads (uid : UInt32) (answer : List δ)
  /-- An application gets a notice. -/
  | notices (uid : UInt32)
  /-- An application writes something of its own. -/
  | writes (uid dest : UInt32) (payload : Payload δ)
  | publishes (uid : UInt32) (time : Int64)

/-- The journal of a writer of the master. -/
def masterKey (dest : UInt32) : Key := ⟨(writerLocation dest).uid, dest⟩

/-- The journal of requests of an application. -/
def upKey (uid : UInt32) : Key := ⟨uid, (masterCmdLocation uid).uid⟩

/-- What an application may write of its own: data to anybody, and requests to the master, but not
those by which the cache is asked.  The cache writes nothing of its own. -/
def IsOwn (uid dest : UInt32) : Payload δ → Prop
  | .state _ => uid ≠ cachedHome.uid
  | .request (.requestCachedDone _) => False
  | .request (.requestReadFrom sourceId _) =>
      uid ≠ cachedHome.uid ∧ dest = (masterCmdLocation uid).uid ∧ sourceId ≠ cachedHome.uid
  | .request _ => uid ≠ cachedHome.uid ∧ dest = (masterCmdLocation uid).uid
  | .master _ | .requestCached => False

instance (uid dest : UInt32) : DecidablePred (IsOwn (δ := δ) uid dest)
  | .state _ => inferInstanceAs (Decidable (uid ≠ cachedHome.uid))
  | .request (.requestCachedDone _) | .master _ | .requestCached => inferInstanceAs (Decidable False)
  | .request (.requestReadFrom sourceId _) => inferInstanceAs (Decidable
      (uid ≠ cachedHome.uid ∧ dest = (masterCmdLocation uid).uid ∧ sourceId ≠ cachedHome.uid))
  | .request (.requestWriteTo _) | .request (.requestWriteToBand _)
  | .request (.requestReadFromPublic _ _) | .request (.requestReadFromSync _ _)
  | .request (.channelRequest _) | .request (.timeRequest _) | .request (.location _)
  | .request .other => inferInstanceAs (Decidable
      (uid ≠ cachedHome.uid ∧ dest = (masterCmdLocation uid).uid))

variable (w : World δ)

/-- A master that has started, after the locations of its profile. -/
def start (stored : List Location) (builder : SessionBuilder) (now : Int64) : World δ where
  log := []
  now := now
  master := {
    state := Master.start (heroLocations masterHome ++ stored) builder
    inbox := fun _ => none
    outbox := [(masterKey PUBLIC, .master (.mark .SessionStart))] }
  live := true
  apps _ := none
  answers _ := []
  faults := []

/-! ## What the master does -/

/-- The master goes on with what its handlers leave. -/
def masterRuns (inbox : Inbox Key) (run : Master → Except Fault Master) : World δ :=
  match run w.master.state with
  | .error _ => { w with live := false }
  | .ok m => { w with master := {
      state := { m with written := [] }
      inbox := inbox.adjust w.log m.joins.lookup
      outbox := m.written.map fun x => (masterKey x.dest, .master x.message) } }

/-- The master is able to go on. -/
def MasterReady : Prop := w.live = true ∧ w.master.outbox.length = 0

/-- The process of a location checks in. -/
def ChecksIn (register : Register) (clock : Clock) : Prop :=
  (w.apps register.location.uid).any (fun p => p.state.home = register.location) = true ∧
    w.now < clock.now

/-- A location whose process is dead. -/
def IsDead (uid : UInt32) : Prop :=
  (w.apps uid).isNone = true ∧ uid ∈ w.master.state.registry

/-! ## What applications do -/

/-- An application goes on with what its handlers leave, or fails. -/
def appRuns (uid : UInt32) (p : Process δ) (inbox : Inbox Key)
    (run : App δ → Except Fault (App δ)) : World δ :=
  match run p.state with
  | .error fault => { w with
      apps := Function.update w.apps uid none
      faults := w.faults ++ [(uid, fault)] }
  | .ok a => { w with
      apps := Function.update w.apps uid (some { p with
        state := { a with written := [] }
        inbox := inbox.adjust w.log a.joins.lookup
        outbox := p.outbox ++ a.written.map fun x => (⟨uid, x.1⟩, x.2) }) }

/-- An answer of the cache, if the process that reads is the cache. -/
def answered (p : Process δ) (post : Post Key Int64 (Payload δ)) (answer : List δ) :
    UInt32 → List (List δ) :=
  match post.message with
  | .requestCached =>
      if p.state.isCached ∧ post.key.location ∈ p.state.locations then
        Function.update w.answers post.key.location (w.answers post.key.location ++ [answer])
      else w.answers
  | .master _ | .request _ | .state _ => w.answers

def appReads (uid : UInt32) (p : Process δ) (answer : List δ) : World δ :=
  match p.inbox.next w.log with
  | none => w
  | some (i, post) =>
      { w with answers := w.answered p post answer }.appRuns uid p (p.inbox.take post.key i) fun a =>
        (a.observe post.time).react answer post.key post.time post.message

/-! ## Steps -/

/-- The first frame of an outbox is published. -/
def publish (time : Int64) (item : Key × Payload δ) : World δ :=
  { w with log := w.log ++ [⟨item.1, time, item.2⟩], now := time }

instance : Decidable w.MasterReady :=
  inferInstanceAs (Decidable (w.live = true ∧ w.master.outbox.length = 0))

instance (register : Register) (clock : Clock) : Decidable (w.ChecksIn register clock) :=
  inferInstanceAs (Decidable (_ ∧ _))

instance (uid : UInt32) : Decidable (w.IsDead uid) := inferInstanceAs (Decidable (_ ∧ _))

def step : Step δ → World δ
  | .start home time =>
      if (w.apps home.uid).isNone = true ∧ w.now < time then
        { w with
          now := time
          apps := Function.update w.apps home.uid (some {
            state := App.start home time
            inbox := fun k => if k = masterKey PUBLIC then some w.log.length else none
            outbox := []
            since := w.log.length })
          answers := Function.update w.answers home.uid [] }
      else w
  | .stop uid => { w with apps := Function.update w.apps uid none }
  | .register register genTime clock =>
      if w.MasterReady ∧ w.ChecksIn register clock then
        { w with now := clock.now }.masterRuns w.master.inbox fun m =>
          m.registerApp genTime clock register
      else w
  | .deregister uid time =>
      if w.MasterReady ∧ w.IsDead uid then
        w.masterRuns w.master.inbox fun m => m.deregisterApp time uid
      else w
  | .masterReads frameLength clock =>
      if w.MasterReady then
        match w.master.inbox.next w.log with
        | none => w
        | some (i, post) => w.masterRuns (w.master.inbox.take post.key i) fun m =>
            m.step (.frame post.key.location post.time frameLength clock post.message.event)
      else w
  | .masterDoes chore =>
      if w.MasterReady then w.masterRuns w.master.inbox fun m => m.step chore.step else w
  | .masterPublishes time =>
      match w.master.outbox with
      | [] => w
      | item :: outbox =>
          if w.now < time then
            { w with master := { w.master with outbox := outbox } }.publish time item
          else w
  | .reads uid answer =>
      match w.apps uid with
      | none => w
      | some p => if p.outbox.length = 0 then w.appReads uid p answer else w
  | .notices uid =>
      match w.apps uid with
      | none => w
      | some p => { w with
          apps := Function.update w.apps uid (some { p with state := p.state.observe w.now }) }
  | .writes uid dest payload =>
      match w.apps uid with
      | none => w
      | some p =>
          if dest ∈ p.state.writers ∧ IsOwn uid dest payload then
            { w with apps := Function.update w.apps uid (some { p with
                outbox := p.outbox ++ [(⟨uid, dest⟩, payload)] }) }
          else w
  | .publishes uid time =>
      match w.apps uid with
      | none => w
      | some p =>
          match p.outbox with
          | [] => w
          | item :: outbox =>
              if w.now < time then
                { w with apps := Function.update w.apps uid (some { p with outbox := outbox }) }.publish
                  time item
              else w

/-- What a step does where its guards let it. -/
inductive Fires : Step δ → World δ → Prop
  | start (home : Location) (time : Int64) (hdead : (w.apps home.uid).isNone = true)
      (htime : w.now < time) :
      Fires (.start home time) { w with
        now := time
        apps := Function.update w.apps home.uid (some {
          state := App.start home time
          inbox := fun k => if k = masterKey PUBLIC then some w.log.length else none
          outbox := []
          since := w.log.length })
        answers := Function.update w.answers home.uid [] }
  | stop (uid : UInt32) : Fires (.stop uid) { w with apps := Function.update w.apps uid none }
  | register (register : Register) (genTime : Int64) (clock : Clock) (hready : w.MasterReady)
      (hchecks : w.ChecksIn register clock) :
      Fires (.register register genTime clock)
        ({ w with now := clock.now }.masterRuns w.master.inbox fun m =>
          m.registerApp genTime clock register)
  | deregister (uid : UInt32) (time : Int64) (hready : w.MasterReady) (hdead : w.IsDead uid) :
      Fires (.deregister uid time)
        (w.masterRuns w.master.inbox fun m => m.deregisterApp time uid)
  | masterReads (frameLength : UInt32) (clock : Clock) (i : ℕ) (post : Post Key Int64 (Payload δ))
      (hready : w.MasterReady) (hnext : w.master.inbox.next w.log = some (i, post)) :
      Fires (.masterReads frameLength clock) (w.masterRuns (w.master.inbox.take post.key i) fun m =>
        m.step (.frame post.key.location post.time frameLength clock post.message.event))
  | masterDoes (chore : Chore) (hready : w.MasterReady) :
      Fires (.masterDoes chore) (w.masterRuns w.master.inbox fun m => m.step chore.step)
  | masterPublishes (time : Int64) (item : Key × Payload δ) (outbox : List (Key × Payload δ))
      (hitems : w.master.outbox = item :: outbox) (htime : w.now < time) :
      Fires (.masterPublishes time)
        ({ w with master := { w.master with outbox := outbox } }.publish time item)
  | reads (uid : UInt32) (answer : List δ) (p : Process δ) (hp : w.apps uid = some p)
      (hempty : p.outbox.length = 0) : Fires (.reads uid answer) (w.appReads uid p answer)
  | notices (uid : UInt32) (p : Process δ) (hp : w.apps uid = some p) :
      Fires (.notices uid) { w with
        apps := Function.update w.apps uid (some { p with state := p.state.observe w.now }) }
  | writes (uid dest : UInt32) (payload : Payload δ) (p : Process δ) (hp : w.apps uid = some p)
      (hwriter : dest ∈ p.state.writers) (hown : IsOwn uid dest payload) :
      Fires (.writes uid dest payload) { w with
        apps := Function.update w.apps uid (some { p with
          outbox := p.outbox ++ [(⟨uid, dest⟩, payload)] }) }
  | publishes (uid : UInt32) (time : Int64) (p : Process δ) (item : Key × Payload δ)
      (outbox : List (Key × Payload δ)) (hp : w.apps uid = some p)
      (hitems : p.outbox = item :: outbox) (htime : w.now < time) :
      Fires (.publishes uid time)
        ({ w with apps := Function.update w.apps uid (some { p with outbox := outbox }) }.publish
          time item)

/-- A step that its guards do not let changes nothing. -/
theorem step_eq_or_fires (s : Step δ) : w.step s = w ∨ w.Fires s (w.step s) := by
  cases s with
  | start home time =>
      simp only [step]
      split
      · rename_i hstart
        exact .inr (.start home time hstart.1 hstart.2)
      · exact .inl rfl
  | stop uid => exact .inr (.stop uid)
  | register register genTime clock =>
      simp only [step]
      split
      · rename_i hcheck
        exact .inr (.register register genTime clock hcheck.1 hcheck.2)
      · exact .inl rfl
  | deregister uid time =>
      simp only [step]
      split
      · rename_i hcheck
        exact .inr (.deregister uid time hcheck.1 hcheck.2)
      · exact .inl rfl
  | masterReads frameLength clock =>
      simp only [step]
      split
      · rename_i hready
        cases hnext : w.master.inbox.next w.log with
        | none => exact .inl rfl
        | some read => exact .inr (.masterReads frameLength clock read.1 read.2 hready hnext)
      · exact .inl rfl
  | masterDoes chore =>
      simp only [step]
      split
      · rename_i hready
        exact .inr (.masterDoes chore hready)
      · exact .inl rfl
  | masterPublishes time =>
      simp only [step]
      cases hitems : w.master.outbox with
      | nil => exact .inl rfl
      | cons item outbox =>
          dsimp only
          split
          · rename_i htime
            exact .inr (.masterPublishes time item outbox hitems htime)
          · exact .inl rfl
  | reads uid answer =>
      simp only [step]
      cases hp : w.apps uid with
      | none => exact .inl rfl
      | some p =>
          dsimp only
          split
          · rename_i hempty
            exact .inr (.reads uid answer p hp hempty)
          · exact .inl rfl
  | notices uid =>
      simp only [step]
      cases hp : w.apps uid with
      | none => exact .inl rfl
      | some p => exact .inr (.notices uid p hp)
  | writes uid dest payload =>
      simp only [step]
      cases hp : w.apps uid with
      | none => exact .inl rfl
      | some p =>
          dsimp only
          split
          · rename_i hown
            exact .inr (.writes uid dest payload p hp hown.1 hown.2)
          · exact .inl rfl
  | publishes uid time =>
      simp only [step]
      cases hp : w.apps uid with
      | none => exact .inl rfl
      | some p =>
          cases hitems : p.outbox with
          | nil => exact .inl (by simp only [hitems])
          | cons item outbox =>
              simp only [hitems]
              split
              · rename_i htime
                exact .inr (.publishes uid time p item outbox hp hitems htime)
              · exact .inl rfl

/-! ## Runs -/

/-- The frame is written by the application, or to it, or tells that the cache is done with it. -/
def Concerns (uid : UInt32) (item : Key × Payload δ) : Prop :=
  item.1.location = uid ∨ item.1.dest = uid ∨ item.2 = .request (.requestCachedDone uid)

instance (uid : UInt32) :
    (payload : Payload δ) → Decidable (payload = .request (.requestCachedDone uid))
  | .request (.requestCachedDone destId) => decidable_of_iff (destId = uid) (by simp)
  | .request (.requestWriteTo _) | .request (.requestWriteToBand _)
  | .request (.requestReadFrom _ _) | .request (.requestReadFromPublic _ _)
  | .request (.requestReadFromSync _ _) | .request (.channelRequest _)
  | .request (.timeRequest _) | .request (.location _) | .request .other
  | .master _ | .requestCached | .state _ => isFalse nofun

instance (uid : UInt32) (item : Key × Payload δ) : Decidable (Concerns uid item) :=
  inferInstanceAs (Decidable (_ ∨ _ ∨ _))

/-- The frames that an application has not published. -/
def outbox (uid : UInt32) : List (Key × Payload δ) := ((w.apps uid).map fun p => p.outbox).getD []

/-- The application is new to the master, and to the cache. -/
structure Fresh (uid : UInt32) : Prop where
  registry : uid ∉ w.master.state.registry
  log : ∀ post ∈ w.log, ¬ Concerns uid post.item
  master : ∀ item ∈ w.master.outbox, ¬ Concerns uid item
  cached : ∀ item ∈ w.outbox cachedHome.uid, ¬ Concerns uid item

instance (uid : UInt32) : Decidable (w.Fresh uid) :=
  decidable_of_iff (uid ∉ w.master.state.registry ∧ (∀ post ∈ w.log, ¬ Concerns uid post.item) ∧
      (∀ item ∈ w.master.outbox, ¬ Concerns uid item) ∧
        ∀ item ∈ w.outbox cachedHome.uid, ¬ Concerns uid item)
    ⟨fun h => ⟨h.1, h.2.1, h.2.2.1, h.2.2.2⟩, fun h => ⟨h.1, h.2, h.3, h.4⟩⟩

/-- Applications are of the given locations.  The one of interest starts afresh, and while it runs
the cache is not started. -/
def Allowed (uids : List UInt32) (uid : UInt32) (w : World δ) : Step δ → Prop
  | .start home _ => home.uid ∈ uids ∧ (home.uid = uid → w.Fresh uid) ∧
      (home.uid = cachedHome.uid → w.apps uid = none)
  | _ => True

instance (uids : List UInt32) (uid : UInt32) : DecidablePred (Allowed uids uid w)
  | .start home _ =>
      have : Decidable (w.apps uid = none) := decidable_of_iff _ Option.isNone_iff_eq_none
      inferInstanceAs (Decidable (home.uid ∈ uids ∧ (home.uid = uid → w.Fresh uid) ∧
        (home.uid = cachedHome.uid → w.apps uid = none)))
  | .stop _ | .register _ _ _ | .deregister _ _ | .masterReads _ _ | .masterDoes _
  | .masterPublishes _ | .reads _ _ | .notices _ | .writes _ _ _ | .publishes _ _ =>
      inferInstanceAs (Decidable True)

end World

/-- The uids of the applications are different from those that the master uses for itself. -/
structure Apart (uids : List UInt32) : Prop where
  cached : cachedHome.uid ∈ uids
  master : masterHome.uid ∉ uids
  cmd : ∀ uid ∈ uids, (masterCmdLocation uid).uid ∉ uids
  reserved : PUBLIC ∉ uids ∧ SYNC ∉ uids

end Kungfu.Practice.Startup
