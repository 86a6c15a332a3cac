import Kungfu.Index.Session
import Kungfu.Logic.Table
import Kungfu.Yijinjing.Hash
import Kungfu.Yijinjing.Reader

/-!
# The master

The master keeps tables of the applications that are registered, of the journals that it reads
and of the channels and bands that it has announced.  It writes to a journal of commands for
each application, and to its own public journal, which everybody reads.
-/

namespace Kungfu.Practice

open Longfist Yijinjing Index

def SYNC : UInt32 := 1

def categoryName : Category → String
  | .MD => "md"
  | .TD => "td"
  | .STRATEGY => "strategy"
  | .SYSTEM => "system"

def modeName : Mode → String
  | .LIVE => "live"
  | .DATA => "data"
  | .REPLAY => "replay"
  | .BACKTEST => "backtest"

/-- A location, whose uid is the hash of its `uname`. -/
def makeLocation (mode : Mode) (category : Category) (group name : String) : Location where
  uid := hashStr32 s!"{categoryName category}/{group}/{name}/{modeName mode}"
  category := category
  mode := mode
  group := group
  name := name

/-- `{:08x}`. -/
def hex (uid : UInt32) : String :=
  let digits := Nat.toDigits 16 uid.toNat
  String.ofList (List.replicate (8 - digits.length) '0' ++ digits)

/-- `master_cmd_location`, from which the master writes to an application. -/
def masterCmdLocation (uid : UInt32) : Location := makeLocation .LIVE .SYSTEM "master" (hex uid)

/-- `Register`, which an application sends with its own location. -/
structure Register where
  location : Location
  pid : Int32
  lastActiveTime : Int64
  checkinTime : Int64
  deriving DecidableEq, Repr

structure Channel where
  sourceId : UInt32
  destId : UInt32
  deriving DecidableEq, Repr

structure Band where
  sourceId : UInt32
  destId : UInt32
  deriving DecidableEq, Repr

structure TimeRequest where
  id : Int32
  duration : Int64
  «repeat» : Int64
  deriving DecidableEq, Repr

structure TimerTask where
  checkpoint : Int64
  duration : Int64
  repeatLimit : Int64
  repeatCount : Int64
  deriving DecidableEq, Repr

/-- What carries no data. -/
inductive Mark
  | SessionStart | SessionEnd | Time | RequestStart | CachedReadyToRead
  deriving DecidableEq, Repr

/-- What the master writes. -/
inductive Message
  | mark (tag : Mark)
  | location (location : Location)
  | register (register : Register)
  | deregister (location : Location)
  | channel (channel : Channel)
  | band (band : Band)
  | requestWriteTo (destId : UInt32)
  | requestWriteToBand (location : Location)
  | requestReadFrom (sourceId : UInt32) (fromTime : Int64)
  | requestReadFromPublic (sourceId : UInt32) (fromTime : Int64)
  | requestReadFromSync (sourceId : UInt32) (fromTime : Int64)
  | timeReset (systemClockCount steadyClockCount : Int64)
  | tradingDay (timestamp : Int64)
  deriving DecidableEq, Repr

/-- A frame, by the key of the writer that wrote it. -/
structure Written where
  dest : UInt32
  triggerTime : Int64
  message : Message
  deriving DecidableEq, Repr

/-- What the master reads off its clocks and its calendar during an event. -/
structure Clock where
  now : Int64
  systemClockCount : Int64
  steadyClockCount : Int64
  tradingDay : Int64

inductive Fault
  | noLocation (uid : UInt32)
  | noWriter (dest : UInt32)
  deriving DecidableEq, Repr

/-- The tables of the master; `writers` are the keys of `writers_`, and `joins` the journals of
its reader, with the times from which they are read. -/
structure Tables where
  locations : AList fun _ : UInt32 => Location
  registry : AList fun _ : UInt32 => Register
  writers : List UInt32
  joins : AList fun _ : Key => Int64
  channels : AList fun _ : UInt64 => Channel
  bands : AList fun _ : UInt64 => Band
  timerTasks : AList fun _ : UInt32 => AList fun _ : Int32 => TimerTask

/-- `make_source_dest_hash`. -/
def makeSourceDestHash (source dest : UInt32) : UInt64 := source.toUInt64 <<< 32 ||| dest.toUInt64

namespace Tables

open Table

/-- `try_add_location`. -/
def addLocation (location : Location) (t : Tables) : Tables :=
  { t with locations := tryEmplace location.uid location t.locations }

/-- `register_location`. -/
def registerLocation (register : Register) (t : Tables) : Tables :=
  { t with registry := tryEmplace register.location.uid register t.registry }

/-- `writers_.emplace`. -/
def emplaceWriter (dest : UInt32) (t : Tables) : Tables :=
  { t with writers := dest :: t.writers }

/-- `reader_->join`. -/
def join (location dest : UInt32) (fromTime : Int64) (t : Tables) : Tables :=
  { t with joins := tryEmplace ⟨location, dest⟩ fromTime t.joins }

/-- `register_channel`. -/
def registerChannel (channel : Channel) (t : Tables) : Tables :=
  { t with
    channels := tryEmplace (makeSourceDestHash channel.sourceId channel.destId) channel t.channels }

/-- `register_band`. -/
def registerBand (band : Band) (t : Tables) : Tables :=
  { t with bands := tryEmplace (makeSourceDestHash band.sourceId band.destId) band t.bands }

/-- `deregister_channel`. -/
def deregisterChannel (source : UInt32) (t : Tables) : Tables :=
  { t with channels := eraseIf (fun entry => entry.2.sourceId = source) t.channels }

/-- `deregister_band`. -/
def deregisterBand (source : UInt32) (t : Tables) : Tables :=
  { t with bands := eraseIf (fun entry => entry.2.sourceId = source) t.bands }

/-- `reader_->disjoin`. -/
def disjoin (location : UInt32) (t : Tables) : Tables :=
  { t with joins := eraseIf (fun entry => entry.1.location = location) t.joins }

def eraseWriter (dest : UInt32) (t : Tables) : Tables :=
  { t with writers := t.writers.filter (· ≠ dest) }

/-- The timer tasks of an application. -/
def tasksOf (uid : UInt32) (t : Tables) : AList fun _ : Int32 => TimerTask :=
  (t.timerTasks.lookup uid).getD ∅

def setTasks (uid : UInt32) (tasks : AList fun _ : Int32 => TimerTask) (t : Tables) : Tables :=
  { t with timerTasks := t.timerTasks.insert uid tasks }

/-- `deregister_app`, as far as the tables are concerned. -/
def deregisterApp (uid : UInt32) (t : Tables) : Tables :=
  let t := ((t.deregisterChannel uid).deregisterBand uid).disjoin uid
  { t.eraseWriter uid with
    registry := t.registry.erase uid
    timerTasks := t.timerTasks.erase uid }

/-- `check_location_exists`. -/
def CheckLocationExists (source dest : UInt32) (t : Tables) : Prop :=
  source ∈ t.locations ∧ (dest = PUBLIC ∨ dest = SYNC ∨ dest ∈ t.locations)

/-- `check_location_live`. -/
def CheckLocationLive (source dest : UInt32) (t : Tables) : Prop :=
  t.CheckLocationExists source dest ∧ source ∈ t.registry ∧ dest ∈ t.registry

/-- `has_channel`. -/
def HasChannel (source dest : UInt32) (t : Tables) : Prop :=
  makeSourceDestHash source dest ∈ t.channels

variable (t : Tables) (source dest : UInt32)

instance : Decidable (t.CheckLocationExists source dest) := inferInstanceAs (Decidable (_ ∧ _))

instance : Decidable (t.CheckLocationLive source dest) := inferInstanceAs (Decidable (_ ∧ _))

instance : Decidable (t.HasChannel source dest) := inferInstanceAs (Decidable (_ ∈ _))

end Tables

structure Master extends Tables where
  builder : SessionBuilder
  written : List Written

namespace Master

/-- The tables are changed. -/
def change (f : Tables → Tables) (m : Master) : Master := { m with toTables := f m.toTables }

/-- `get_location`. -/
def getLocation (uid : UInt32) (m : Master) : Except Fault Location :=
  match m.locations.lookup uid with
  | none => .error (.noLocation uid)
  | some location => .ok location

/-- A frame is written by the writer of the given key. -/
def write (dest : UInt32) (triggerTime : Int64) (message : Message) (m : Master) :
    Except Fault Master :=
  if dest ∈ m.writers then
    .ok { m with written := m.written ++ [⟨dest, triggerTime, message⟩] }
  else .error (.noWriter dest)

/-- Frames are written one after another. -/
def writeAll (dest : UInt32) (triggerTime : Int64) (messages : List Message) (m : Master) :
    Except Fault Master :=
  messages.foldlM (fun m message => m.write dest triggerTime message) m

/-- `require_write_to`. -/
def requireWriteTo (triggerTime : Int64) (source dest : UInt32) (m : Master) :
    Except Fault Master :=
  if m.CheckLocationExists source dest then m.write source triggerTime (.requestWriteTo dest)
  else .ok m

/-- `do_require_read_from`, for `require_read_from` and its siblings. -/
def doRequireReadFrom (message : UInt32 → Int64 → Message) (triggerTime : Int64)
    (dest source : UInt32) (fromTime : Int64) (m : Master) : Except Fault Master :=
  if dest ∉ m.writers then .error (.noWriter dest)
  else if m.CheckLocationExists source dest then m.write dest triggerTime (message source fromTime)
  else .ok m

def writeTimeReset (clock : Clock) (dest : UInt32) (m : Master) : Except Fault Master :=
  m.write dest 0 (.timeReset clock.systemClockCount clock.steadyClockCount)

def writeTradingDay (clock : Clock) (dest : UInt32) (m : Master) : Except Fault Master :=
  m.write dest 0 (.tradingDay clock.tradingDay)

def writeLocations (triggerTime : Int64) (dest : UInt32) (m : Master) : Except Fault Master :=
  m.writeAll dest triggerTime (m.locations.entries.map fun entry => .location entry.2)

def writeRegistries (triggerTime : Int64) (dest : UInt32) (m : Master) : Except Fault Master :=
  m.writeAll dest triggerTime (m.registry.entries.map fun entry => .register entry.2)

def writeChannels (triggerTime : Int64) (dest : UInt32) (m : Master) : Except Fault Master :=
  m.writeAll dest triggerTime (m.channels.entries.map fun entry => .channel entry.2)

def writeBands (triggerTime : Int64) (dest : UInt32) (m : Master) : Except Fault Master :=
  m.writeAll dest triggerTime (m.bands.entries.map fun entry => .band entry.2)

/-! ## Registration -/

/-- The tables after a registration. -/
def enroll (clock : Clock) (register : Register) (t : Tables) : Tables :=
  let uid := register.location.uid
  let cmd := masterCmdLocation uid
  let t := (t.addLocation register.location).addLocation cmd
  let t := (t.registerLocation register).emplaceWriter uid
  ((t.join uid PUBLIC clock.now).join uid SYNC clock.now).join uid cmd.uid clock.now

/-- What is written when an application registers. -/
def announceApp (genTime : Int64) (clock : Clock) (register : Register) (m : Master) :
    Except Fault Master := do
  let app := register.location
  let m ← m.write app.uid genTime (.mark .SessionStart)
  let m ← m.write PUBLIC genTime (.location app)
  let m ← m.write PUBLIC genTime (.register register)
  let m ← m.requireWriteTo genTime app.uid PUBLIC
  let m ← m.requireWriteTo genTime app.uid SYNC
  let m ← m.requireWriteTo genTime app.uid (masterCmdLocation app.uid).uid
  let m ← m.writeTimeReset clock app.uid
  let m ← m.writeTradingDay clock app.uid
  let m ← m.writeLocations genTime app.uid
  m.writeRegistries genTime app.uid

/-- `register_app`, up to `on_register`. -/
def registerApp (genTime : Int64) (clock : Clock) (register : Register) (m : Master) :
    Except Fault Master :=
  let app := register.location
  if app.uid ∈ m.registry then .ok m
  else
    let register := { register with
      lastActiveTime := m.builder.sessions.findLastActiveTime app.uid }
    announceApp genTime clock register { m with
      toTables := enroll clock register m.toTables
      builder := m.builder.openSession app genTime }

/-- `deregister_app`. -/
def deregisterApp (triggerTime : Int64) (uid : UInt32) (m : Master) : Except Fault Master := do
  let location ← m.getLocation uid
  let m := { m with builder := m.builder.closeSession location.uid triggerTime }
  let m ← m.write uid triggerTime (.mark .SessionEnd)
  let m := m.change (Tables.deregisterApp uid)
  m.write PUBLIC triggerTime (.deregister location)

/-! ## Requests -/

/-- A channel is recorded and broadcast. -/
def announceChannel (triggerTime : Int64) (channel : Channel) (m : Master) :
    Except Fault Master :=
  (m.change (Tables.registerChannel channel)).write PUBLIC triggerTime (.channel channel)

/-- A live receiver is told to read a channel. -/
def requireLiveReadFrom (triggerTime : Int64) (dest source : UInt32) (m : Master) :
    Except Fault Master :=
  if dest ∈ m.registry ∧ dest ∈ m.writers then
    m.doRequireReadFrom .requestReadFrom 0 dest source triggerTime
  else .ok m

def onRequestWriteTo (triggerTime : Int64) (appUid destId : UInt32) (m : Master) :
    Except Fault Master :=
  if appUid ∉ m.registry then .ok m
  else do
    let app ← m.getLocation appUid
    let m := m.change (Tables.join app.uid destId triggerTime)
    let m ← m.requireWriteTo triggerTime appUid destId
    let m ← m.requireLiveReadFrom triggerTime destId appUid
    m.announceChannel triggerTime ⟨appUid, destId⟩

def onRequestWriteToBand (triggerTime : Int64) (clock : Clock) (appUid : UInt32) (target : Location)
    (m : Master) : Except Fault Master := do
  let m := m.change (Tables.addLocation target)
  let m ← m.write PUBLIC clock.now (.location target)
  let app ← m.getLocation appUid
  let m := m.change (Tables.join app.uid target.uid triggerTime)
  let m ← m.write appUid triggerTime (.requestWriteToBand target)
  let band : Band := ⟨appUid, target.uid⟩
  (m.change (Tables.registerBand band)).write PUBLIC triggerTime (.band band)

def onRequestReadFrom (triggerTime : Int64) (appUid sourceId : UInt32) (fromTime : Int64)
    (m : Master) : Except Fault Master :=
  if ¬ m.CheckLocationLive sourceId appUid then .ok m
  else do
    let source ← m.getLocation sourceId
    let m := m.change (Tables.join source.uid appUid triggerTime)
    let m ← m.requireWriteTo triggerTime sourceId appUid
    let m ← m.doRequireReadFrom .requestReadFrom triggerTime appUid sourceId fromTime
    m.announceChannel triggerTime ⟨sourceId, appUid⟩

/-- `check_cached_ready_to_read`. -/
def checkCachedReadyToRead (clock : Clock) (appUid sourceId : UInt32) (m : Master) :
    Except Fault Master :=
  if sourceId = (makeLocation .LIVE .SYSTEM "service" "cached").uid ∧ appUid ∈ m.writers then
    m.write appUid clock.now (.mark .CachedReadyToRead)
  else .ok m

def onRequestCachedDone (triggerTime : Int64) (clock : Clock) (destId : UInt32) (m : Master) :
    Except Fault Master :=
  if destId ∉ m.writers then .ok m
  else do
    let m ← m.write destId clock.now (.mark .RequestStart)
    let m ← m.writeLocations triggerTime destId
    let m ← m.writeRegistries triggerTime destId
    let m ← m.writeChannels triggerTime destId
    m.writeBands triggerTime destId

def onChannelRequest (triggerTime : Int64) (channel : Channel) (m : Master) :
    Except Fault Master :=
  if channel.sourceId ∈ m.registry ∧ ¬ m.HasChannel channel.sourceId channel.destId then do
    let source ← m.getLocation channel.sourceId
    let m := m.change (Tables.join source.uid channel.destId triggerTime)
    let m ← m.requireWriteTo triggerTime channel.sourceId channel.destId
    m.announceChannel triggerTime channel
  else .ok m

def onTimeRequest (clock : Clock) (source : UInt32) (request : TimeRequest) (m : Master) : Master :=
  m.change fun t => t.setTasks source ((t.tasksOf source).insert request.id {
    checkpoint := clock.now + request.duration
    duration := request.duration
    repeatLimit := request.repeat
    repeatCount := 0 })

def onNewLocation (triggerTime : Int64) (location : Location) (m : Master) : Except Fault Master :=
  (m.change (Tables.addLocation location)).write PUBLIC triggerTime (.location location)

/-! ## Timers -/

/-- A task that is due is told to the application, and is over when it was often enough. -/
def handleTimerTask (now : Int64) (uid : UInt32) (m : Master) (id : Int32) : Except Fault Master :=
  match (m.tasksOf uid).lookup id with
  | none => .ok m
  | some task =>
      if task.checkpoint ≤ now then do
        let m ← m.write uid 0 (.mark .Time)
        let task := { task with
          checkpoint := task.checkpoint + task.duration
          repeatCount := task.repeatCount + 1 }
        if task.repeatLimit ≤ task.repeatCount then
          .ok (m.change fun t => t.setTasks uid ((t.tasksOf uid).erase id))
        else .ok (m.change fun t => t.setTasks uid ((t.tasksOf uid).insert id task))
      else .ok m

def handleTimerTasks (now : Int64) (m : Master) : Except Fault Master :=
  m.timerTasks.keys.foldlM
    (fun m uid => (m.tasksOf uid).keys.foldlM (handleTimerTask now uid) m) m

/-! ## Runs -/

inductive Event
  | requestWriteTo (destId : UInt32)
  | requestWriteToBand (target : Location)
  | requestReadFrom (sourceId : UInt32) (fromTime : Int64)
  | requestReadFromPublic (sourceId : UInt32) (fromTime : Int64)
  | requestReadFromSync (sourceId : UInt32) (fromTime : Int64)
  | channelRequest (channel : Channel)
  | timeRequest (request : TimeRequest)
  | location (location : Location)
  | requestCachedDone (destId : UInt32)
  | other

/-- The handlers of an event, as `react` installs them. -/
def react (source : UInt32) (genTime : Int64) (clock : Clock) (m : Master) :
    Event → Except Fault Master
  | .requestWriteTo destId => m.onRequestWriteTo genTime source destId
  | .requestWriteToBand target => m.onRequestWriteToBand genTime clock source target
  | .requestReadFrom sourceId fromTime => do
      let m ← m.onRequestReadFrom genTime source sourceId fromTime
      m.checkCachedReadyToRead clock source sourceId
  | .requestReadFromPublic sourceId fromTime =>
      m.doRequireReadFrom .requestReadFromPublic genTime source sourceId fromTime
  | .requestReadFromSync sourceId fromTime =>
      m.doRequireReadFrom .requestReadFromSync genTime source sourceId fromTime
  | .channelRequest channel => m.onChannelRequest genTime channel
  | .timeRequest request => .ok (m.onTimeRequest clock source request)
  | .location location => m.onNewLocation genTime location
  | .requestCachedDone destId => m.onRequestCachedDone genTime clock destId
  | .other => .ok m

/-- `feed`. -/
def feed (source : UInt32) (genTime : Int64) (frameLength : UInt32) (clock : Clock) (m : Master) :
    Except Fault Master := do
  let m ← m.handleTimerTasks clock.now
  if source ∉ m.registry then .ok m
  else .ok { m with builder := m.builder.updateSession source genTime frameLength }

inductive Step
  | register (genTime : Int64) (clock : Clock) (register : Register)
  | frame (source : UInt32) (genTime : Int64) (frameLength : UInt32) (clock : Clock) (event : Event)
  | deregister (triggerTime : Int64) (uid : UInt32)
  /-- `on_active` and `on_frame`. -/
  | active (clock : Clock)
  | publishTimeReset (clock : Clock)
  | publishTradingDay (clock : Clock)

def step (m : Master) : Step → Except Fault Master
  | .register genTime clock register => m.registerApp genTime clock register
  | .frame source genTime frameLength clock event => do
      let m ← m.react source genTime clock event
      m.feed source genTime frameLength clock
  | .deregister triggerTime uid => m.deregisterApp triggerTime uid
  | .active clock => m.handleTimerTasks clock.now
  | .publishTimeReset clock => m.writeTimeReset clock PUBLIC
  | .publishTradingDay clock => m.writeTradingDay clock PUBLIC

abbrev run (m : Master) (steps : List Step) : Except Fault Master := steps.foldlM step m

/-- The master as it starts, with the locations that are stored in its profile. -/
def start (stored : List Location) (builder : SessionBuilder) : Master where
  locations := stored.foldl (fun table location => Table.tryEmplace location.uid location table) ∅
  registry := ∅
  writers := [PUBLIC]
  joins := ∅
  channels := ∅
  bands := ∅
  timerTasks := ∅
  builder := builder
  written := []

end Master

end Kungfu.Practice
