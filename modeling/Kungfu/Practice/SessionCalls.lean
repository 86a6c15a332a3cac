import Mathlib.Data.List.Dedup
import Kungfu.Practice.Deregister
import Kungfu.Practice.Rebuild

/-!
# What the master asks of its session builder

While it runs the master opens, updates and closes sessions, and it marks where a session starts
and ends.  On its exit it closes all sessions, those that are over as well, and marks them again.
-/

namespace Kungfu.Practice

open Longfist Yijinjing Index Outcome

/-! ## Calls -/

/-- A call of the session builder. -/
inductive SessionCall
  | openSession (location : Location) (time : Int64)
  | closeSession (uid : UInt32) (time : Int64)
  | updateSession (source : UInt32) (genTime : Int64) (frameLength : UInt32)
  | closeAllSessions (time : Int64)
  deriving DecidableEq, Repr

namespace SessionCall

/-- What the builder does. -/
def run (b : SessionBuilder) : SessionCall → SessionBuilder
  | openSession location time => b.openSession location time
  | closeSession uid time => b.closeSession uid time
  | updateSession source genTime frameLength => b.updateSession source genTime frameLength
  | closeAllSessions time => b.closeAllSessions time

/-- A frame of the live session is counted, and the session is stored. -/
def countFrame (source : UInt32) (genTime : Int64) (frameLength : UInt32) (b : SessionBuilder) :
    SessionBuilder :=
  match b.live source with
  | none => b
  | some session => b.put source { session with
      updateTime := genTime
      frameCount := session.frameCount + 1
      dataSize := session.dataSize + frameLength.toUInt64 }

/-- What the call says: a session that is opened has no frames yet, and every change is kept. -/
def describe (b : SessionBuilder) : SessionCall → SessionBuilder
  | openSession location time =>
      b.put location.uid { Index.Session.ofLocation location with
        beginTime := time, updateTime := time }
  | closeSession uid time => b.closeSession uid time
  | updateSession source genTime frameLength => countFrame source genTime frameLength b
  | closeAllSessions time => b.closeAllSessions time

/-- The builder that calls describe. -/
def describeAll (calls : List SessionCall) : SessionBuilder := calls.foldl describe noSessions

/-- The location whose session is opened. -/
def opened? : SessionCall → Option UInt32
  | openSession location _ => some location.uid
  | closeSession _ _ | updateSession _ _ _ | closeAllSessions _ => none

/-- The locations whose sessions calls have opened. -/
def opened (calls : List SessionCall) : List UInt32 := (calls.filterMap opened?).dedup

end SessionCall

/-- The sessions that calls describe. -/
def described (calls : List SessionCall) : Sessions := (SessionCall.describeAll calls).sessions

namespace Master

variable {m m' m'' : Master}

/-- The calls of a step. -/
def calls (m : Master) : Step → List SessionCall
  | .register genTime _ register =>
      if register.location.uid ∈ m.registry then [] else [.openSession register.location genTime]
  | .deregister triggerTime uid => [.closeSession uid triggerTime]
  | .frame source genTime frameLength _ _ =>
      if source ∈ m.registry then [.updateSession source genTime frameLength] else []
  | .active _ | .publishTimeReset _ | .publishTradingDay _ => []

/-- The marks of sessions that a step writes, before it writes anything else. -/
def sessionMarks (m : Master) : Step → List Written
  | .register genTime _ register =>
      if register.location.uid ∈ m.registry then []
      else [⟨register.location.uid, genTime, .mark .SessionStart⟩]
  | .deregister triggerTime uid => [⟨uid, triggerTime, .mark .SessionEnd⟩]
  | .frame _ _ _ _ _ | .active _ | .publishTimeReset _ | .publishTradingDay _ => []

end Master

/-- A session starts or ends. -/
def Message.IsSessionMark (message : Message) : Prop :=
  message = .mark .SessionStart ∨ message = .mark .SessionEnd

namespace Master

variable {m m' m'' : Master}

/-- No session is touched, and none is marked. -/
structure Silent (m m' : Master) : Prop where
  builder : m'.builder = m.builder
  registry : m'.registry = m.registry
  written : ∃ more, m'.written = m.written ++ more ∧ ∀ w ∈ more, ¬ w.message.IsSessionMark

theorem Silent.refl (m : Master) : m.Silent m := ⟨rfl, rfl, [], by simp, by simp⟩

theorem Silent.trans (h : m.Silent m') (h' : m'.Silent m'') : m.Silent m'' := by
  obtain ⟨hbuilder, hregistry, more, hwritten, hmore⟩ := h
  obtain ⟨hbuilder', hregistry', more', hwritten', hmore'⟩ := h'
  refine ⟨hbuilder'.trans hbuilder, hregistry'.trans hregistry, more ++ more', ?_, ?_⟩
  · rw [hwritten', hwritten, List.append_assoc]
  · intro w hw
    rcases List.mem_append.mp hw with hw | hw
    · exact hmore w hw
    · exact hmore' w hw

/-- The tables are changed, but for the registry. -/
theorem silent_change {f : Tables → Tables} (h : (f m.toTables).registry = m.registry) :
    m.Silent (m.change f) :=
  ⟨rfl, h, [], by simp [change], by simp⟩

theorem silent_write (m : Master) (dest : UInt32) (triggerTime : Int64) {message : Message}
    (h : ¬ message.IsSessionMark) :
    Post (m.write dest triggerTime message) m.Silent fun _ => True :=
  post_ite (fun _ => ⟨rfl, rfl, _, rfl, by simpa using h⟩) fun _ => trivial

theorem silent_bind {ε : Type} {x : Except ε Master} {f : Master → Except ε Master}
    (hx : Post x m.Silent fun _ => True)
    (hf : ∀ m', m.Silent m' → Post (f m') m'.Silent fun _ => True) :
    Post (x >>= f) m.Silent fun _ => True :=
  hx.bind fun m' hm' => (hf m' hm').imp fun _ => hm'.trans

theorem silent_getLocation_bind {uid : UInt32} {f : Location → Except Fault Master}
    (hf : ∀ location, Post (f location) m.Silent fun _ => True) :
    Post (m.getLocation uid >>= f) m.Silent fun _ => True := by
  have hlocation : Post (m.getLocation uid) (fun _ => True) fun _ => True :=
    Post.of_forall_ok fun _ _ => trivial
  exact hlocation.bind fun location _ => hf location

theorem silent_writeAll (m : Master) (dest : UInt32) (triggerTime : Int64)
    {messages : List Message} (h : ∀ message ∈ messages, ¬ message.IsSessionMark) :
    Post (m.writeAll dest triggerTime messages) m.Silent fun _ => True := by
  apply post_foldlM (Silent.refl m)
  intro m' message hmessage hm'
  exact (silent_write m' dest triggerTime (h message hmessage)).imp fun _ => hm'.trans

/-- The entries of a table are told. -/
theorem silent_writeEntries {ι : Type} (m : Master) (dest : UInt32) (triggerTime : Int64)
    {entries : List ι} {message : ι → Message}
    (h : ∀ i, ¬ (message i).IsSessionMark) :
    Post (m.writeAll dest triggerTime (entries.map message)) m.Silent fun _ => True := by
  apply silent_writeAll
  intro message' hmessage
  obtain ⟨i, -, rfl⟩ := List.mem_map.mp hmessage
  exact h i

theorem silent_requireWriteTo (m : Master) (triggerTime : Int64) (source dest : UInt32) :
    Post (m.requireWriteTo triggerTime source dest) m.Silent fun _ => True :=
  post_ite (fun _ => silent_write _ _ _ (by simp [Message.IsSessionMark])) fun _ => Silent.refl m

theorem silent_doRequireReadFrom (m : Master) {message : UInt32 → Int64 → Message}
    (triggerTime : Int64) (dest source : UInt32) (fromTime : Int64)
    (h : ∀ source fromTime, ¬ (message source fromTime).IsSessionMark) :
    Post (m.doRequireReadFrom message triggerTime dest source fromTime) m.Silent fun _ => True :=
  post_ite (fun _ => trivial) fun _ =>
    post_ite (fun _ => silent_write _ _ _ (h source fromTime)) fun _ => Silent.refl m

theorem silent_requireLiveReadFrom (m : Master) (triggerTime : Int64) (dest source : UInt32) :
    Post (m.requireLiveReadFrom triggerTime dest source) m.Silent fun _ => True :=
  post_ite (fun _ => silent_doRequireReadFrom _ _ _ _ _ (by simp [Message.IsSessionMark]))
    fun _ => Silent.refl m

theorem silent_changed {f : Tables → Tables} {x : Except Fault Master}
    (hf : (f m.toTables).registry = m.registry)
    (hx : Post x (m.change f).Silent fun _ => True) : Post x m.Silent fun _ => True :=
  hx.imp fun _ => (silent_change hf).trans

theorem silent_announceChannel (m : Master) (triggerTime : Int64) (channel : Channel) :
    Post (m.announceChannel triggerTime channel) m.Silent fun _ => True :=
  silent_changed rfl (silent_write _ _ _ (by simp [Message.IsSessionMark]))

theorem silent_onRequestWriteTo (m : Master) (triggerTime : Int64) (appUid destId : UInt32) :
    Post (m.onRequestWriteTo triggerTime appUid destId) m.Silent fun _ => True := by
  apply post_ite
  · intro _
    exact Silent.refl m
  · intro _
    apply silent_getLocation_bind
    intro app
    apply silent_changed (f := Tables.join app.uid destId triggerTime) rfl
    apply silent_bind (silent_requireWriteTo ..)
    intro m₁ _
    apply silent_bind (silent_requireLiveReadFrom ..)
    intro m₂ _
    exact silent_announceChannel ..

theorem silent_onRequestReadFrom (m : Master) (triggerTime : Int64) (appUid sourceId : UInt32)
    (fromTime : Int64) :
    Post (m.onRequestReadFrom triggerTime appUid sourceId fromTime) m.Silent fun _ => True := by
  apply post_ite
  · intro _
    exact Silent.refl m
  · intro _
    apply silent_getLocation_bind
    intro source
    apply silent_changed (f := Tables.join source.uid appUid triggerTime) rfl
    apply silent_bind (silent_requireWriteTo ..)
    intro m₁ _
    apply silent_bind (silent_doRequireReadFrom _ _ _ _ _ (by simp [Message.IsSessionMark]))
    intro m₂ _
    exact silent_announceChannel ..

theorem silent_onChannelRequest (m : Master) (triggerTime : Int64) (channel : Channel) :
    Post (m.onChannelRequest triggerTime channel) m.Silent fun _ => True := by
  apply post_ite
  · intro _
    apply silent_getLocation_bind
    intro source
    apply silent_changed (f := Tables.join source.uid channel.destId triggerTime) rfl
    apply silent_bind (silent_requireWriteTo ..)
    intro m₁ _
    exact silent_announceChannel ..
  · intro _
    exact Silent.refl m

theorem silent_onRequestWriteToBand (m : Master) (triggerTime : Int64) (clock : Clock)
    (appUid : UInt32) (target : Location) :
    Post (m.onRequestWriteToBand triggerTime clock appUid target) m.Silent fun _ => True := by
  unfold onRequestWriteToBand
  apply silent_changed (f := Tables.addLocation target) rfl
  apply silent_bind (silent_write _ _ _ (by simp [Message.IsSessionMark]))
  intro m₁ _
  apply silent_getLocation_bind
  intro app
  apply silent_changed (f := Tables.join app.uid target.uid triggerTime) rfl
  apply silent_bind (silent_write _ _ _ (by simp [Message.IsSessionMark]))
  intro m₂ _
  apply silent_changed (f := Tables.registerBand ⟨appUid, target.uid⟩) rfl
  exact silent_write _ _ _ (by simp [Message.IsSessionMark])

theorem silent_checkCachedReadyToRead (m : Master) (clock : Clock) (appUid sourceId : UInt32) :
    Post (m.checkCachedReadyToRead clock appUid sourceId) m.Silent fun _ => True :=
  post_ite (fun _ => silent_write _ _ _ (by simp [Message.IsSessionMark])) fun _ => Silent.refl m

theorem silent_onRequestCachedDone (m : Master) (triggerTime : Int64) (clock : Clock)
    (destId : UInt32) :
    Post (m.onRequestCachedDone triggerTime clock destId) m.Silent fun _ => True := by
  apply post_ite
  · intro _
    exact Silent.refl m
  · intro _
    apply silent_bind (silent_write _ _ _ (by simp [Message.IsSessionMark]))
    intro m₁ _
    apply silent_bind (silent_writeEntries _ _ _ (by simp [Message.IsSessionMark]))
    intro m₂ _
    apply silent_bind (silent_writeEntries _ _ _ (by simp [Message.IsSessionMark]))
    intro m₃ _
    apply silent_bind (silent_writeEntries _ _ _ (by simp [Message.IsSessionMark]))
    intro m₄ _
    exact silent_writeEntries _ _ _ (by simp [Message.IsSessionMark])

theorem silent_handleTimerTasks (m : Master) (now : Int64) :
    Post (m.handleTimerTasks now) m.Silent fun _ => True := by
  have htask : ∀ (m : Master) uid id,
      Post (handleTimerTask now uid m id) m.Silent fun _ => True := by
    intro m uid id
    unfold handleTimerTask
    cases (m.tasksOf uid).lookup id with
    | none => exact Silent.refl m
    | some task =>
      apply post_ite
      · intro _
        apply silent_bind (silent_write m uid 0 (by simp [Message.IsSessionMark]))
        intro m₁ _
        exact post_ite (fun _ => silent_change rfl) fun _ => silent_change rfl
      · intro _
        exact Silent.refl m
  apply post_foldlM (Silent.refl m)
  intro m₁ uid _ hm₁
  apply post_foldlM hm₁
  intro m₂ id _ hm₂
  exact (htask m₂ uid id).imp fun _ => hm₂.trans

theorem silent_react (m : Master) (source : UInt32) (genTime : Int64) (clock : Clock)
    (event : Event) : Post (m.react source genTime clock event) m.Silent fun _ => True := by
  cases event with
  | requestWriteTo destId => exact silent_onRequestWriteTo ..
  | requestWriteToBand target => exact silent_onRequestWriteToBand ..
  | requestReadFrom sourceId fromTime =>
    apply silent_bind (silent_onRequestReadFrom ..)
    intro m₁ _
    exact silent_checkCachedReadyToRead ..
  | requestReadFromPublic sourceId fromTime =>
    exact silent_doRequireReadFrom _ _ _ _ _ (by simp [Message.IsSessionMark])
  | requestReadFromSync sourceId fromTime =>
    exact silent_doRequireReadFrom _ _ _ _ _ (by simp [Message.IsSessionMark])
  | channelRequest channel => exact silent_onChannelRequest ..
  | timeRequest request => exact silent_change rfl
  | location location =>
    exact silent_changed (f := Tables.addLocation location) rfl
      (silent_write _ _ _ (by simp [Message.IsSessionMark]))
  | requestCachedDone destId => exact silent_onRequestCachedDone ..
  | other => exact Silent.refl m

/-! ### Steps -/

/-- The calls of a step are made, and its marks are written first. -/
structure Does (m : Master) (s : Step) (m' : Master) : Prop where
  builder : m'.builder = (m.calls s).foldl SessionCall.run m.builder
  written : ∃ more, m'.written = m.written ++ (m.sessionMarks s ++ more) ∧
    ∀ w ∈ more, ¬ w.message.IsSessionMark

theorem Silent.does {s : Step} (h : m.Silent m') (hcalls : m.calls s = [])
    (hmarks : m.sessionMarks s = []) : m.Does s m' := by
  obtain ⟨hbuilder, -, hwritten⟩ := h
  exact ⟨by rw [hbuilder, hcalls]; rfl, by rwa [hmarks]⟩

/-- The master after it has written a frame. -/
def record (w : Written) (m : Master) : Master := { m with written := m.written ++ [w] }

theorem post_write_eq (m : Master) (dest : UInt32) (triggerTime : Int64) (message : Message) :
    Post (m.write dest triggerTime message) (· = m.record ⟨dest, triggerTime, message⟩)
      fun _ => True :=
  post_ite (fun _ => rfl) fun _ => trivial

/-- The announcement of an application begins with the mark of its session. -/
theorem post_announceApp_silent (m : Master) (genTime : Int64) (clock : Clock)
    (register : Register) : Post (m.announceApp genTime clock register)
      (m.record ⟨register.location.uid, genTime, .mark .SessionStart⟩).Silent fun _ => True := by
  unfold announceApp
  apply (post_write_eq ..).bind
  rintro _ rfl
  apply silent_bind (silent_write _ _ _ (by simp [Message.IsSessionMark]))
  intro m₁ _
  apply silent_bind (silent_write _ _ _ (by simp [Message.IsSessionMark]))
  intro m₂ _
  apply silent_bind (silent_requireWriteTo ..)
  intro m₃ _
  apply silent_bind (silent_requireWriteTo ..)
  intro m₄ _
  apply silent_bind (silent_requireWriteTo ..)
  intro m₅ _
  apply silent_bind (silent_write _ _ _ (by simp [Message.IsSessionMark]))
  intro m₆ _
  apply silent_bind (silent_write _ _ _ (by simp [Message.IsSessionMark]))
  intro m₇ _
  apply silent_bind (silent_writeEntries _ _ _ (by simp [Message.IsSessionMark]))
  intro m₈ _
  exact silent_writeEntries _ _ _ (by simp [Message.IsSessionMark])

theorem does_registerApp (m : Master) (genTime : Int64) (clock : Clock) (register : Register) :
    Post (m.registerApp genTime clock register) (m.Does (.register genTime clock register))
      fun _ => True := by
  apply post_ite
  · intro hregistered
    exact (Silent.refl m).does (if_pos hregistered) (if_pos hregistered)
  · intro hregistered
    apply (post_announceApp_silent ..).imp
    rintro m' ⟨hbuilder, -, more, hwritten, hmore⟩
    refine ⟨?_, more, ?_, hmore⟩
    · rw [hbuilder, calls, if_neg hregistered]
      rfl
    · rw [hwritten, sessionMarks, if_neg hregistered, ← List.append_assoc]
      rfl

theorem does_deregisterApp (hm : m.Consistent) (triggerTime : Int64) (uid : UInt32) :
    Post (m.deregisterApp triggerTime uid) (m.Does (.deregister triggerTime uid))
      fun _ => True := by
  unfold deregisterApp
  apply ((post_getLocation m uid).mono (fun _ => id) fun _ _ => trivial).bind
  intro location hlocation
  apply (post_write_eq ..).bind
  rintro _ rfl
  apply (silent_write _ _ _ (by simp [Message.IsSessionMark])).imp
  rintro m' ⟨hbuilder, -, more, hwritten, hmore⟩
  refine ⟨?_, more, ?_, hmore⟩
  · rw [hbuilder, calls, ← hlocation hm]
    rfl
  · rw [hwritten, ← List.append_assoc]
    rfl

theorem does_step (hm : m.Consistent) (s : Step) : Post (m.step s) (m.Does s) fun _ => True := by
  cases s with
  | register genTime clock register => exact does_registerApp ..
  | deregister triggerTime uid => exact does_deregisterApp hm ..
  | frame source genTime frameLength clock event =>
    apply (silent_react ..).bind
    intro m₁ hm₁
    apply (silent_handleTimerTasks ..).bind
    intro m₂ hm₂
    have hsilent := hm₁.trans hm₂
    apply post_ite
    · intro hsource
      rw [hsilent.registry] at hsource
      exact hsilent.does (if_neg hsource) rfl
    · intro hsource
      rw [hsilent.registry, not_not] at hsource
      obtain ⟨hbuilder, -, hwritten⟩ := hsilent
      refine ⟨?_, hwritten⟩
      rw [hbuilder, calls, if_pos hsource]
      rfl
  | active clock => exact (silent_handleTimerTasks ..).imp fun _ h => h.does rfl rfl
  | publishTimeReset clock =>
      exact (silent_write _ _ _ (by simp [Message.IsSessionMark])).imp fun _ h => h.does rfl rfl
  | publishTradingDay clock =>
      exact (silent_write _ _ _ (by simp [Message.IsSessionMark])).imp fun _ h => h.does rfl rfl

end Master
/-! ## The exit of the master -/

/-- `master_home_location_`. -/
def masterHome : Location := makeLocation .LIVE .SYSTEM "master" "master"

/-- The location of a session. -/
def locationOfSession (session : Index.Session) : Location :=
  makeLocation session.mode session.category session.group session.name

namespace Master

variable {m : Master} {dest : UInt32} {now : Int64} {order : List UInt32}

/-- `close_all_sessions`: the live sessions, in the order of the table. -/
def closeAllSessions (order : List UInt32) (now : Int64) (m : Master) :
    List Index.Session × Master :=
  let builder := m.builder.closeAllSessions now
  (order.filterMap builder.live, { m with builder })

/-- `notify_deregister_on_exit`. -/
def notifyDeregisterOnExit (order : List UInt32) (now : Int64) (m : Master) :
    Except Fault Master :=
  let (sessions, m) := m.closeAllSessions order now
  m.writeAll PUBLIC now <| (sessions.filter fun session =>
    session.locationUid ≠ masterHome.uid).map fun session =>
      .deregister (locationOfSession session)

/-- A frame for every session whose location has a writer. -/
def writeToSessions (sessions : List Index.Session) (now : Int64) (message : Message)
    (m : Master) : Except Fault Master :=
  sessions.foldlM (fun m session =>
    if session.locationUid ∈ m.writers then m.write session.locationUid now message else .ok m) m

/-- `mark_session_end_on_exit`. -/
def markSessionEndOnExit (order : List UInt32) (now : Int64) (m : Master) :
    Except Fault Master := do
  let m ← m.write PUBLIC now (.mark .SessionEnd)
  let (sessions, m) := m.closeAllSessions order now
  m.writeToSessions sessions now (.mark .SessionEnd)

/-- `notify_master_deregister_on_exit`. -/
def notifyMasterDeregisterOnExit (order : List UInt32) (now : Int64) (m : Master) :
    Except Fault Master :=
  let (sessions, m) := m.closeAllSessions order now
  m.writeToSessions sessions now (.deregister masterHome)

/-- `on_exit`, with the times that the three read. -/
def onExit (order : List UInt32) (now now' now'' : Int64) (m : Master) : Except Fault Master := do
  let m ← m.notifyDeregisterOnExit order now
  let m ← m.markSessionEndOnExit order now'
  m.notifyMasterDeregisterOnExit order now''

/-- The locations of the live sessions. -/
def liveUids (order : List UInt32) (m : Master) : List UInt32 :=
  (order.filterMap m.builder.live).map Index.Session.locationUid

/-- The frames for the sessions whose locations have a writer. -/
def framesTo (uids : List UInt32) (now : Int64) (message : Message) (m : Master) : List Written :=
  (uids.filter (· ∈ m.writers)).map fun uid => ⟨uid, now, message⟩

theorem writeAll_eq (h : dest ∈ m.writers) (messages : List Message) :
    m.writeAll dest now messages =
      .ok { m with written := m.written ++ messages.map (Written.mk dest now) } := by
  induction messages generalizing m with
  | nil => simp [writeAll, pure, Except.pure]
  | cons message messages ih =>
    have hrest := @ih { m with written := m.written ++ [⟨dest, now, message⟩] } h
    rw [writeAll] at hrest
    rw [writeAll, List.foldlM_cons, write, if_pos h, ok_bind, hrest]
    simp

theorem writeToSessions_eq (sessions : List Index.Session) (message : Message) :
    m.writeToSessions sessions now message = .ok { m with
      written :=
        m.written ++ m.framesTo (sessions.map Index.Session.locationUid) now message } := by
  induction sessions generalizing m with
  | nil => simp [writeToSessions, framesTo, pure, Except.pure]
  | cons session sessions ih =>
    rw [writeToSessions, List.foldlM_cons]
    by_cases hwriter : session.locationUid ∈ m.writers
    · have hrest := @ih { m with written := m.written ++ [⟨session.locationUid, now, message⟩] }
      rw [writeToSessions] at hrest
      rw [write, if_pos hwriter, if_pos hwriter, ok_bind, hrest]
      simp [framesTo, hwriter]
    · have hrest := @ih m
      rw [writeToSessions] at hrest
      rw [if_neg hwriter, ok_bind, hrest]
      simp [framesTo, hwriter]

theorem live_closeAllSessions (b : SessionBuilder) (time : Int64) (uid : UInt32) :
    (b.closeAllSessions time).live uid = (b.live uid).map (Index.Session.closed time) := by
  show (b.closeSession uid time).live uid = _
  unfold SessionBuilder.closeSession
  cases hsession : b.live uid with
  | none => exact hsession
  | some session => exact Function.update_self ..

/-- The same sessions are live when they are over. -/
theorem filterMap_closeAllSessions (b : SessionBuilder) (time : Int64) :
    order.filterMap (b.closeAllSessions time).live =
      (order.filterMap b.live).map (Index.Session.closed time) := by
  rw [List.map_filterMap]
  exact List.filterMap_congr fun uid _ => live_closeAllSessions b time uid

theorem liveUids_closeAllSessions (b : SessionBuilder) (time : Int64) :
    (order.filterMap (b.closeAllSessions time).live).map Index.Session.locationUid =
      (order.filterMap b.live).map Index.Session.locationUid := by
  rw [filterMap_closeAllSessions, List.map_map]
  rfl

/-- The applications that are told to be gone. -/
def deregistersOnExit (order : List UInt32) (m : Master) : List Message :=
  ((order.filterMap m.builder.live).filter fun session =>
    session.locationUid ≠ masterHome.uid).map fun session =>
      .deregister (locationOfSession session)

theorem notifyDeregisterOnExit_eq (h : PUBLIC ∈ m.writers) :
    m.notifyDeregisterOnExit order now = .ok { m with
      builder := m.builder.closeAllSessions now
      written := m.written ++ (m.deregistersOnExit order).map (Written.mk PUBLIC now) } := by
  have hderegisters : m.deregistersOnExit order =
      ((order.filterMap (m.builder.closeAllSessions now).live).filter fun session =>
        session.locationUid ≠ masterHome.uid).map fun session =>
          .deregister (locationOfSession session) := by
    rw [filterMap_closeAllSessions, List.filter_map, List.map_map]
    rfl
  rw [hderegisters]
  exact writeAll_eq (m := { m with builder := m.builder.closeAllSessions now }) h _

theorem markSessionEndOnExit_eq (h : PUBLIC ∈ m.writers) :
    m.markSessionEndOnExit order now = .ok { m with
      builder := m.builder.closeAllSessions now
      written := m.written ++ ⟨PUBLIC, now, .mark .SessionEnd⟩ ::
        m.framesTo (m.liveUids order) now (.mark .SessionEnd) } := by
  rw [markSessionEndOnExit, write, if_pos h, ok_bind]
  refine (writeToSessions_eq _ _).trans ?_
  simp only [framesTo, liveUids_closeAllSessions, liveUids, List.append_assoc,
    List.singleton_append]

theorem notifyMasterDeregisterOnExit_eq :
    m.notifyMasterDeregisterOnExit order now = .ok { m with
      builder := m.builder.closeAllSessions now
      written := m.written ++ m.framesTo (m.liveUids order) now (.deregister masterHome) } := by
  refine (writeToSessions_eq _ _).trans ?_
  simp only [framesTo, liveUids_closeAllSessions, liveUids]

/-- What the master writes on its exit. -/
def framesOnExit (order : List UInt32) (now now' now'' : Int64) (m : Master) : List Written :=
  (m.deregistersOnExit order).map (Written.mk PUBLIC now) ++
    ⟨PUBLIC, now', .mark .SessionEnd⟩ ::
      (m.framesTo (m.liveUids order) now' (.mark .SessionEnd) ++
        m.framesTo (m.liveUids order) now'' (.deregister masterHome))

theorem onExit_eq (h : PUBLIC ∈ m.writers) (now' now'' : Int64) :
    m.onExit order now now' now'' = .ok { m with
      builder := ((m.builder.closeAllSessions now).closeAllSessions now').closeAllSessions now''
      written := m.written ++ m.framesOnExit order now now' now'' } := by
  rw [onExit, notifyDeregisterOnExit_eq h, ok_bind, markSessionEndOnExit_eq (by exact h), ok_bind,
    notifyMasterDeregisterOnExit_eq]
  simp only [framesOnExit, framesTo, liveUids, liveUids_closeAllSessions, List.append_assoc,
    List.cons_append]

theorem mem_framesOnExit {now' now'' : Int64} {w : Written} :
    w ∈ m.framesOnExit order now now' now'' ↔
      (∃ message ∈ m.deregistersOnExit order, ⟨PUBLIC, now, message⟩ = w) ∨
        w = ⟨PUBLIC, now', .mark .SessionEnd⟩ ∨
        (∃ uid, (uid ∈ m.liveUids order ∧ uid ∈ m.writers) ∧
          ⟨uid, now', .mark .SessionEnd⟩ = w) ∨
        ∃ uid, (uid ∈ m.liveUids order ∧ uid ∈ m.writers) ∧
          ⟨uid, now'', .deregister masterHome⟩ = w := by
  simp [framesOnExit, framesTo]

/-- The only marks that are written on the exit are ends. -/
theorem message_of_mem_framesOnExit {now' now'' : Int64} {w : Written}
    (hw : w ∈ m.framesOnExit order now now' now'') (hmark : w.message.IsSessionMark) :
    w.message = .mark .SessionEnd := by
  rcases mem_framesOnExit.mp hw with ⟨message, hmessage, rfl⟩ | rfl | ⟨uid, -, rfl⟩ | ⟨uid, -, rfl⟩
  · obtain ⟨session, -, rfl⟩ := List.mem_map.mp hmessage
    simp [Message.IsSessionMark] at hmark
  · rfl
  · rfl
  · simp [Message.IsSessionMark] at hmark

/-- All sessions of the order are live. -/
theorem liveUids_eq (hm : Keyed m.builder) (h : ∀ uid ∈ order, (m.builder.live uid).isSome) :
    m.liveUids order = order := by
  rw [liveUids, List.map_filterMap]
  refine (List.filterMap_congr fun uid huid => ?_).trans List.filterMap_some
  obtain ⟨session, hsession⟩ := Option.isSome_iff_exists.mp (h uid huid)
  rw [hsession, Option.map_some, hm uid session hsession]

/-- If only the session of the master itself is live, no application is told to be gone. -/
theorem deregistersOnExit_eq_nil (hm : Keyed m.builder) (h : ∀ uid ∈ order, uid = masterHome.uid) :
    m.deregistersOnExit order = [] := by
  rw [deregistersOnExit, List.map_eq_nil_iff, List.filter_eq_nil_iff]
  intro session hsession
  obtain ⟨uid, huid, hlive⟩ := List.mem_filterMap.mp hsession
  simp [hm uid session hlive, h uid huid]

end Master
/-! ## What calls describe -/

namespace SessionCall

variable {b : SessionBuilder} {app : Location}

theorem keyed_countFrame (h : Keyed b) (source : UInt32) (genTime : Int64)
    (frameLength : UInt32) : Keyed (countFrame source genTime frameLength b) := by
  unfold countFrame
  cases hsession : b.live source with
  | none => exact h
  | some session =>
    apply h.put
    exact h source session hsession

theorem view_countFrame_of_ne (h : Keyed b) {source uid : UInt32} (hne : uid ≠ source)
    (genTime : Int64) (frameLength : UInt32) :
    view uid (countFrame source genTime frameLength b) = view uid b := by
  unfold countFrame
  cases hsession : b.live source with
  | none => rfl
  | some session =>
    refine (view_put ?_ uid).trans (if_neg hne)
    exact h source session hsession

theorem keyed_describe (h : Keyed b) (call : SessionCall) : Keyed (describe b call) := by
  cases call with
  | openSession location time => exact h.put rfl
  | closeSession uid time => exact h.closeSession uid time
  | updateSession source genTime frameLength => exact keyed_countFrame h _ _ _
  | closeAllSessions time => exact h.closeAllSessions time

theorem keyed_foldl_describe (h : Keyed b) (calls : List SessionCall) :
    Keyed (calls.foldl describe b) := by
  induction calls generalizing b with
  | nil => exact h
  | cons call calls ih => exact ih (keyed_describe h call)

/-- The session of a location is concerned. -/
def Concerns (uid : UInt32) : SessionCall → Prop
  | openSession location _ => uid = location.uid
  | closeSession uid' _ => uid = uid'
  | updateSession source _ _ => uid = source
  | closeAllSessions _ => True

theorem view_describe_of_ne (h : Keyed b) {call : SessionCall} (hne : ¬ call.Concerns app.uid) :
    view app.uid (describe b call) = view app.uid b := by
  cases call with
  | openSession location time => exact (view_put rfl app.uid).trans (if_neg hne)
  | closeSession uid time => exact (view_closeSession h uid time app.uid).trans (if_neg hne)
  | updateSession source genTime frameLength =>
    exact view_countFrame_of_ne h hne genTime frameLength
  | closeAllSessions time => exact absurd trivial hne

theorem view_foldl_describe_of_ne (h : Keyed b) {calls : List SessionCall}
    (hne : ∀ call ∈ calls, ¬ call.Concerns app.uid) :
    view app.uid (calls.foldl describe b) = view app.uid b := by
  induction calls generalizing b with
  | nil => rfl
  | cons call calls ih =>
    rw [List.foldl_cons, ih (keyed_describe h call) fun call' h' =>
        hne call' (List.mem_cons_of_mem call h'),
      view_describe_of_ne h (hne call List.mem_cons_self)]

/-- Of the three times at which all sessions are closed, the last one stays. -/
theorem view_closeAllSessions_three (h : Keyed b) (uid : UInt32) (time time' time'' : Int64) :
    view uid ([closeAllSessions time, closeAllSessions time', closeAllSessions time''].foldl
      describe b) = (view uid b).closeSession time'' := by
  simp only [List.foldl_cons, List.foldl_nil, describe]
  rw [view_closeAllSessions ((h.closeAllSessions time).closeAllSessions time'),
    view_closeAllSessions (h.closeAllSessions time), view_closeAllSessions h,
    Ledger.closeSession_closeSession, Ledger.closeSession_closeSession]

/-- Unless a session of the location is opened, it has none. -/
theorem view_foldl_describe_of_unopened (h : Keyed b) (hempty : view app.uid b = .empty)
    {calls : List SessionCall}
    (hopened : ∀ location time, openSession location time ∈ calls → location.uid ≠ app.uid) :
    view app.uid (calls.foldl describe b) = .empty := by
  induction calls generalizing b with
  | nil => exact hempty
  | cons call calls ih =>
    apply ih (keyed_describe h call) _ fun location time hmem =>
      hopened location time (List.mem_cons_of_mem call hmem)
    by_cases huid : call.Concerns app.uid
    · have hlive : b.live app.uid = none := congrArg Ledger.live hempty
      cases call with
      | openSession location time =>
        exact absurd (Eq.symm huid) (hopened location time List.mem_cons_self)
      | closeSession uid time =>
        rw [describe, view_closeSession h, hempty]
        exact ite_self _
      | updateSession source genTime frameLength =>
        obtain rfl : app.uid = source := huid
        rw [describe, countFrame, hlive]
        exact hempty
      | closeAllSessions time => rw [describe, view_closeAllSessions h, hempty]; rfl
    · rw [view_describe_of_ne h huid, hempty]

end SessionCall
/-! ### Which sessions are live -/

namespace SessionCall

theorem keyed_run {b : SessionBuilder} (h : Keyed b) (call : SessionCall) : Keyed (run b call) := by
  cases call with
  | openSession location time => exact h.openSession location time
  | closeSession uid time => exact h.closeSession uid time
  | updateSession source genTime frameLength => exact h.updateSession source genTime frameLength
  | closeAllSessions time => exact h.closeAllSessions time

theorem keyed_foldl_run {b : SessionBuilder} (h : Keyed b) (calls : List SessionCall) :
    Keyed (calls.foldl run b) := by
  induction calls generalizing b with
  | nil => exact h
  | cons call calls ih => exact ih (keyed_run h call)

theorem isSome_live_put (b : SessionBuilder) (uid uid' : UInt32) (session : Index.Session) :
    ((b.put uid session).live uid').isSome ↔ (b.live uid').isSome ∨ uid = uid' := by
  by_cases huid : uid' = uid
  · subst huid
    simp [SessionBuilder.put]
  · simp [SessionBuilder.put, huid, Ne.symm huid]

theorem isSome_live_closeSession (b : SessionBuilder) (uid uid' : UInt32) (time : Int64) :
    ((b.closeSession uid time).live uid').isSome ↔ (b.live uid').isSome := by
  unfold SessionBuilder.closeSession
  cases hsession : b.live uid with
  | none => rfl
  | some session =>
    refine (isSome_live_put b uid uid' _).trans (or_iff_left_of_imp ?_)
    rintro rfl
    rw [hsession]
    rfl

/-- A session is live from when it is opened on. -/
theorem isSome_live_run (b : SessionBuilder) (call : SessionCall) (uid : UInt32) :
    ((run b call).live uid).isSome ↔ (b.live uid).isSome ∨ call.opened? = some uid := by
  cases call with
  | openSession location time =>
    exact (isSome_live_put b location.uid uid _).trans (or_congr_right Option.some_inj.symm)
  | closeSession uid' time =>
    exact (isSome_live_closeSession b uid' uid time).trans (or_iff_left (by simp [opened?])).symm
  | updateSession source genTime frameLength =>
    simp only [opened?, reduceCtorEq, or_false, run, SessionBuilder.updateSession]
    cases hsession : b.live source with
    | none => rfl
    | some session =>
      by_cases huid : uid = source
      · subst huid
        simp [hsession]
      · simp [huid]
  | closeAllSessions time =>
    exact (isSome_live_closeSession b uid uid time).trans (or_iff_left (by simp [opened?])).symm

theorem isSome_live_describe (b : SessionBuilder) (call : SessionCall) (uid : UInt32) :
    ((describe b call).live uid).isSome ↔ (b.live uid).isSome ∨ call.opened? = some uid := by
  cases call with
  | openSession location time =>
    exact (isSome_live_put b location.uid uid _).trans (or_congr_right Option.some_inj.symm)
  | closeSession uid' time =>
    exact (isSome_live_closeSession b uid' uid time).trans (or_iff_left (by simp [opened?])).symm
  | updateSession source genTime frameLength =>
    simp only [opened?, reduceCtorEq, or_false, describe, countFrame]
    cases hsession : b.live source with
    | none => rfl
    | some session =>
      refine (isSome_live_put b source uid _).trans (or_iff_left_of_imp ?_)
      rintro rfl
      rw [hsession]
      rfl
  | closeAllSessions time =>
    exact (isSome_live_closeSession b uid uid time).trans (or_iff_left (by simp [opened?])).symm

theorem mem_opened {calls : List SessionCall} {uid : UInt32} :
    uid ∈ opened calls ↔ ∃ call ∈ calls, call.opened? = some uid := by
  simp [opened]

/-- The live sessions are those that were opened, whether they are over or not. -/
theorem isSome_live_foldl {f : SessionBuilder → SessionCall → SessionBuilder}
    (hf : ∀ b call uid, ((f b call).live uid).isSome ↔
      (b.live uid).isSome ∨ SessionCall.opened? call = some uid)
    (calls : List SessionCall) (uid : UInt32) :
    ((calls.foldl f noSessions).live uid).isSome ↔ uid ∈ opened calls := by
  suffices hall : ∀ b, ((calls.foldl f b).live uid).isSome ↔
      (b.live uid).isSome ∨ uid ∈ opened calls by
    rw [hall noSessions]
    exact or_iff_right (by simp [noSessions])
  induction calls with
  | nil => simp [opened]
  | cons call calls ih =>
    intro b
    rw [List.foldl_cons, ih, hf, or_assoc]
    simp only [mem_opened, List.exists_mem_cons_iff]

end SessionCall

end Kungfu.Practice
