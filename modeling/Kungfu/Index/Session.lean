import Kungfu.Longfist.Types
import Mathlib.Data.List.AList
import Mathlib.Logic.Function.Basic

/-!
# Sessions

A session is a time during which a location was live.  The builder keeps the last session of
each location in memory and stores it, by location and begin time, whenever it is opened or
closed.
-/

namespace Kungfu.Index

open Longfist

/-- What a session copies of a location. -/
structure Location where
  uid : UInt32
  category : Category
  mode : Mode
  group : String
  name : String
  deriving DecidableEq, Repr

structure Session where
  locationUid : UInt32
  category : Category
  mode : Mode
  group : String
  name : String
  beginTime : Int64
  updateTime : Int64
  endTime : Int64
  frameCount : UInt32
  dataSize : UInt64
  deriving DecidableEq, Repr

/-- A session of a location that was not opened before. -/
def Session.ofLocation (location : Location) : Session where
  locationUid := location.uid
  category := location.category
  mode := location.mode
  group := location.group
  name := location.name
  beginTime := 0
  updateTime := 0
  endTime := 0
  frameCount := 0
  dataSize := 0

/-- The stored sessions of each location, by begin time. -/
abbrev Sessions := UInt32 → AList fun _ : Int64 => Session

namespace Sessions

/-- `replace`. -/
def replace (session : Session) (sessions : Sessions) : Sessions :=
  Function.update sessions session.locationUid
    ((sessions session.locationUid).insert session.beginTime session)

/-- The entry that begins last. -/
def lastOf : List (Σ _ : Int64, Session) → Option (Σ _ : Int64, Session)
  | [] => none
  | entry :: entries =>
      match lastOf entries with
      | none => some entry
      | some last => if last.1 < entry.1 then some entry else some last

/-- The session of a location that begins last. -/
def findLast (sessions : Sessions) (uid : UInt32) : Option Session :=
  (lastOf (sessions uid).entries).map (·.2)

/-- `find_last_active_time`. -/
def findLastActiveTime (sessions : Sessions) (uid : UInt32) : Int64 :=
  match sessions.findLast uid with
  | none => Int64.minValue
  | some session => session.endTime

theorem mem_of_lastOf {entries : List (Σ _ : Int64, Session)} {last : Σ _ : Int64, Session}
    (h : lastOf entries = some last) : last ∈ entries := by
  induction entries generalizing last with
  | nil => cases h
  | cons entry entries ih =>
    rw [lastOf] at h
    cases hlast : lastOf entries with
    | none =>
      rw [hlast] at h
      cases h
      exact List.mem_cons_self
    | some last' =>
      simp only [hlast] at h
      split at h
      · cases h
        exact List.mem_cons_self
      · cases h
        exact List.mem_cons_of_mem _ (ih hlast)

/-- The begin times of the stored sessions of a location are not after the given one. -/
def NotAfter (sessions : Sessions) (uid : UInt32) (time : Int64) : Prop :=
  ∀ begins ∈ (sessions uid).keys, begins ≤ time

instance (sessions : Sessions) (uid : UInt32) (time : Int64) :
    Decidable (sessions.NotAfter uid time) :=
  List.decidableBAll _ _

/-- A session that begins last is the one that is found. -/
theorem findLast_replace {sessions : Sessions} {session : Session}
    (h : sessions.NotAfter session.locationUid session.beginTime) :
    (sessions.replace session).findLast session.locationUid = some session := by
  rw [findLast, replace, Function.update_self, AList.entries_insert, lastOf]
  cases hlast : lastOf (List.kerase session.beginTime (sessions session.locationUid).entries) with
  | none => rfl
  | some last =>
    have hmem := mem_of_lastOf hlast
    have hkey : last.1 ∈ (sessions session.locationUid).keys :=
      List.mem_keys_of_mem (List.kerase_sublist _ _ |>.subset hmem)
    have hne : last.1 ≠ session.beginTime := by
      intro heq
      have hkeys := List.mem_keys_of_mem hmem
      rw [heq] at hkeys
      exact List.notMem_keys_kerase _ (sessions session.locationUid).nodupKeys hkeys
    have hlt : last.1 < session.beginTime := by
      have hle := h last.1 hkey
      grind
    simp only [hlt, if_true]
    rfl

theorem notAfter_replace {sessions : Sessions} {session : Session}
    (h : sessions.NotAfter session.locationUid session.beginTime) :
    (sessions.replace session).NotAfter session.locationUid session.beginTime := by
  intro begins hbegins
  rw [replace, Function.update_self, ← AList.mem_keys, AList.mem_insert] at hbegins
  rcases hbegins with rfl | hbegins
  · exact Int64.le_refl _
  · exact h begins hbegins

end Sessions

/-! ## The builder -/

/-- `session_builder`: the stored sessions, and those in `live_sessions_`. -/
structure SessionBuilder where
  sessions : Sessions
  live : UInt32 → Option Session

namespace SessionBuilder

/-- A live session is changed and stored. -/
def put (uid : UInt32) (session : Session) (b : SessionBuilder) : SessionBuilder where
  sessions := b.sessions.replace session
  live := Function.update b.live uid (some session)

/-- `open_session`, which goes on with the session that the location has. -/
def openSession (location : Location) (time : Int64) (b : SessionBuilder) : SessionBuilder :=
  let session := (b.live location.uid).getD (.ofLocation location)
  b.put location.uid { session with beginTime := time, endTime := 0, updateTime := time }

end SessionBuilder

/-- A session that is over. -/
def Session.closed (time : Int64) (session : Session) : Session :=
  { session with endTime := time, updateTime := time }

namespace SessionBuilder

/-- `close_session`. -/
def closeSession (uid : UInt32) (time : Int64) (b : SessionBuilder) : SessionBuilder :=
  match b.live uid with
  | none => b
  | some session => b.put uid (session.closed time)

/-- `close_all_sessions`: every live session is closed, whether it is over or not. -/
def closeAllSessions (time : Int64) (b : SessionBuilder) : SessionBuilder where
  sessions uid := (b.closeSession uid time).sessions uid
  live uid := (b.closeSession uid time).live uid

/-- `update_session`, which does not store the session. -/
def updateSession (source : UInt32) (genTime : Int64) (frameLength : UInt32) (b : SessionBuilder) :
    SessionBuilder :=
  match b.live source with
  | none => b
  | some session => { b with live := Function.update b.live source (some { session with
      updateTime := genTime
      frameCount := session.frameCount + 1
      dataSize := session.dataSize + frameLength.toUInt64 }) }

/-! ### What a builder keeps of a location -/

/-- The live session of a location is the one that was stored last. -/
structure Current (b : SessionBuilder) (uid : UInt32) (session : Session) : Prop where
  live : b.live uid = some session
  locationUid : session.locationUid = uid
  notAfter : b.sessions.NotAfter uid session.beginTime
  endTime : (b.sessions.findLast uid).map Session.endTime = some session.endTime

/-- Two builders keep the same of a location. -/
def SameAt (uid : UInt32) (b b' : SessionBuilder) : Prop :=
  b'.live uid = b.live uid ∧ b'.sessions uid = b.sessions uid

variable {b b' : SessionBuilder} {uid : UInt32} {session : Session}

theorem Current.of_sameAt (h : SameAt uid b b') (hcurrent : b.Current uid session) :
    b'.Current uid session := by
  obtain ⟨hlive, hsessions⟩ := h
  obtain ⟨hlive', huid, hnotAfter, hend⟩ := hcurrent
  refine ⟨hlive.trans hlive', huid, ?_, ?_⟩
  · rw [Sessions.NotAfter, hsessions]
    exact hnotAfter
  · rw [Sessions.findLast, hsessions]
    exact hend

theorem Current.findLastActiveTime (h : b.Current uid session) :
    b.sessions.findLastActiveTime uid = session.endTime := by
  have hend := h.endTime
  rw [Sessions.findLastActiveTime]
  cases hlast : b.sessions.findLast uid with
  | none => simp [hlast] at hend
  | some last => simpa [hlast] using hend

theorem SameAt.findLast (h : SameAt uid b b') :
    b'.sessions.findLast uid = b.sessions.findLast uid := by
  rw [Sessions.findLast, h.2, Sessions.findLast]

theorem sameAt_put {uid' : UInt32} (huid : session.locationUid = uid) (hne : uid' ≠ uid) :
    SameAt uid' b (b.put uid session) := by
  subst huid
  exact ⟨Function.update_of_ne hne .., Function.update_of_ne hne ..⟩

/-- A live session that is stored is the current one. -/
theorem current_put (huid : session.locationUid = uid)
    (h : b.sessions.NotAfter uid session.beginTime) : (b.put uid session).Current uid session := by
  subst huid
  exact ⟨Function.update_self .., rfl, Sessions.notAfter_replace h,
    by rw [put, Sessions.findLast_replace h]; rfl⟩

theorem Current.closeSession (h : b.Current uid session) (time : Int64) :
    (b.closeSession uid time).Current uid (session.closed time) := by
  rw [SessionBuilder.closeSession, h.live]
  exact current_put h.locationUid h.notAfter

theorem closeSession_of_none (h : b.live uid = none) (time : Int64) :
    b.closeSession uid time = b := by
  rw [closeSession, h]

theorem sameAt_closeSession {uid' : UInt32} (hlive : ∀ session, b.live uid = some session →
    session.locationUid = uid) (hne : uid' ≠ uid) (time : Int64) :
    SameAt uid' b (b.closeSession uid time) := by
  unfold closeSession
  cases hsession : b.live uid with
  | none => exact ⟨rfl, rfl⟩
  | some session => exact sameAt_put (hlive session hsession) hne

theorem Current.updateSession (h : b.Current uid session) (genTime : Int64) (frameLength : UInt32) :
    ∃ session', (b.updateSession uid genTime frameLength).Current uid session' ∧
      session'.beginTime = session.beginTime ∧ session'.endTime = session.endTime := by
  rw [SessionBuilder.updateSession, h.live]
  exact ⟨_, ⟨Function.update_self .., h.locationUid, h.notAfter, h.endTime⟩, rfl, rfl⟩

theorem sameAt_updateSession {uid' : UInt32} (hne : uid' ≠ uid) (genTime : Int64)
    (frameLength : UInt32) : SameAt uid' b (b.updateSession uid genTime frameLength) := by
  unfold updateSession
  cases b.live uid with
  | none => exact ⟨rfl, rfl⟩
  | some session => exact ⟨Function.update_of_ne hne .., rfl⟩

/-- A session is opened that begins after the stored ones. -/
theorem current_openSession {location : Location} {time : Int64}
    (hlive : ∀ session, b.live location.uid = some session → session.locationUid = location.uid)
    (h : b.sessions.NotAfter location.uid time) :
    ∃ session, (b.openSession location time).Current location.uid session ∧
      session.beginTime = time ∧ session.endTime = 0 := by
  refine ⟨_, current_put ?_ h, rfl, rfl⟩
  cases hsession : b.live location.uid with
  | none => rfl
  | some session => exact hlive session hsession

theorem sameAt_openSession {location : Location} {time : Int64}
    (hlive : ∀ session, b.live location.uid = some session → session.locationUid = location.uid)
    (hne : uid ≠ location.uid) : SameAt uid b (b.openSession location time) := by
  apply sameAt_put _ hne
  cases hsession : b.live location.uid with
  | none => rfl
  | some session => exact hlive session hsession

end SessionBuilder

end Kungfu.Index
