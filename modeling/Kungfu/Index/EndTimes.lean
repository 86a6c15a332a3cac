import Kungfu.Index.Session
import Kungfu.Logic.Run

/-!
# The stored end times

The master opens a session when it starts and when an application registers, closes it when the
application deregisters, and closes all of them three times when it exits.  The builder never
forgets a session that it has opened, so those times also reach the ones that are over.  A master
that is gone without this leaves sessions without an end.
-/

namespace Kungfu.Index

open Longfist Logic

/-- What happened to a location last. -/
inductive Activity
  | unseen
  /-- A session is open, which had its last frame at a time. -/
  | opened (last : Int64)
  | closed (time : Int64)
  /-- The master was gone before it closed the session. -/
  | lost (last : Int64)
  deriving DecidableEq, Repr

namespace Activity

def IsOpen : Activity → Prop
  | opened _ => True
  | _ => False

instance : DecidablePred IsOpen
  | opened _ => isTrue trivial
  | unseen | closed _ | lost _ => isFalse id

/-- A frame of the location is fed. -/
def feed (genTime : Int64) : Activity → Activity
  | opened _ => opened genTime
  | activity => activity

def close (time : Int64) : Activity → Activity
  | opened _ => closed time
  | activity => activity

def lose : Activity → Activity
  | opened last => lost last
  | activity => activity

/-- The time at which a location was last active, if it is not active still. -/
def lastActive : Activity → Option Int64
  | unseen => some Int64.minValue
  | opened _ => none
  | closed time => some time
  | lost last => some last

/-- The location has a session that is open, or was closed at the given time. -/
def OpenOrClosedAt (activity : Activity) (time : Int64) : Prop :=
  activity.IsOpen ∨ activity = closed time

instance (activity : Activity) (time : Int64) : Decidable (activity.OpenOrClosedAt time) :=
  inferInstanceAs (Decidable (_ ∨ _))

theorem OpenOrClosedAt.close {activity : Activity} {time : Int64}
    (h : activity.OpenOrClosedAt time) : activity.close time = closed time := by
  rcases h with hopen | rfl
  · cases activity with
    | opened _ => rfl
    | unseen | closed _ | lost _ => exact absurd hopen id
  · rfl

@[simp] theorem lastActive_feed (activity : Activity) (genTime : Int64) :
    (activity.feed genTime).lastActive = activity.lastActive := by
  cases activity <;> rfl

@[simp] theorem isOpen_feed (activity : Activity) (genTime : Int64) :
    (activity.feed genTime).IsOpen ↔ activity.IsOpen := by
  cases activity <;> rfl

theorem lose_of_not_isOpen {activity : Activity} (h : ¬ activity.IsOpen) :
    activity.lose = activity := by
  cases activity with
  | opened _ => exact absurd trivial h
  | unseen | closed _ | lost _ => rfl

theorem close_of_not_isOpen {activity : Activity} (h : ¬ activity.IsOpen) (time : Int64) :
    activity.close time = activity := by
  cases activity with
  | opened _ => exact absurd trivial h
  | unseen | closed _ | lost _ => rfl

theorem not_isOpen_close (activity : Activity) (time : Int64) : ¬ (activity.close time).IsOpen := by
  cases activity <;> exact id

end Activity

/-- The master, by its session builder, the keys of `registry_` and whether it runs. -/
structure Master where
  home : Location
  builder : SessionBuilder
  registry : List UInt32
  running : Bool
  activity : UInt32 → Activity

namespace Master

inductive Step
  | start (time : Int64)
  | registerApp (location : Location) (genTime : Int64)
  | deregisterApp (uid : UInt32) (triggerTime : Int64)
  | feed (source : UInt32) (genTime : Int64) (frameLength : UInt32)
  /-- One of the three that `on_exit` calls: `notify_deregister_on_exit`,
  `mark_session_end_on_exit` and `notify_master_deregister_on_exit`. -/
  | closeAllOnExit (now : Int64)
  | stop

/-- A master that has not run, with an empty database. -/
def fresh (home : Location) : Master where
  home := home
  builder := { sessions := fun _ => ∅, live := fun _ => none }
  registry := []
  running := false
  activity _ := .unseen

/-- A session is opened for a location. -/
def openSession (location : Location) (time : Int64) (m : Master) : Master :=
  { m with
    builder := m.builder.openSession location time
    activity := Function.update m.activity location.uid (.opened time) }

/-- The session of a location is closed, if it has one. -/
def closeSession (uid : UInt32) (time : Int64) (m : Master) : Master :=
  { m with
    builder := m.builder.closeSession uid time
    activity := Function.update m.activity uid ((m.activity uid).close time) }

def closeAllSessions (time : Int64) (m : Master) : Master :=
  { m with
    builder := m.builder.closeAllSessions time
    activity := fun uid => (m.activity uid).close time }

/-- A frame of a location with a session is counted. -/
def updateSession (source : UInt32) (genTime : Int64) (frameLength : UInt32) (m : Master) : Master :=
  { m with
    builder := m.builder.updateSession source genTime frameLength
    activity := Function.update m.activity source ((m.activity source).feed genTime) }

/-- The builder and the registry are gone with the master. -/
def halt (m : Master) : Master :=
  { m with
    builder := { m.builder with live := fun _ => none }
    registry := []
    running := false
    activity := fun uid => (m.activity uid).lose }

def step (m : Master) : Step → Master
  | .start time => if m.running then m else { m with running := true }.openSession m.home time
  | .registerApp location genTime =>
      if ¬ m.running ∨ location.uid ∈ m.registry then m
      else { m with registry := location.uid :: m.registry }.openSession location genTime
  | .deregisterApp uid triggerTime =>
      { m with registry := m.registry.filter (· ≠ uid) }.closeSession uid triggerTime
  | .feed source genTime frameLength =>
      if source ∉ m.registry then m
      else m.updateSession source genTime frameLength
  | .closeAllOnExit now => m.closeAllSessions now
  | .stop => m.halt

abbrev run (m : Master) (steps : List Step) : Master := steps.foldl step m

/-- A session is opened after the stored ones of its location began, one that is over is closed again
only at the time at which it was closed, and the master is gone only when none is open. -/
def Safe (m : Master) : Step → Prop
  | .start time => m.running ∨ m.builder.sessions.NotAfter m.home.uid time
  | .registerApp location genTime =>
      (¬ m.running ∨ location.uid ∈ m.registry) ∨
        m.builder.sessions.NotAfter location.uid genTime
  | .deregisterApp uid triggerTime =>
      m.builder.live uid ≠ none → (m.activity uid).OpenOrClosedAt triggerTime
  | .closeAllOnExit now =>
      ∀ uid, m.builder.live uid ≠ none → (m.activity uid).OpenOrClosedAt now
  | .stop => ∀ uid, ¬ (m.activity uid).IsOpen
  | .feed _ _ _ => True

/-- The step opens a session of the location. -/
def Step.Opens (home : Location) (uid : UInt32) : Step → Prop
  | .start _ => home.uid = uid
  | .registerApp location _ => location.uid = uid
  | .deregisterApp _ _ | .feed _ _ _ | .closeAllOnExit _ | .stop => False

/-! ## What is stored is what happened -/

/-- The stored sessions of a location tell when it was last active, if it is not active still, and its
live session is the one that was stored last. -/
structure Agrees (uid : UInt32) (m : Master) : Prop where
  stored : ∀ time ∈ (m.activity uid).lastActive,
    m.builder.sessions.findLastActiveTime uid = time
  current : ∀ session, m.builder.live uid = some session → m.builder.Current uid session
  live : (m.activity uid).IsOpen → m.builder.live uid ≠ none

variable {m m' : Master} {uid : UInt32} {location : Location} {time : Int64}

theorem agrees_fresh (home : Location) (uid : UInt32) : (fresh home).Agrees uid :=
  ⟨fun _ htime => Option.some.inj htime, by simp [fresh], fun hopen => absurd hopen id⟩

theorem Agrees.of_sameAt (h : m.Agrees uid) (hbuilder : SessionBuilder.SameAt uid m.builder m'.builder)
    (hactivity : m'.activity uid = m.activity uid) : m'.Agrees uid := by
  constructor
  · rw [Sessions.findLastActiveTime, hbuilder.findLast, hactivity]
    exact h.stored
  · intro session hsession
    rw [hbuilder.1] at hsession
    exact (h.current session hsession).of_sameAt hbuilder
  · rw [hactivity, hbuilder.1]
    exact h.live

/-- A session that is live and stored, with the end that it should have. -/
theorem agrees_of_current {session : Session} (h : m.builder.Current uid session)
    (hend : ∀ time ∈ (m.activity uid).lastActive, session.endTime = time) : m.Agrees uid := by
  constructor
  · intro time htime
    rw [h.findLastActiveTime]
    exact hend time htime
  · intro session' hsession'
    cases h.live.symm.trans hsession'
    exact h
  · intro _
    simp [h.live]

theorem Agrees.locationUid (h : m.Agrees uid) {session : Session}
    (hsession : m.builder.live uid = some session) : session.locationUid = uid :=
  (h.current session hsession).locationUid

theorem Agrees.openSession (h : ∀ uid, m.Agrees uid)
    (hnotAfter : m.builder.sessions.NotAfter location.uid time) (uid : UInt32) :
    (m.openSession location time).Agrees uid := by
  have hlive : ∀ session, m.builder.live location.uid = some session →
      session.locationUid = location.uid := fun session => (h location.uid).locationUid
  by_cases huid : uid = location.uid
  · subst huid
    obtain ⟨session, hcurrent, -, -⟩ := SessionBuilder.current_openSession hlive hnotAfter
    apply agrees_of_current hcurrent
    simp [Master.openSession, Activity.lastActive]
  · apply (h uid).of_sameAt (SessionBuilder.sameAt_openSession hlive huid)
    exact Function.update_of_ne huid ..

/-- A session that is closed has ended at that time. -/
theorem Agrees.close (h : m.Agrees uid)
    (hsafe : m.builder.live uid ≠ none → (m.activity uid).OpenOrClosedAt time)
    (hbuilder : SessionBuilder.SameAt uid (m.builder.closeSession uid time) m'.builder)
    (hactivity : m'.activity uid = (m.activity uid).close time) : m'.Agrees uid := by
  cases hsession : m.builder.live uid with
  | none =>
    rw [SessionBuilder.closeSession_of_none hsession] at hbuilder
    apply h.of_sameAt hbuilder
    rw [hactivity]
    apply Activity.close_of_not_isOpen
    intro hopen
    exact h.live hopen hsession
  | some session =>
    apply agrees_of_current (((h.current session hsession).closeSession time).of_sameAt hbuilder)
    rw [hactivity, (hsafe (by simp [hsession])).close]
    exact fun _ htime => Option.some.inj htime

theorem Agrees.closeSession (h : ∀ uid, m.Agrees uid)
    (hsafe : m.builder.live uid ≠ none → (m.activity uid).OpenOrClosedAt time) (uid' : UInt32) :
    (m.closeSession uid time).Agrees uid' := by
  by_cases huid : uid' = uid
  · subst huid
    exact (h uid').close hsafe ⟨rfl, rfl⟩ (Function.update_self ..)
  · apply (h uid').of_sameAt
    · exact SessionBuilder.sameAt_closeSession (fun session => (h uid).locationUid) huid time
    · exact Function.update_of_ne huid ..

theorem Agrees.halt (h : m.Agrees uid) (hclosed : ¬ (m.activity uid).IsOpen) :
    m.halt.Agrees uid := by
  have hactivity : m.halt.activity uid = m.activity uid := Activity.lose_of_not_isOpen hclosed
  constructor
  · rw [hactivity]
    exact h.stored
  · simp [Master.halt]
  · rw [hactivity]
    exact fun hopen => absurd hopen hclosed

theorem Agrees.updateSession (h : ∀ uid, m.Agrees uid) (source : UInt32) (genTime : Int64)
    (frameLength : UInt32) (uid : UInt32) :
    (m.updateSession source genTime frameLength).Agrees uid := by
  by_cases huid : uid = source
  · subst huid
    have hactivity : (m.updateSession uid genTime frameLength).activity uid =
        (m.activity uid).feed genTime := Function.update_self ..
    cases hsession : m.builder.live uid with
    | none =>
      have hbuilder : (m.updateSession uid genTime frameLength).builder = m.builder := by
        rw [Master.updateSession, SessionBuilder.updateSession, hsession]
      constructor
      · rw [hactivity, hbuilder, Activity.lastActive_feed]
        exact (h uid).stored
      · rw [hbuilder]
        exact (h uid).current
      · rw [hactivity, hbuilder, Activity.isOpen_feed]
        exact (h uid).live
    | some session =>
      have hcurrent := (h uid).current session hsession
      obtain ⟨session', hcurrent', -, hend⟩ := hcurrent.updateSession genTime frameLength
      apply agrees_of_current hcurrent'
      rw [hactivity, Activity.lastActive_feed, hend, ← hcurrent.findLastActiveTime]
      exact (h uid).stored
  · apply (h uid).of_sameAt (SessionBuilder.sameAt_updateSession huid genTime frameLength)
    exact Function.update_of_ne huid ..

theorem Agrees.step {s : Step} (h : ∀ uid, m.Agrees uid) (hsafe : m.Safe s) (uid : UInt32) :
    (m.step s).Agrees uid := by
  cases s with
  | start time =>
    simp only [Master.step]
    split
    · exact h uid
    · rename_i hrunning
      apply Agrees.openSession
      · intro uid'
        exact (h uid').of_sameAt ⟨rfl, rfl⟩ rfl
      · exact hsafe.resolve_left hrunning
  | registerApp location genTime =>
    simp only [Master.step]
    split
    · exact h uid
    · rename_i hregistered
      apply Agrees.openSession
      · intro uid'
        exact (h uid').of_sameAt ⟨rfl, rfl⟩ rfl
      · exact hsafe.resolve_left hregistered
  | deregisterApp uid' triggerTime =>
    simp only [Master.step]
    apply Agrees.closeSession
    · intro uid'
      exact (h uid').of_sameAt ⟨rfl, rfl⟩ rfl
    · exact hsafe
  | feed source genTime frameLength =>
    simp only [Master.step]
    split
    · exact h uid
    · exact Agrees.updateSession h source genTime frameLength uid
  | closeAllOnExit now => exact (h uid).close (hsafe uid) ⟨rfl, rfl⟩ rfl
  | stop => exact (h uid).halt (hsafe uid)

/-! ## What happened stays -/

@[simp] theorem home_step (m : Master) (s : Step) : (m.step s).home = m.home := by
  cases s <;> simp only [step] <;> first | rfl | split <;> rfl

/-- A session that is over stays so until one is opened. -/
theorem closed_of_step {s : Step} (h : m.activity uid = .closed time)
    (hopens : ¬ s.Opens m.home uid) : (m.step s).activity uid = .closed time := by
  cases s with
  | start _ =>
    simp only [step]
    split
    · exact h
    · exact (Function.update_of_ne (Ne.symm hopens) ..).trans h
  | registerApp location _ =>
    simp only [step]
    split
    · exact h
    · exact (Function.update_of_ne (Ne.symm hopens) ..).trans h
  | deregisterApp uid' _ =>
    by_cases huid : uid = uid'
    · subst huid
      simp [step, closeSession, h, Activity.close]
    · exact (Function.update_of_ne huid ..).trans h
  | feed source _ _ =>
    simp only [step]
    split
    · exact h
    · by_cases huid : uid = source
      · subst huid
        simp [updateSession, h, Activity.feed]
      · exact (Function.update_of_ne huid ..).trans h
  | closeAllOnExit _ => simp [step, closeAllSessions, h, Activity.close]
  | stop => simp [step, halt, h, Activity.lose]

theorem closed_of_run {steps : List Step} (h : m.activity uid = .closed time)
    (hopens : ∀ s ∈ steps, ¬ s.Opens m.home uid) : (m.run steps).activity uid = .closed time := by
  induction steps generalizing m with
  | nil => exact h
  | cons s steps ih =>
    apply ih
    · exact closed_of_step h (hopens s List.mem_cons_self)
    · intro s' hs'
      rw [home_step]
      exact hopens s' (List.mem_cons_of_mem s hs')

theorem home_run (m : Master) (steps : List Step) : (m.run steps).home = m.home := by
  induction steps generalizing m with
  | nil => rfl
  | cons s steps ih => exact (ih (m.step s)).trans (home_step m s)

/-- In a run whose steps are safe, the end of a location's last session is the time at which it
was last active, if it is not active still, and a session that was closed keeps its end until the next
one is opened. -/
theorem end_times_stable {home : Location} {steps : List Step}
    (hsafe : Along step Safe (fresh home) steps) (uid : UInt32) :
    (∀ time ∈ (((fresh home).run steps).activity uid).lastActive,
        ((fresh home).run steps).builder.sessions.findLastActiveTime uid = time) ∧
      ∀ before after time, steps = before ++ after →
        ((fresh home).run before).activity uid = .closed time →
          (∀ s ∈ after, ¬ s.Opens home uid) →
            ((fresh home).run steps).builder.sessions.findLastActiveTime uid = time := by
  have hagrees : ∀ uid, ((fresh home).run steps).Agrees uid :=
    hsafe.foldl (fun _ _ h hsafe => Agrees.step h hsafe) (agrees_fresh home)
  refine ⟨(hagrees uid).stored, ?_⟩
  intro before after time hsteps hclosed hopens
  have hactivity : ((fresh home).run steps).activity uid = .closed time := by
    rw [hsteps, run, List.foldl_append]
    apply closed_of_run hclosed
    intro s hs
    rw [home_run]
    exact hopens s hs
  apply (hagrees uid).stored
  rw [hactivity]
  rfl

/-! ### A run with one application -/

def exampleHome : Location := ⟨1, .SYSTEM, .LIVE, "master", "master"⟩

def exampleApp : Location := ⟨2, .STRATEGY, .LIVE, "default", "demo"⟩

def exampleSteps : List Step :=
  [.start 5, .registerApp exampleApp 10, .feed 2 15 100, .deregisterApp 2 20]

/-- The master exits as soon as the application is gone. -/
def exampleExit : List Step :=
  [.closeAllOnExit 20, .closeAllOnExit 20, .closeAllOnExit 20, .stop, .start 30]

theorem live_exampleSteps {uid : UInt32} (hhome : uid ≠ 1) (happ : uid ≠ 2) :
    ((fresh exampleHome).run exampleSteps).builder.live uid = none := by
  simp [exampleSteps, step, fresh, openSession, SessionBuilder.openSession, SessionBuilder.put,
    closeSession, SessionBuilder.closeSession, updateSession, SessionBuilder.updateSession,
    exampleHome, exampleApp, hhome, happ]

/-- The three calls find a session that is open and one that ended at that time. -/
theorem safe_closeAllOnExit {m : Master}
    (hlive : ∀ uid, uid ≠ 1 → uid ≠ 2 → m.builder.live uid = none)
    (hhome : (m.activity 1).OpenOrClosedAt 20) (happ : (m.activity 2).OpenOrClosedAt 20) :
    m.Safe (.closeAllOnExit 20) := by
  intro uid huid
  by_cases h1 : uid = 1
  · exact h1 ▸ hhome
  · by_cases h2 : uid = 2
    · exact h2 ▸ happ
    · exact absurd (hlive uid h1 h2) huid

theorem live_closeAllSessions {m : Master} {uid : UInt32} (h : m.builder.live uid = none)
    (time : Int64) : (m.closeAllSessions time).builder.live uid = none := by
  simp only [closeAllSessions, SessionBuilder.closeAllSessions]
  rw [SessionBuilder.closeSession_of_none h, h]

theorem safe_example : Along step Safe (fresh exampleHome) (exampleSteps ++ exampleExit) := by
  refine ⟨.inr ?_, .inr ?_, trivial, ?_, ?_, ?_, ?_, ?_, .inr ?_, trivial⟩
  · decide
  · decide
  · intro _
    exact .inl (by decide)
  · apply safe_closeAllOnExit _ (.inl (by decide)) (.inr (by decide))
    intro uid h1 h2
    exact live_exampleSteps h1 h2
  · apply safe_closeAllOnExit _ (.inr (by decide)) (.inr (by decide))
    intro uid h1 h2
    exact live_closeAllSessions (live_exampleSteps h1 h2) 20
  · apply safe_closeAllOnExit _ (.inr (by decide)) (.inr (by decide))
    intro uid h1 h2
    exact live_closeAllSessions (live_closeAllSessions (live_exampleSteps h1 h2) 20) 20
  · exact fun uid => Activity.not_isOpen_close _ 20
  · decide +kernel

theorem end_times_stable_example :
    ((fresh exampleHome).run (exampleSteps ++ exampleExit)).builder.sessions.findLastActiveTime 2 = 20 :=
  (end_times_stable safe_example 2).2 exampleSteps exampleExit 20 rfl (by decide +kernel)
    (by simp [exampleExit, Step.Opens, exampleHome])

/-- The application is gone at 20, but it is found active until the last of the three calls.  Where the
master is gone without them, an application whose last frame came at 35 is found active at no time. -/
theorem end_time_of_deregistered_lost :
    (let m := (fresh exampleHome).run exampleSteps
    m.activity 2 = .closed 20 ∧ m.builder.sessions.findLastActiveTime 2 = 20 ∧
      (m.run [.closeAllOnExit 100, .closeAllOnExit 101, .closeAllOnExit 102, .stop]).builder.sessions.findLastActiveTime
        2 = 102) ∧
    (let m := (fresh exampleHome).run
      [.start 5, .registerApp exampleApp 10, .feed 2 35 100, .stop, .start 40]
    (m.activity 2).lastActive = some 35 ∧ m.builder.sessions.findLastActiveTime 2 = 0) := by
  decide +kernel

end Master

end Kungfu.Index
