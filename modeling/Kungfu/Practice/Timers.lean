import Kungfu.Logic.Run
import Kungfu.Practice.Master

/-!
# Timers

An application asks the master for the time: its request names a timer and a duration.  The master
keeps one task for each timer of an application, and when the task is due it marks the time in the
journal that the application reads.  The mark does not name a timer: every timer whose duration is
over by the stamp of the mark takes it.  A timer runs once; an interval asks the master anew each
time it runs.

The master and the applications take their steps in any order, and read one clock.
-/

namespace Kungfu.Practice

open Logic

/-! ## Applications -/

/-- What was subscribed to the events by a timer or an interval. -/
structure Subscription where
  id : Int32
  duration : Int64
  once : Bool
  deriving DecidableEq, Repr

/-- A timer or interval was created, at the time that the application had then, or it ran, at the
stamp of a mark. -/
structure Occurrence where
  subscription : Subscription
  ran : Bool
  time : Int64
  deriving DecidableEq, Repr

/-- An application.  `requests` are written and not yet read by the master, and `marks` are the
stamps of the marks that it has yet to read.  The mark `frame` is being passed on, and `waiting` are
the subscriptions that it has yet to reach.  The `history` has what happened last first. -/
structure Apprentice where
  now : Int64
  timerUsageCount : Int32
  timerCheckpoints : AList fun _ : Int32 => Int64
  subscriptions : List Subscription
  requests : List TimeRequest
  marks : List Int64
  frame : Int64
  waiting : List Subscription
  history : List Occurrence

namespace Apprentice

def start : Apprentice where
  now := 0
  timerUsageCount := 0
  timerCheckpoints := ∅
  subscriptions := []
  requests := []
  marks := []
  frame := 0
  waiting := []
  history := []

section Model

variable (a : Apprentice)

/-- `timer_checkpoints_[id]`. -/
def checkpoint (id : Int32) : Int64 := (a.timerCheckpoints.lookup id).getD 0

/-- The master is asked for the time, and the duration counts from now. -/
def request (sub : Subscription) : Apprentice :=
  { a with
    requests := a.requests ++ [⟨sub.id, sub.duration, 1⟩]
    timerCheckpoints := a.timerCheckpoints.insert sub.id a.now }

/-- What `timer` and `time_interval` have in common. -/
def subscribe (duration : Int64) (once : Bool) : Apprentice :=
  let sub : Subscription := ⟨a.timerUsageCount, duration, once⟩
  { a.request sub with
    timerUsageCount := a.timerUsageCount + 1
    subscriptions := a.subscriptions ++ [sub]
    history := ⟨sub, false, a.now⟩ :: a.history }

def timer (nanotime : Int64) : Apprentice := a.subscribe (nanotime - a.now) true

def timeInterval (duration : Int64) : Apprentice := a.subscribe duration false

/-- The filter of a subscription lets a mark through. -/
def Accepts (stamp : Int64) (sub : Subscription) : Prop :=
  a.checkpoint sub.id + sub.duration < stamp

instance (stamp : Int64) (sub : Subscription) : Decidable (a.Accepts stamp sub) :=
  inferInstanceAs (Decidable (_ < _))

/-- The application is notified, and reads the clock. -/
def notify (t : Int64) : Apprentice := { a with now := t }

/-- `drain` reads a frame. -/
def readFrame (genTime : Int64) : Apprentice :=
  { a with now := if a.now < genTime then genTime else a.now }

/-- A mark is read, unless another is still being passed on. -/
def readMark : Apprentice :=
  match a.waiting, a.marks with
  | [], stamp :: marks =>
      { a.readFrame stamp with marks := marks, frame := stamp, waiting := a.subscriptions }
  | _, _ => a

/-- A subscription that takes the mark runs.  A timer then ends, and an interval asks anew. -/
def run (sub : Subscription) : Apprentice :=
  let a := { a with history := ⟨sub, true, a.frame⟩ :: a.history }
  if sub.once then { a with subscriptions := a.subscriptions.filter (· ≠ sub) } else a.request sub

/-- The mark reaches the next subscription. -/
def emit : Apprentice :=
  match a.waiting with
  | [] => a
  | sub :: waiting =>
      let a := { a with waiting := waiting }
      if a.Accepts a.frame sub then a.run sub else a

/-- An interval will run again: its request is in flight, or the master has a task for it whose mark
it will take, or a mark that it takes is in flight. -/
def Awaits (task : Option TimerTask) (sub : Subscription) : Prop :=
  (∃ request ∈ a.requests, request.id = sub.id) ∨
  (∃ t ∈ task, a.Accepts t.checkpoint sub) ∨
  (∃ stamp ∈ a.marks, a.Accepts stamp sub) ∨
  sub ∈ a.waiting ∧ a.Accepts a.frame sub

end Model

end Apprentice

/-! ## The master and its applications -/

/-- The last reading of the clock, the reading with which the master goes through its tasks, the
master, and the applications. -/
structure Timers where
  clock : Int64
  passTime : Int64
  master : Master
  apps : UInt32 → Apprentice

namespace Timers

def start (m : Master) : Timers where
  clock := 0
  passTime := 0
  master := m.change fun t => { t with timerTasks := ∅ }
  apps := fun _ => .start

/-- Steps.  Those that read the clock say what they read. -/
inductive Op
  | notify (uid : UInt32) (t : Int64)
  | readFrame (uid : UInt32) (genTime : Int64)
  | timer (uid : UInt32) (nanotime : Int64)
  | timeInterval (uid : UInt32) (duration : Int64)
  | readMark (uid : UInt32)
  | emit (uid : UInt32)
  /-- The master reads a request. -/
  | onTimeRequest (uid : UInt32) (t : Int64)
  /-- The master begins to go through its tasks. -/
  | handleTimerTasks (t : Int64)
  /-- It comes to a task. -/
  | handleTimerTask (uid : UInt32) (id : Int32) (t : Int64)

section Model

variable (s : Timers)

/-- An application takes a step. -/
def modify (uid : UInt32) (f : Apprentice → Apprentice) : Timers :=
  { s with apps := Function.update s.apps uid (f (s.apps uid)) }

/-- A step that reads the clock finds it later than before. -/
def reading (t : Int64) (f : Timers → Timers) : Timers :=
  if s.clock < t then f { s with clock := t } else s

/-- A task is due. -/
def Due (uid : UInt32) (id : Int32) : Prop :=
  ∃ task ∈ (s.master.tasksOf uid).lookup id, task.checkpoint ≤ s.passTime

instance (uid : UInt32) (id : Int32) : Decidable (s.Due uid id) :=
  inferInstanceAs (Decidable (∃ task ∈ (s.master.tasksOf uid).lookup id, task.checkpoint ≤ s.passTime))

def onTimeRequest (uid : UInt32) : Timers :=
  match (s.apps uid).requests with
  | [] => s
  | request :: requests =>
      { s.modify uid fun a => { a with requests := requests } with
        master := s.master.onTimeRequest ⟨s.clock, 0, 0, 0⟩ uid request }

/-- A master that throws takes no step. -/
def handleTimerTask (uid : UInt32) (id : Int32) : Timers :=
  match s.master.handleTimerTask s.passTime uid id with
  | .error _ => s
  | .ok m =>
      { s.modify uid fun a =>
          { a with marks := if s.Due uid id then a.marks ++ [s.clock] else a.marks } with
        master := m }

def step : Op → Timers
  | .notify uid t => s.reading t fun s => s.modify uid (·.notify t)
  | .readFrame uid genTime =>
      if 0 ≤ genTime ∧ genTime ≤ s.clock then s.modify uid (·.readFrame genTime) else s
  | .timer uid nanotime => s.modify uid (·.timer nanotime)
  | .timeInterval uid duration => s.modify uid (·.timeInterval duration)
  | .readMark uid => s.modify uid (·.readMark)
  | .emit uid => s.modify uid (·.emit)
  | .onTimeRequest uid t => s.reading t fun s => s.onTimeRequest uid
  | .handleTimerTasks t => s.reading t fun s => { s with passTime := t }
  | .handleTimerTask uid id t => s.reading t fun s => s.handleTimerTask uid id

abbrev run (ops : List Op) : Timers := ops.foldl step s

end Model

/-- An interval runs no sooner than its duration after it was created and after it ran before, and a
timer runs once. -/
def Spaced (later earlier : Occurrence) : Prop :=
  later.ran = true → later.subscription.id = earlier.subscription.id →
    (later.subscription.once = false → earlier.time.toInt + later.subscription.duration.toInt ≤
      later.time.toInt) ∧
    (later.subscription.once = true → earlier.ran = false)

instance (later earlier : Occurrence) : Decidable (Spaced later earlier) :=
  inferInstanceAs (Decidable (_ → _))

/-- What happened to every application is spaced, and every interval that was created will run. -/
structure Keeps (s : Timers) : Prop where
  spaced : ∀ uid, (s.apps uid).history.Pairwise Spaced
  awaits : ∀ uid, ∀ o ∈ (s.apps uid).history, o.subscription.once = false →
    (s.apps uid).Awaits ((s.master.tasksOf uid).lookup o.subscription.id) o.subscription

/-- No integer overflows: an application can count its timers, and the durations of intervals can be
added to what is read off the clock up to a time. -/
def Fits (horizon : ℕ) (s : Timers) : Op → Prop
  | .notify _ t | .onTimeRequest _ t | .handleTimerTasks t | .handleTimerTask _ _ t =>
      t.toInt ≤ horizon
  | .timer uid _ => (s.apps uid).timerUsageCount < Int32.maxValue
  | .timeInterval uid duration =>
      (s.apps uid).timerUsageCount < Int32.maxValue ∧ horizon + duration.toInt < 2 ^ 63
  | _ => True

instance decidableFits (horizon : ℕ) (s : Timers) : ∀ op, Decidable (Fits horizon s op)
  | .notify _ _ | .onTimeRequest _ _ | .handleTimerTasks _ | .handleTimerTask _ _ _ =>
      inferInstanceAs (Decidable (_ ≤ _))
  | .timer _ _ => inferInstanceAs (Decidable (_ < _))
  | .timeInterval _ _ => inferInstanceAs (Decidable (_ ∧ _))
  | .readFrame _ _ | .readMark _ | .emit _ => inferInstanceAs (Decidable True)

end Timers

/-! ## An application and its timers -/

/-- A duration that fits is added to a time as integers are. -/
theorem toInt_add_duration {horizon : ℕ} {t duration : Int64} (hpos : 0 ≤ t.toInt)
    (hle : t.toInt ≤ horizon) (hfits : horizon + duration.toInt < 2 ^ 63) :
    (t + duration).toInt = t.toInt + duration.toInt := by
  have hmin := duration.le_toInt
  rw [Int64.toInt_add, Int.bmod_eq_of_le] <;> omega

namespace Apprentice

variable {horizon : ℕ} {clock : Int64} {a : Apprentice} {sub : Subscription} {id : Int32}

theorem checkpoint_request (a : Apprentice) (sub : Subscription) (id : Int32) :
    (a.request sub).checkpoint id = if id = sub.id then a.now else a.checkpoint id := by
  rw [checkpoint, request, Table.lookup_insert_apply]
  split <;> rfl

/-- What holds of an application: no time is later than the clock, its subscriptions are told apart
by their ids, and what has happened was no later than the checkpoints. -/
structure Inv (horizon : ℕ) (clock : Int64) (a : Apprentice) : Prop where
  now : 0 ≤ a.now.toInt ∧ a.now.toInt ≤ clock.toInt
  frame : a.waiting ≠ [] → a.frame.toInt ≤ a.now.toInt
  marks : ∀ stamp ∈ a.marks, stamp.toInt ≤ clock.toInt
  checkpoints : ∀ id, 0 ≤ (a.checkpoint id).toInt ∧ (a.checkpoint id).toInt ≤ a.now.toInt
  ids : ∀ sub ∈ a.subscriptions, sub.id.toInt < a.timerUsageCount.toInt
  nodup : (a.subscriptions.map Subscription.id).Nodup
  waiting : a.waiting.Nodup ∧ a.waiting ⊆ a.subscriptions
  fits : ∀ sub ∈ a.subscriptions, sub.once = false → horizon + sub.duration.toInt < 2 ^ 63
  requests : ∀ r ∈ a.requests, r.repeat = 1 ∧ r.id.toInt < a.timerUsageCount.toInt ∧
    ∀ sub ∈ a.subscriptions, sub.once = false → r.id = sub.id → r.duration = sub.duration
  history : ∀ o ∈ a.history, o.subscription.id.toInt < a.timerUsageCount.toInt ∧
    (o.subscription.once = false → o.subscription ∈ a.subscriptions) ∧
    ∀ sub ∈ a.subscriptions, o.subscription.id = sub.id →
      o.time.toInt ≤ (a.checkpoint sub.id).toInt ∧ (o.ran = true → o.subscription.once = false)
  spaced : a.history.Pairwise Timers.Spaced

theorem Inv.clock_le (h : a.Inv horizon clock) {clock' : Int64} (hle : clock.toInt ≤ clock'.toInt) :
    a.Inv horizon clock' :=
  { h with
    now := ⟨h.now.1, h.now.2.trans hle⟩
    marks := fun stamp hmem => (h.marks stamp hmem).trans hle }

/-- The application reads a later time. -/
theorem Inv.now_le (h : a.Inv horizon clock) {t : Int64} (hle : a.now.toInt ≤ t.toInt)
    (hclock : t.toInt ≤ clock.toInt) : { a with now := t }.Inv horizon clock :=
  { h with
    now := ⟨h.now.1.trans hle, hclock⟩
    frame := fun hne => (h.frame hne).trans hle
    checkpoints := fun id => ⟨(h.checkpoints id).1, (h.checkpoints id).2.trans hle⟩ }

theorem Inv.readFrame (h : a.Inv horizon clock) {genTime : Int64}
    (hclock : genTime.toInt ≤ clock.toInt) : (a.readFrame genTime).Inv horizon clock := by
  unfold Apprentice.readFrame
  split
  · rename_i hlt
    exact h.now_le (Int64.lt_iff_toInt_lt.mp hlt).le hclock
  · exact h

theorem Inv.eq_of_id (h : a.Inv horizon clock) {sub sub' : Subscription}
    (hmem : sub ∈ a.subscriptions) (hmem' : sub' ∈ a.subscriptions) (hid : sub.id = sub'.id) :
    sub = sub' :=
  List.inj_on_of_nodup_map h.nodup hmem hmem' hid

theorem inv_start : start.Inv horizon 0 := by
  constructor <;> simp [start, checkpoint]

theorem toInt_succ_usage (hcount : a.timerUsageCount < Int32.maxValue) :
    (a.timerUsageCount + 1).toInt = a.timerUsageCount.toInt + 1 := by
  have hlt := Int32.lt_iff_toInt_lt.mp hcount
  have hmax : Int32.maxValue.toInt = 2 ^ 31 - 1 := by decide
  have hone : (1 : Int32).toInt = 1 := by decide
  have hmin := a.timerUsageCount.le_toInt
  rw [Int32.toInt_add, Int.bmod_eq_of_le] <;> omega

theorem Inv.subscribe (h : a.Inv horizon clock) {duration : Int64} {once : Bool}
    (hcount : a.timerUsageCount < Int32.maxValue)
    (hfits : once = false → horizon + duration.toInt < 2 ^ 63) :
    (a.subscribe duration once).Inv horizon clock := by
  have hsucc := toInt_succ_usage hcount
  have hfresh : ∀ sub ∈ a.subscriptions, sub.id ≠ a.timerUsageCount := by
    intro sub hmem heq
    have hlt := h.ids sub hmem
    rw [heq] at hlt
    omega
  have hcheckpoint : ∀ id, (a.subscribe duration once).checkpoint id =
      if id = a.timerUsageCount then a.now else a.checkpoint id :=
    checkpoint_request a ⟨a.timerUsageCount, duration, once⟩
  refine {
    now := h.now
    frame := h.frame
    marks := h.marks
    checkpoints := fun id => ?_
    ids := fun sub hmem => ?_
    nodup := ?_
    waiting := ⟨h.waiting.1, fun sub hmem => List.mem_append_left _ (h.waiting.2 hmem)⟩
    fits := fun sub hmem honce => ?_
    requests := fun r hmem => ?_
    history := fun o hmem => ?_
    spaced := ?_ }
  · rw [hcheckpoint]
    split
    · exact ⟨h.now.1, le_rfl⟩
    · exact h.checkpoints id
  · show sub.id.toInt < (a.timerUsageCount + 1).toInt
    rcases List.mem_append.mp hmem with hold | hnew
    · have hlt := h.ids sub hold
      omega
    · rw [List.mem_singleton.mp hnew]
      show a.timerUsageCount.toInt < _
      omega
  · show ((a.subscriptions ++ [_]).map Subscription.id).Nodup
    rw [List.map_append, List.nodup_append]
    refine ⟨h.nodup, by simp, ?_⟩
    rintro id hid id' hid' rfl
    obtain ⟨sub, hmem, rfl⟩ := List.mem_map.mp hid
    exact hfresh sub hmem (by simpa using hid')
  · rcases List.mem_append.mp hmem with hold | hnew
    · exact h.fits sub hold honce
    · rw [List.mem_singleton.mp hnew] at honce ⊢
      exact hfits honce
  · show _ ∧ r.id.toInt < (a.timerUsageCount + 1).toInt ∧ _
    rcases List.mem_append.mp hmem with hold | hnew
    · obtain ⟨hrepeat, hid, hduration⟩ := h.requests r hold
      refine ⟨hrepeat, by omega, fun sub hsub honce heq => ?_⟩
      rcases List.mem_append.mp hsub with hsub | hsub
      · exact hduration sub hsub honce heq
      · rw [heq, List.mem_singleton.mp hsub] at hid
        exact absurd hid (lt_irrefl _)
    · rw [List.mem_singleton.mp hnew]
      refine ⟨rfl, by show a.timerUsageCount.toInt < _; omega, fun sub hsub honce heq => ?_⟩
      rcases List.mem_append.mp hsub with hsub | hsub
      · exact absurd heq.symm (hfresh sub hsub)
      · rw [List.mem_singleton.mp hsub]
  · show o.subscription.id.toInt < (a.timerUsageCount + 1).toInt ∧ _
    rcases List.mem_cons.mp hmem with rfl | hold
    · refine ⟨by show a.timerUsageCount.toInt < _; omega, fun _ => by simp [Apprentice.subscribe], ?_⟩
      intro sub hsub heq
      rw [hcheckpoint, if_pos heq.symm]
      exact ⟨le_rfl, by simp⟩
    · obtain ⟨hid, hmem', htimes⟩ := h.history o hold
      refine ⟨by omega, fun honce => List.mem_append_left _ (hmem' honce), fun sub hsub heq => ?_⟩
      rcases List.mem_append.mp hsub with hsub | hsub
      · rw [hcheckpoint, if_neg (hfresh sub hsub)]
        exact htimes sub hsub heq
      · rw [heq, List.mem_singleton.mp hsub] at hid
        exact absurd hid (lt_irrefl _)
  · refine List.pairwise_cons.mpr ⟨fun o hmem hran => ?_, h.spaced⟩
    cases hran

/-- A mark is taken from those in flight. -/
theorem Inv.readMark (h : a.Inv horizon clock) : a.readMark.Inv horizon clock := by
  unfold Apprentice.readMark
  split
  · rename_i stamp marks hwaiting hmarks
    have hread := h.readFrame (h.marks stamp (by simp [hmarks]))
    have hstamp : stamp.toInt ≤ (a.readFrame stamp).now.toInt := by
      unfold Apprentice.readFrame
      dsimp only
      split
      · exact le_rfl
      · rename_i hlt
        exact not_lt.mp fun hlt' => hlt (Int64.lt_iff_toInt_lt.mpr hlt')
    exact { hread with
      frame := fun _ => hstamp
      marks := fun stamp' hmem => h.marks stamp' (by simp [hmarks, hmem])
      waiting := ⟨h.nodup.of_map _, fun _ hmem => hmem⟩ }
  · exact h

/-- A timer runs and is over. -/
theorem Inv.run_once (h : a.Inv horizon clock) (hsub : sub ∈ a.subscriptions)
    (hwaiting : sub ∉ a.waiting) (honce : sub.once = true) : (a.run sub).Inv horizon clock := by
  have hkept : ∀ sub' ∈ a.subscriptions.filter (· ≠ sub), sub' ∈ a.subscriptions :=
    fun _ hmem => (List.mem_filter.mp hmem).1
  have hother : ∀ sub' ∈ a.subscriptions.filter (· ≠ sub), sub.id ≠ sub'.id := by
    intro sub' hmem heq
    have hne := (List.mem_filter.mp hmem).2
    rw [h.eq_of_id hsub (hkept sub' hmem) heq] at hne
    simp at hne
  unfold Apprentice.run
  rw [if_pos honce]
  exact { h with
    ids := fun sub' hmem => h.ids sub' (hkept sub' hmem)
    nodup := h.nodup.sublist (List.filter_sublist.map _)
    waiting := ⟨h.waiting.1, fun sub' hmem => List.mem_filter.mpr ⟨h.waiting.2 hmem, by
      simpa using fun heq : sub' = sub => hwaiting (heq ▸ hmem)⟩⟩
    fits := fun sub' hmem => h.fits sub' (hkept sub' hmem)
    requests := fun r hr => by
      obtain ⟨hrepeat, hid, hduration⟩ := h.requests r hr
      exact ⟨hrepeat, hid, fun sub' hmem => hduration sub' (hkept sub' hmem)⟩
    history := fun o hmem => by
      rcases List.mem_cons.mp hmem with rfl | hold
      · refine ⟨h.ids sub hsub, fun hfalse => ?_, fun sub' hmem heq => ?_⟩
        · rw [honce] at hfalse
          cases hfalse
        · exact absurd heq (hother sub' hmem)
      · obtain ⟨hid, hmem', htimes⟩ := h.history o hold
        refine ⟨hid, fun hfalse => List.mem_filter.mpr ⟨hmem' hfalse, ?_⟩,
          fun sub' hmem => htimes sub' (hkept sub' hmem)⟩
        have hne : o.subscription ≠ sub := by
          rintro rfl
          rw [honce] at hfalse
          cases hfalse
        simpa using hne
    spaced := by
      refine List.pairwise_cons.mpr ⟨fun o hmem _ hid => ⟨fun hfalse => ?_, fun _ => ?_⟩, h.spaced⟩
      · rw [honce] at hfalse
        cases hfalse
      · obtain ⟨-, hmem', htimes⟩ := h.history o hmem
        by_contra hran
        -- the earlier run was an interval's, which is still subscribed to
        have hinterval := (htimes sub hsub hid.symm).2 (by simpa using hran)
        have heq := h.eq_of_id hsub (hmem' hinterval) hid
        rw [← heq, honce] at hinterval
        cases hinterval }

/-- An interval runs and asks anew. -/
theorem Inv.run_interval (h : a.Inv horizon clock) (hclock : clock.toInt ≤ horizon)
    (hsub : sub ∈ a.subscriptions) (hinterval : sub.once = false)
    (hframe : a.frame.toInt ≤ a.now.toInt) (haccepts : a.Accepts a.frame sub) :
    (a.run sub).Inv horizon clock := by
  have hcheckpoint : ∀ id, ({ a with history := ⟨sub, true, a.frame⟩ :: a.history }.request
      sub).checkpoint id = if id = sub.id then a.now else a.checkpoint id :=
    fun id => checkpoint_request _ _ _
  have hle : ∀ id, (a.checkpoint id).toInt ≤ (if id = sub.id then a.now else a.checkpoint id).toInt := by
    intro id
    split
    · exact (h.checkpoints id).2
    · exact le_rfl
  unfold Apprentice.run
  rw [if_neg (by simp [hinterval])]
  exact { h with
    checkpoints := fun id => by
      rw [hcheckpoint]
      split
      · exact ⟨h.now.1, le_rfl⟩
      · exact h.checkpoints id
    requests := fun r hmem => by
      rcases List.mem_append.mp hmem with hold | hnew
      · exact h.requests r hold
      · rw [List.mem_singleton.mp hnew]
        refine ⟨rfl, h.ids sub hsub, fun sub' hsub' _ heq => ?_⟩
        rw [h.eq_of_id hsub hsub' heq]
    history := fun o hmem => by
      rcases List.mem_cons.mp hmem with rfl | hold
      · refine ⟨h.ids sub hsub, fun _ => hsub, fun sub' _ heq => ⟨?_, fun _ => hinterval⟩⟩
        rw [hcheckpoint, if_pos heq.symm]
        exact hframe
      · obtain ⟨hid, hmem', htimes⟩ := h.history o hold
        refine ⟨hid, hmem', fun sub' hsub' heq => ⟨?_, (htimes sub' hsub' heq).2⟩⟩
        rw [hcheckpoint]
        exact (htimes sub' hsub' heq).1.trans (hle _)
    spaced := by
      refine List.pairwise_cons.mpr ⟨fun o hmem _ hid => ⟨fun _ => ?_, fun hfalse => ?_⟩, h.spaced⟩
      · have htime := ((h.history o hmem).2.2 sub hsub hid.symm).1
        have hpos := h.checkpoints sub.id
        have hsum := toInt_add_duration hpos.1 (hpos.2.trans (h.now.2.trans hclock))
          (h.fits sub hsub hinterval)
        have hlt := Int64.lt_iff_toInt_lt.mp haccepts
        dsimp only
        omega
      · rw [hinterval] at hfalse
        cases hfalse }

theorem Inv.emit (h : a.Inv horizon clock) (hclock : clock.toInt ≤ horizon) :
    a.emit.Inv horizon clock := by
  unfold Apprentice.emit
  cases hwaiting : a.waiting with
  | nil => exact h
  | cons sub waiting =>
      dsimp only
      have hsub : sub ∈ a.subscriptions := h.waiting.2 (by simp [hwaiting])
      have hframe := h.frame (by simp [hwaiting])
      have hnodup := h.waiting.1
      rw [hwaiting, List.nodup_cons] at hnodup
      have hrest : { a with waiting := waiting }.Inv horizon clock := { h with
        frame := fun _ => hframe
        waiting := ⟨hnodup.2, fun _ hmem => h.waiting.2 (by simp [hwaiting, hmem])⟩ }
      split
      · rename_i haccepts
        cases honce : sub.once with
        | true => exact hrest.run_once hsub hnodup.1 honce
        | false => exact hrest.run_interval hclock hsub honce hframe haccepts
      · exact hrest

/-! ### Intervals will run -/

variable {tasks : Int32 → Option TimerTask}

/-- Every interval will run again, given the tasks of the master. -/
def AllAwait (a : Apprentice) (tasks : Int32 → Option TimerTask) : Prop :=
  ∀ sub ∈ a.subscriptions, sub.once = false → a.Awaits (tasks sub.id) sub

/-- What is in flight, and the checkpoint, are all that matters to an interval. -/
theorem Awaits.of_fields {task : Option TimerTask} (h : a.Awaits task sub) (a' : Apprentice)
    (hcheckpoint : a'.checkpoint sub.id = a.checkpoint sub.id) (hrequests : a.requests ⊆ a'.requests)
    (hmarks : a.marks ⊆ a'.marks) (hwaiting : a'.waiting = a.waiting) (hframe : a'.frame = a.frame) :
    a'.Awaits task sub := by
  have haccepts : ∀ stamp, a'.Accepts stamp sub ↔ a.Accepts stamp sub := by
    intro stamp
    rw [Accepts, Accepts, hcheckpoint]
  simp only [Awaits, haccepts, hwaiting, hframe]
  rcases h with ⟨r, hr, hid⟩ | htask | ⟨stamp, hstamp, hacc⟩ | hwaits
  · exact .inl ⟨r, hrequests hr, hid⟩
  · exact .inr (.inl htask)
  · exact .inr (.inr (.inl ⟨stamp, hmarks hstamp, hacc⟩))
  · exact .inr (.inr (.inr hwaits))

theorem AllAwait.now (h : a.AllAwait tasks) (t : Int64) : { a with now := t }.AllAwait tasks :=
  fun sub hsub honce =>
    (h sub hsub honce).of_fields _ rfl (List.Subset.refl _) (List.Subset.refl _) rfl rfl

theorem AllAwait.readFrame (h : a.AllAwait tasks) (genTime : Int64) :
    (a.readFrame genTime).AllAwait tasks := by
  unfold Apprentice.readFrame
  exact h.now _

theorem AllAwait.subscribe (h : a.AllAwait tasks) (hinv : a.Inv horizon clock) (duration : Int64)
    (once : Bool) : (a.subscribe duration once).AllAwait tasks := by
  intro sub hsub honce
  rcases List.mem_append.mp hsub with hold | hnew
  · refine (h sub hold honce).of_fields _ ?_ (List.subset_append_left _ _) (List.Subset.refl _) rfl rfl
    have hne : sub.id ≠ a.timerUsageCount := by
      intro heq
      have hlt := hinv.ids sub hold
      rw [heq] at hlt
      omega
    have hcheckpoint := checkpoint_request a ⟨a.timerUsageCount, duration, once⟩ sub.id
    rwa [if_neg hne] at hcheckpoint
  · refine .inl ⟨_, List.mem_append_right _ (List.mem_singleton_self _), ?_⟩
    rw [List.mem_singleton.mp hnew]

theorem AllAwait.readMark (h : a.AllAwait tasks) : a.readMark.AllAwait tasks := by
  unfold Apprentice.readMark
  split
  · rename_i stamp marks hwaiting hmarks
    intro sub hsub honce
    rcases h sub hsub honce with hrequest | htask | ⟨stamp', hstamp, hacc⟩ | ⟨hwaits, -⟩
    · exact .inl hrequest
    · exact .inr (.inl htask)
    · rw [hmarks] at hstamp
      rcases List.mem_cons.mp hstamp with rfl | hrest
      · exact .inr (.inr (.inr ⟨hsub, hacc⟩))
      · exact .inr (.inr (.inl ⟨stamp', hrest, hacc⟩))
    · rw [hwaiting] at hwaits
      cases hwaits
  · exact h

/-- The mark has reached a subscription that does not take it, or another than this one. -/
theorem Awaits.tail {task : Option TimerTask} {sub' : Subscription} {waiting : List Subscription}
    (h : a.Awaits task sub) (hwaiting : a.waiting = sub' :: waiting)
    (hpassed : sub = sub' → ¬ a.Accepts a.frame sub') :
    { a with waiting := waiting }.Awaits task sub := by
  rcases h with hrequest | htask | hmark | ⟨hwaits, hacc⟩
  · exact .inl hrequest
  · exact .inr (.inl htask)
  · exact .inr (.inr (.inl hmark))
  · rw [hwaiting] at hwaits
    rcases List.mem_cons.mp hwaits with rfl | hrest
    · exact absurd hacc (hpassed rfl)
    · exact .inr (.inr (.inr ⟨hrest, hacc⟩))

theorem AllAwait.emit (h : a.AllAwait tasks) (hinv : a.Inv horizon clock) :
    a.emit.AllAwait tasks := by
  unfold Apprentice.emit
  cases hwaiting : a.waiting with
  | nil => exact h
  | cons sub' waiting =>
      dsimp only
      have hsub' : sub' ∈ a.subscriptions := hinv.waiting.2 (by simp [hwaiting])
      split
      · cases honce' : sub'.once with
        | true =>
            unfold run
            rw [if_pos honce']
            intro sub hsub honce
            obtain ⟨hsub, hne⟩ := List.mem_filter.mp hsub
            have htail := (h sub hsub honce).tail hwaiting fun heq => by simp [heq] at hne
            exact htail.of_fields _ rfl (List.Subset.refl _) (List.Subset.refl _) rfl rfl
        | false =>
            unfold run
            rw [if_neg (by simp [honce'])]
            intro sub hsub honce
            by_cases heq : sub = sub'
            · subst heq
              exact .inl ⟨_, List.mem_append_right _ (List.mem_singleton_self _), rfl⟩
            · have hid : sub.id ≠ sub'.id := fun hid => heq (hinv.eq_of_id hsub hsub' hid)
              have htail := (h sub hsub honce).tail hwaiting fun hsame => absurd hsame heq
              refine htail.of_fields _ ?_ (List.subset_append_left _ _) (List.Subset.refl _) rfl rfl
              rw [checkpoint_request, if_neg hid]
              rfl
      · rename_i hpassed
        intro sub hsub honce
        exact (h sub hsub honce).tail hwaiting fun _ => hpassed

end Apprentice

/-! ## Steps -/

namespace Timers

section Master

variable {m m' : Master} {uid uid' : UInt32} {id : Int32}

theorem tasksOf_setTasks {t : Tables} {tasks : AList fun _ : Int32 => TimerTask} :
    (t.setTasks uid tasks).tasksOf uid' = if uid' = uid then tasks else t.tasksOf uid' := by
  unfold Tables.setTasks Tables.tasksOf
  rw [Table.lookup_insert_apply]
  split <;> rfl

theorem lookup_onTimeRequest {clock : Clock} {request : TimeRequest} {id : Int32} :
    ((m.onTimeRequest clock uid request).tasksOf uid').lookup id =
      if uid' = uid ∧ id = request.id then
        some ⟨clock.now + request.duration, request.duration, request.repeat, 0⟩
      else (m.tasksOf uid').lookup id := by
  unfold Master.onTimeRequest Master.change
  rw [tasksOf_setTasks]
  by_cases huid : uid' = uid
  · subst huid
    rw [if_pos rfl, Table.lookup_insert_apply]
    simp
  · simp [huid]

/-- A task that is asked for once is over when it is due, and the application is told. -/
theorem handleTimerTask_ok {now : Int64}
    (honce : ∀ task, (m.tasksOf uid).lookup id = some task →
      task.repeatLimit = 1 ∧ task.repeatCount = 0)
    (h : m.handleTimerTask now uid id = .ok m') :
    if ∃ task ∈ (m.tasksOf uid).lookup id, task.checkpoint ≤ now then
      m'.toTables = m.setTasks uid ((m.tasksOf uid).erase id) ∧
        m'.written = m.written ++ [⟨uid, 0, .mark .Time⟩]
    else m' = m := by
  unfold Master.handleTimerTask at h
  cases hlookup : (m.tasksOf uid).lookup id with
  | none =>
      rw [hlookup] at h
      cases h
      simp
  | some task =>
      rw [hlookup] at h
      dsimp only at h
      obtain ⟨hlimit, hcount⟩ := honce task hlookup
      by_cases hdue : task.checkpoint ≤ now
      · rw [if_pos ⟨task, rfl, hdue⟩]
        rw [if_pos hdue] at h
        unfold Master.write at h
        by_cases hwriter : uid ∈ m.writers
        · rw [if_pos hwriter] at h
          have hlast : task.repeatLimit ≤ task.repeatCount + 1 := by
            rw [hlimit, hcount]
            decide
          simp only [bind, Except.bind, if_pos hlast] at h
          cases h
          exact ⟨rfl, rfl⟩
        · rw [if_neg hwriter] at h
          cases h
      · rw [if_neg hdue] at h
        cases h
        simp [hdue]

theorem lookup_handleTimerTask {now : Int64}
    (honce : ∀ task, (m.tasksOf uid).lookup id = some task →
      task.repeatLimit = 1 ∧ task.repeatCount = 0)
    (h : m.handleTimerTask now uid id = .ok m') (uid' : UInt32) (id' : Int32) :
    (m'.tasksOf uid').lookup id' =
      if uid' = uid ∧ id' = id ∧ ∃ task ∈ (m.tasksOf uid).lookup id, task.checkpoint ≤ now then none
      else (m.tasksOf uid').lookup id' := by
  have hok := handleTimerTask_ok honce h
  split at hok
  · rename_i hdue
    rw [hok.1, tasksOf_setTasks]
    by_cases huid : uid' = uid
    · subst huid
      rw [if_pos rfl, Table.lookup_erase_apply]
      simp only [true_and, and_iff_left hdue]
    · simp [huid]
  · rename_i hdue
    rw [hok, if_neg fun hboth => hdue hboth.2.2]

end Master

/-- What holds of every state: the readings of the clock, the applications, and the tasks. -/
structure Inv (horizon : ℕ) (s : Timers) : Prop where
  clock : 0 ≤ s.clock.toInt ∧ s.clock.toInt ≤ horizon
  passTime : s.passTime.toInt ≤ s.clock.toInt
  app : ∀ uid, (s.apps uid).Inv horizon s.clock
  once : ∀ uid id task, (s.master.tasksOf uid).lookup id = some task →
    task.repeatLimit = 1 ∧ task.repeatCount = 0
  awaits : ∀ uid, (s.apps uid).AllAwait (s.master.tasksOf uid).lookup

section Steps

variable {horizon : ℕ} {s : Timers} {uid : UInt32} {op : Op}

theorem Inv.keeps (h : s.Inv horizon) : s.Keeps where
  spaced := fun uid => (h.app uid).spaced
  awaits := fun uid o hmem honce =>
    h.awaits uid o.subscription (((h.app uid).history o hmem).2.1 honce) honce

theorem inv_start (horizon : ℕ) (m : Master) : (start m).Inv horizon where
  clock := ⟨by simp [start], by simp [start]⟩
  passTime := le_rfl
  app := fun _ => Apprentice.inv_start
  once := by simp [start, Master.change, Tables.tasksOf]
  awaits := by simp [start, Apprentice.AllAwait, Apprentice.start]

/-- The master and an application take a step. -/
theorem Inv.react (h : s.Inv horizon) (uid : UInt32) {a : Apprentice} {m : Master}
    (hinv : a.Inv horizon s.clock)
    (honce : ∀ uid id task, (m.tasksOf uid).lookup id = some task →
      task.repeatLimit = 1 ∧ task.repeatCount = 0)
    (hawaits : a.AllAwait (m.tasksOf uid).lookup)
    (hothers : ∀ uid', uid' ≠ uid → ∀ id,
      (m.tasksOf uid').lookup id = (s.master.tasksOf uid').lookup id) :
    Inv horizon { s with apps := Function.update s.apps uid a, master := m } := by
  refine ⟨h.clock, h.passTime, fun uid' => ?_, honce, fun uid' => ?_⟩
  · by_cases huid : uid' = uid
    · subst huid
      simpa using hinv
    · simpa [huid] using h.app uid'
  · by_cases huid : uid' = uid
    · subst huid
      simpa using hawaits
    · intro sub hsub hinterval
      dsimp only
      rw [hothers uid' huid]
      simp only [Function.update_of_ne huid] at hsub ⊢
      exact h.awaits uid' sub hsub hinterval

/-- An application takes a step by itself. -/
theorem Inv.modify (h : s.Inv horizon) {f : Apprentice → Apprentice}
    (hinv : (f (s.apps uid)).Inv horizon s.clock)
    (hawaits : (f (s.apps uid)).AllAwait (s.master.tasksOf uid).lookup) :
    (s.modify uid f).Inv horizon :=
  h.react uid hinv h.once hawaits fun _ _ _ => rfl

/-- The clock is read. -/
theorem Inv.reading (h : s.Inv horizon) {t : Int64} {f : Timers → Timers} (ht : t.toInt ≤ horizon)
    (hf : ∀ s' : Timers, s' = { s with clock := t } → s'.Inv horizon → s.clock.toInt < t.toInt →
      (f s').Inv horizon) : (s.reading t f).Inv horizon := by
  unfold Timers.reading
  split
  · rename_i hlt
    have hlt := Int64.lt_iff_toInt_lt.mp hlt
    refine hf _ rfl ⟨⟨h.clock.1.trans hlt.le, ht⟩, h.passTime.trans hlt.le, fun uid => ?_, h.once,
      h.awaits⟩ hlt
    exact (h.app uid).clock_le hlt.le
  · exact h

/-- A task that the master makes for an interval is due when the interval has waited. -/
theorem accepts_checkpoint {a : Apprentice} {sub : Subscription} {clock t : Int64}
    (h : a.Inv horizon clock) (hsub : sub ∈ a.subscriptions) (honce : sub.once = false)
    (hlt : clock.toInt < t.toInt) (ht : t.toInt ≤ horizon) : a.Accepts (t + sub.duration) sub := by
  have hcheckpoint := h.checkpoints sub.id
  have hnow := h.now
  have hfits := h.fits sub hsub honce
  rw [Apprentice.Accepts, Int64.lt_iff_toInt_lt,
    toInt_add_duration hcheckpoint.1 (by omega) hfits, toInt_add_duration (by omega) ht hfits]
  omega

/-- The master reads a request. -/
theorem Inv.onTimeRequest (h : s.Inv horizon) (uid : UInt32) {clock : Int64}
    (hclock : ∀ uid, (s.apps uid).Inv horizon clock) (hlt : clock.toInt < s.clock.toInt) :
    (s.onTimeRequest uid).Inv horizon := by
  unfold Timers.onTimeRequest
  cases hrequests : (s.apps uid).requests with
  | nil => exact h
  | cons request requests =>
      obtain ⟨hrepeat, -, hduration⟩ := (h.app uid).requests request (by simp [hrequests])
      refine h.react uid ?_ (fun uid' id task htask => ?_) ?_ fun uid' huid id => ?_
      · exact { h.app uid with
          requests := fun r hr => (h.app uid).requests r (by simp [hrequests, hr]) }
      · rw [lookup_onTimeRequest] at htask
        split at htask
        · cases htask
          exact ⟨hrepeat, rfl⟩
        · exact h.once uid' id task htask
      · intro sub hsub honce
        dsimp only
        rw [lookup_onTimeRequest]
        by_cases hid : sub.id = request.id
        · rw [if_pos ⟨rfl, hid⟩]
          refine .inr (.inl ⟨_, rfl, ?_⟩)
          rw [hduration sub hsub honce hid.symm]
          have haccepts := accepts_checkpoint (hclock uid) hsub honce hlt h.clock.2
          exact haccepts
        · rw [if_neg fun hboth => hid hboth.2]
          rcases h.awaits uid sub hsub honce with ⟨r, hr, hrid⟩ | hrest
          · rw [hrequests] at hr
            rcases List.mem_cons.mp hr with rfl | hr
            · exact absurd hrid.symm hid
            · exact .inl ⟨r, hr, hrid⟩
          · exact .inr hrest
      · rw [lookup_onTimeRequest, if_neg fun hboth => huid hboth.1]

/-- The master comes to a task. -/
theorem Inv.handleTimerTask (h : s.Inv horizon) (uid : UInt32) (id : Int32)
    (hlt : s.passTime.toInt < s.clock.toInt) : (s.handleTimerTask uid id).Inv horizon := by
  unfold Timers.handleTimerTask
  cases hok : s.master.handleTimerTask s.passTime uid id with
  | error fault => exact h
  | ok m =>
      dsimp only
      have hlookup := lookup_handleTimerTask (h.once uid id) hok
      refine h.react uid ?_ (fun uid' id' task htask => ?_) ?_ fun uid' huid id' => ?_
      · refine { h.app uid with marks := fun stamp hmem => ?_ }
        dsimp only at hmem
        split at hmem
        · rcases List.mem_append.mp hmem with hold | hnew
          · exact (h.app uid).marks stamp hold
          · rw [List.mem_singleton.mp hnew]
        · exact (h.app uid).marks stamp hmem
      · rw [hlookup] at htask
        split at htask
        · cases htask
        · exact h.once uid' id' task htask
      · intro sub hsub honce
        have hold := h.awaits uid sub hsub honce
        dsimp only
        rw [hlookup]
        by_cases hdue : s.Due uid id
        · rw [if_pos hdue]
          by_cases hid : sub.id = id
          · subst hid
            rw [if_pos ⟨rfl, rfl, hdue⟩]
            rcases hold with hrequest | ⟨task, htask, hacc⟩ | ⟨stamp, hstamp, hacc⟩ | hwaits
            · exact .inl hrequest
            · -- the mark is stamped after the time by which the task was due
              refine .inr (.inr (.inl ⟨s.clock, List.mem_append_right _ (by simp), ?_⟩))
              obtain ⟨task', htask', hle⟩ := hdue
              cases htask.symm.trans htask'
              have hpass := Int64.le_iff_toInt_le.mp hle
              exact Int64.lt_of_lt_of_le hacc (Int64.le_iff_toInt_le.mpr (hpass.trans hlt.le))
            · exact .inr (.inr (.inl ⟨stamp, List.mem_append_left _ hstamp, hacc⟩))
            · exact .inr (.inr (.inr hwaits))
          · rw [if_neg fun hboth => hid hboth.2.1]
            exact hold.of_fields _ rfl (List.Subset.refl _) (List.subset_append_left _ _) rfl rfl
        · rw [if_neg hdue, if_neg fun hboth => hdue hboth.2.2]
          exact hold
      · rw [hlookup, if_neg fun hboth => huid hboth.1]

theorem Inv.step (h : s.Inv horizon) (hfits : Fits horizon s op) : (s.step op).Inv horizon := by
  cases op with
  | notify uid t =>
      show (s.reading t fun s => s.modify uid (·.notify t)).Inv horizon
      refine h.reading hfits ?_
      rintro s' rfl hs' hlt
      refine hs'.modify ?_ ((hs'.awaits uid).now t)
      exact (hs'.app uid).now_le (((h.app uid).now.2).trans hlt.le) le_rfl
  | readFrame uid genTime =>
      unfold Timers.step
      dsimp only
      split
      · rename_i hclock
        refine h.modify ((h.app uid).readFrame (Int64.le_iff_toInt_le.mp hclock.2)) ?_
        exact (h.awaits uid).readFrame genTime
      · exact h
  | timer uid nanotime =>
      refine h.modify (f := (·.timer nanotime)) ((h.app uid).subscribe hfits fun hfalse => ?_) ?_
      · cases hfalse
      · exact (h.awaits uid).subscribe (h.app uid) _ true
  | timeInterval uid duration =>
      refine h.modify (f := (·.timeInterval duration))
        ((h.app uid).subscribe hfits.1 fun _ => hfits.2) ?_
      exact (h.awaits uid).subscribe (h.app uid) duration false
  | readMark uid => exact h.modify (h.app uid).readMark (h.awaits uid).readMark
  | emit uid => exact h.modify ((h.app uid).emit h.clock.2) ((h.awaits uid).emit (h.app uid))
  | onTimeRequest uid t =>
      show (s.reading t fun s => s.onTimeRequest uid).Inv horizon
      refine h.reading hfits ?_
      rintro s' rfl hs' hlt
      exact hs'.onTimeRequest uid h.app hlt
  | handleTimerTasks t =>
      show (s.reading t fun s => { s with passTime := t }).Inv horizon
      refine h.reading hfits ?_
      rintro s' rfl hs' hlt
      exact ⟨hs'.clock, le_rfl, hs'.app, hs'.once, hs'.awaits⟩
  | handleTimerTask uid id t =>
      show (s.reading t fun s => s.handleTimerTask uid id).Inv horizon
      refine h.reading hfits ?_
      rintro s' rfl hs' hlt
      exact hs'.handleTimerTask uid id (h.passTime.trans_lt hlt)

end Steps

/-- In every run in which no integer overflows, whatever the order of its steps, intervals run no
sooner than their durations, timers run once, and every interval will run again. -/
theorem timely_of_run (horizon : ℕ) (m : Master) (ops : List Op)
    (h : Along step (Fits horizon) (start m) ops) :
    Along step (fun s op => (s.step op).Keeps) (start m) ops :=
  h.along (P := Inv horizon) (fun _ _ hs hfits => hs.step hfits)
    (fun _ _ hs hfits => (hs.step hfits).keeps) (inv_start horizon m)

/-- A master that can write to one application. -/
def exampleMaster : Master :=
  (Master.start [] ⟨fun _ => ∅, fun _ => none⟩).change (Tables.emplaceWriter 5)

theorem timely_of_run_example :
    Along step (fun s op => (s.step op).Keeps) (start exampleMaster)
      [.notify 5 5, .timeInterval 5 10, .timer 5 8, .onTimeRequest 5 6, .onTimeRequest 5 7,
        .handleTimerTasks 16, .handleTimerTask 5 1 17, .handleTimerTask 5 0 18, .readMark 5, .emit 5,
        .emit 5] :=
  timely_of_run 18 exampleMaster _ (by decide)

/-- The duration of an interval is such that its sum with the time overflows. -/
theorem not_keeps_of_overflow :
    ¬ ((start exampleMaster).run [.notify 5 5, .timeInterval 5 Int64.maxValue, .onTimeRequest 5 6,
      .handleTimerTasks 7, .handleTimerTask 5 0 8, .readMark 5, .emit 5]).Keeps := by
  intro h
  have hspaced := h.spaced 5
  revert hspaced
  decide

end Timers

end Kungfu.Practice
