import Kungfu.Logic.Run
import Kungfu.Practice.SessionCalls

/-!
# The sessions online and offline

While the master runs it opens, updates and closes sessions, and it marks in the journal of its
commands to an application where a session starts and ends.  The sessions that are rebuilt from the
journals are the same only as long as no frame of an application is counted, the marks are written
at the times of the calls, and nothing but marks is in the public journal of the master.
-/

namespace Kungfu.Practice

open Longfist Yijinjing Index Logic Outcome

/-! ## Journals -/

/-- The message type of a frame. -/
def Message.tag : Message → Int32
  | mark tag => tag.tag
  | location _ => 10026
  | register _ => 10011
  | deregister _ => 10012
  | channel _ => 10028
  | band _ => 10033
  | requestWriteTo _ => 10023
  | requestWriteToBand _ => 10032
  | requestReadFrom _ _ => 10021
  | requestReadFromPublic _ _ => 10022
  | requestReadFromSync _ _ => 10031
  | timeReset _ _ => 10100
  | tradingDay _ => 10027

/-- The data of a frame, where a mark has none. -/
def Message.data (bytes : Message → List UInt8) : Message → List UInt8
  | mark _ => []
  | message => bytes message

/-- The location from which the master writes with the writer of a key. -/
def writerLocation (dest : UInt32) : Location :=
  if dest = PUBLIC then masterHome else masterCmdLocation dest

/-- A frame that the master writes at a time. -/
def Written.entry (bytes : Message → List UInt8) (genTime : Int64) (w : Written) : Entry where
  location := writerLocation w.dest
  dest := w.dest
  frame := {
    genTime := genTime
    triggerTime := w.triggerTime
    msgType := w.message.tag
    source := (writerLocation w.dest).uid
    dest := w.dest
    data := w.message.data bytes }

/-- Frames that the master writes one after another. -/
def entriesOf (bytes : Message → List UInt8) (stamp : ℕ → Int64) (ws : List Written) : List Entry :=
  ws.mapIdx fun i w => w.entry bytes (stamp i)

/-- A frame that an application writes, and what the master makes of it. -/
structure AppFrame where
  location : Location
  dest : UInt32
  genTime : Int64
  triggerTime : Int64
  msgType : Int32
  data : List UInt8
  event : Master.Event

def AppFrame.entry (f : AppFrame) : Entry where
  location := f.location
  dest := f.dest
  frame := {
    genTime := f.genTime
    triggerTime := f.triggerTime
    msgType := f.msgType
    source := f.location.uid
    dest := f.dest
    data := f.data }
/-! ## The master and its applications -/

/-- The master with the calls that it has made, what was written to all journals, and the frames of
applications that it has not read; whether it has left. -/
structure World where
  master : Master
  calls : List SessionCall
  log : List Entry
  unread : List AppFrame
  exited : Bool

namespace World

/-- What the master does, as far as it depends on itself. -/
inductive Action
  | register (genTime : Int64) (clock : Clock) (register : Register)
  | deregister (triggerTime : Int64) (uid : UInt32)
  /-- One of the frames is read. -/
  | read (i : ℕ) (clock : Clock)
  | active (clock : Clock)
  | publishTimeReset (clock : Clock)
  | publishTradingDay (clock : Clock)

/-- The step of the master, if there is such a frame. -/
def Action.step (unread : List AppFrame) : Action → Option Master.Step
  | register genTime clock app => some (.register genTime clock app)
  | deregister triggerTime uid => some (.deregister triggerTime uid)
  | read i clock => unread[i]?.map fun f =>
      .frame f.location.uid f.genTime (.ofNat f.entry.frame.length) clock f.event
  | active clock => some (.active clock)
  | publishTimeReset clock => some (.publishTimeReset clock)
  | publishTradingDay clock => some (.publishTradingDay clock)

/-- The frames that are still unread. -/
def Action.rest (unread : List AppFrame) : Action → List AppFrame
  | read i _ => unread.eraseIdx i
  | register _ _ _ | deregister _ _ | active _ | publishTimeReset _ | publishTradingDay _ => unread

/-- An exit: the order of `live_sessions_`, the times that are read, and those at which the frames
are written. -/
structure Exit where
  order : List UInt32
  now : Int64
  now' : Int64
  now'' : Int64
  stamp : ℕ → Int64

/-- What the master writes. -/
def Exit.frames (e : Exit) (m : Master) : List Written :=
  m.framesOnExit e.order e.now e.now' e.now''

inductive Step
  /-- An application writes. -/
  | write (frame : AppFrame)
  /-- The master acts, and writes frames at the given times. -/
  | act (action : Action) (stamp : ℕ → Int64)
  /-- The master exits. -/
  | exit (exit : Exit)

variable (bytes : Message → List UInt8)

/-- The master does a step, and writes frames. -/
def perform (s : Master.Step) (stamp : ℕ → Int64) (w : World) : Except Fault World := do
  let m ← w.master.step s
  .ok { w with
    master := m
    calls := w.calls ++ w.master.calls s
    log := w.log ++ entriesOf bytes stamp (m.written.drop w.master.written.length) }

/-- The master closes all sessions, three times, and writes frames. -/
def leave (e : Exit) (w : World) : Except Fault World := do
  let m ← w.master.onExit e.order e.now e.now' e.now''
  .ok { w with
    master := m
    calls := w.calls ++
      [.closeAllSessions e.now, .closeAllSessions e.now', .closeAllSessions e.now'']
    log := w.log ++ entriesOf bytes e.stamp (m.written.drop w.master.written.length)
    exited := true }

def step (w : World) : Step → Except Fault World
  | .write frame => .ok { w with log := w.log ++ [frame.entry], unread := w.unread ++ [frame] }
  | .act action stamp =>
      if w.exited then .ok w
      else
        match action.step w.unread with
        | none => .ok w
        | some s => { w with unread := action.rest w.unread }.perform bytes s stamp
  | .exit e =>
      -- the order of an unordered map is not known
      if w.exited ∨ ¬ e.order.Perm (SessionCall.opened w.calls) then .ok w else w.leave bytes e

/-- The master as it starts: it opens its own session, and marks it at the time `stamp`. -/
def start (stored : List Location) (startTime stamp : Int64) : World :=
  let mark : Written := ⟨PUBLIC, startTime, .mark .SessionStart⟩
  { master := (Master.start stored (noSessions.openSession masterHome startTime)).record mark
    calls := [.openSession masterHome startTime]
    log := [mark.entry bytes stamp]
    unread := []
    exited := false }

variable {bytes} {w w' : World}

/-- What a step of the master adds. -/
theorem perform_eq_ok {s : Master.Step} {stamp : ℕ → Int64} (hw : w.master.Consistent)
    (h : w.perform bytes s stamp = .ok w') :
    w.master.step s = .ok w'.master ∧ w'.master.Consistent ∧ w'.unread = w.unread ∧
      w'.calls = w.calls ++ w.master.calls s ∧
      w'.master.builder = (w.master.calls s).foldl SessionCall.run w.master.builder ∧
      ∃ more, w'.master.written = w.master.written ++ (w.master.sessionMarks s ++ more) ∧
        w'.log = w.log ++ entriesOf bytes stamp (w.master.sessionMarks s ++ more) ∧
        ∀ written ∈ more, ¬ written.message.IsSessionMark := by
  obtain ⟨m, hm, h⟩ := exists_of_bind h
  cases h
  obtain ⟨hbuilder, more, hwritten, hmore⟩ := (Master.does_step hw s).of_ok hm
  refine ⟨hm, ((Master.post_step w.master s).of_ok hm).consistent hw, rfl, rfl, hbuilder, more,
    hwritten, ?_, hmore⟩
  rw [hwritten, List.drop_left]

/-- What the exit of the master adds. -/
theorem leave_eq_ok {e : Exit} (hw : w.master.Consistent) (h : w.leave bytes e = .ok w') :
    w'.master.toTables = w.master.toTables ∧
      w'.calls = w.calls ++
        [.closeAllSessions e.now, .closeAllSessions e.now', .closeAllSessions e.now''] ∧
      w'.master.builder = ((w.master.builder.closeAllSessions e.now).closeAllSessions
        e.now').closeAllSessions e.now'' ∧
      w'.log = w.log ++ entriesOf bytes e.stamp (e.frames w.master) := by
  rw [leave, Master.onExit_eq hw.writesPublic, ok_bind] at h
  cases h
  exact ⟨rfl, rfl, rfl, by rw [List.drop_left]; rfl⟩

end World

/-! ## Whose marks are whose -/

/-- The frame is a mark in a journal under whose name the location is found. -/
def IsMarkOf (app : Location) (e : Entry) : Prop :=
  e.IsMark ∧ formatKey app = some e.location.name

instance (app : Location) (e : Entry) : Decidable (IsMarkOf app e) :=
  inferInstanceAs (Decidable (_ ∧ _))

/-- The key of the writer that marks the sessions of a location. -/
def markDest (app : Location) : UInt32 := if app = masterHome then PUBLIC else app.uid

/-- A location from which an application writes, with a uid of its own. -/
structure Ordinary (app : Location) : Prop where
  notMasters : ¬ IsMasters app
  notPublic : app.uid ≠ PUBLIC
  notHome : app.uid ≠ masterHome.uid

theorem isMasters_masterHome : IsMasters masterHome := ⟨rfl, rfl⟩

theorem masterHome_ne_public : masterHome.uid ≠ PUBLIC := by decide +kernel

theorem formatKey_masterHome : formatKey masterHome = some "master" := by
  have hname : masterHome.name = "master" := rfl
  rw [formatKey, if_neg (not_not.mpr isMasters_masterHome), if_pos hname, hname]

section Marks

variable {app : Location} {bytes : Message → List UInt8} {genTime : Int64} {w : Written}

theorem Ordinary.ne_masterHome (h : Ordinary app) : app ≠ masterHome :=
  fun heq => h.notHome (heq ▸ rfl)

theorem Ordinary.markDest (h : Ordinary app) : markDest app = app.uid := if_neg h.ne_masterHome

theorem isMark_entry : (w.entry bytes genTime).IsMark ↔ w.message.IsSessionMark := by
  obtain ⟨dest, triggerTime, message⟩ := w
  cases message with
  | mark mark =>
      cases mark <;>
        simp [Entry.IsMark, Written.entry, Message.tag, Mark.tag, Message.IsSessionMark]
  | _ => simp [Entry.IsMark, Written.entry, Message.tag, Mark.tag, Message.IsSessionMark]

/-- A mark is found to be of the location whose writer wrote it. -/
theorem IsMarkOf.dest (happ : app = masterHome ∨ Ordinary app)
    (h : IsMarkOf app (w.entry bytes genTime)) : w.dest = markDest app := by
  have hkey : formatKey app = some (writerLocation w.dest).name := h.2
  rcases happ with rfl | happ
  · rw [formatKey_masterHome] at hkey
    unfold writerLocation at hkey
    split at hkey
    · rename_i hpublic
      exact hpublic.trans (if_pos rfl).symm
    · exact absurd (Option.some.inj hkey).symm (hex_ne_master w.dest)
  · rw [formatKey, if_pos happ.notMasters] at hkey
    unfold writerLocation at hkey
    split at hkey
    · exact absurd (Option.some.inj hkey) (hex_ne_master app.uid)
    · rw [happ.markDest]
      exact (hex_injective (Option.some.inj hkey)).symm

theorem isMarkOf_entry (happ : Ordinary app) (hdest : w.dest = app.uid)
    (hmark : w.message.IsSessionMark) : IsMarkOf app (w.entry bytes genTime) := by
  refine ⟨isMark_entry.mpr hmark, ?_⟩
  have hpublic : w.dest ≠ PUBLIC := hdest ▸ happ.notPublic
  rw [formatKey, if_pos happ.notMasters, Written.entry, writerLocation, if_neg hpublic, hdest]
  rfl

/-- The commands to an application are not counted for the master. -/
theorem not_isCounted_entry (hdest : w.dest ≠ PUBLIC) : ¬ IsCounted (w.entry bytes genTime) := by
  rintro ⟨-, -, hname⟩
  rw [Written.entry, writerLocation, if_neg hdest] at hname
  exact hex_ne_master w.dest (hname ⟨rfl, rfl⟩)

end Marks
/-! ## What the marks come to -/

/-- A session without frames. -/
def Bare (app : Location) (session : Index.Session) : Prop :=
  { session with beginTime := 0, updateTime := 0, endTime := 0 } = Index.Session.ofLocation app

namespace Ledger

variable {app : Location} {l : Ledger}

/-- The live session has no frames, and is stored. -/
structure Settled (app : Location) (l : Ledger) : Prop where
  bare : ∀ session, l.live = some session → Bare app session
  stored : ∀ session, l.live = some session → l.stored.lookup session.beginTime = some session

theorem settled_empty (app : Location) : empty.Settled app :=
  ⟨fun _ hsession => (nomatch hsession), fun _ hsession => (nomatch hsession)⟩

theorem settled_put {session : Index.Session} (h : Bare app session) (l : Ledger) :
    (l.put session).Settled app := by
  constructor
  · rintro _ ⟨⟩
    exact h
  · rintro _ ⟨⟩
    exact AList.lookup_insert _

/-- A session that goes on without frames is a new one. -/
theorem Settled.openSession_eq (h : l.Settled app) (time : Int64) :
    l.openSession app time =
      l.put { Index.Session.ofLocation app with beginTime := time, updateTime := time } := by
  unfold openSession
  cases hlive : l.live with
  | none => rfl
  | some session =>
    have hbare := h.bare session hlive
    congr 1
    exact congrArg (fun session : Index.Session =>
      { session with beginTime := time, endTime := 0, updateTime := time }) hbare

theorem Settled.follow (h : l.Settled app) (e : Entry) : (l.follow app e).Settled app := by
  unfold Ledger.follow
  split
  · rw [h.openSession_eq]
    apply settled_put
    rfl
  · split
    · unfold closeSession
      cases hlive : l.live with
      | none => exact h
      | some session =>
        apply settled_put
        exact h.bare session hlive
    · exact h

theorem settled_foldl (app : Location) (entries : List Entry) :
    (entries.foldl (Ledger.follow app) empty).Settled app := by
  suffices hall : ∀ l : Ledger, l.Settled app →
      (entries.foldl (Ledger.follow app) l).Settled app from
    hall empty (settled_empty app)
  intro l hl
  induction entries generalizing l with
  | nil => exact hl
  | cons e entries ih => exact ih _ (hl.follow e)

/-- What marks at one time, all of them the end of a session, come to. -/
theorem foldl_follow_ends {time : Int64} {entries : List Entry}
    (h : ∀ e ∈ entries, e.frame.msgType = Mark.SessionEnd.tag ∧ e.frame.genTime = time)
    (hne : entries ≠ []) (l : Ledger) :
    entries.foldl (Ledger.follow app) l = l.closeSession time := by
  have hfollow : ∀ e ∈ entries, ∀ l : Ledger, l.follow app e = l.closeSession time := by
    intro e he l
    obtain ⟨htag, htime⟩ := h e he
    rw [Ledger.follow, htag, if_neg (by decide), if_pos rfl, htime]
  induction entries generalizing l with
  | nil => exact absurd rfl hne
  | cons e entries ih =>
    rw [List.foldl_cons, hfollow e List.mem_cons_self]
    cases entries with
    | nil => rfl
    | cons e' entries =>
      rw [ih (fun e' he' => h e' (List.mem_cons_of_mem e he')) (List.cons_ne_nil _ _) _
          fun e' he' => hfollow e' (List.mem_cons_of_mem e he'),
        closeSession_closeSession]

end Ledger

/-! ## When the sessions agree -/

namespace World

/-- What a step of the master does to a location is marked when it is done. -/
def Timely (app : Location) (m : Master) (stamp : ℕ → Int64) : Master.Step → Prop
  | .register genTime _ register => register.location.uid = app.uid → app.uid ∉ m.registry →
      register.location = app ∧ ¬ IsMasters app ∧ stamp 0 = genTime
  | .deregister triggerTime uid => uid = app.uid → ¬ IsMasters app ∧ stamp 0 = triggerTime
  | .frame source _ _ _ _ => source = app.uid → app.uid ∉ m.registry
  | .active _ | .publishTimeReset _ | .publishTradingDay _ => True

/-- Nothing is written to the public journal. -/
def Quiet (m : Master) (s : Master.Step) : Prop :=
  ∀ m', m.step s = .ok m' → ∀ w ∈ m'.written.drop m.written.length, w.dest ≠ PUBLIC

/-- The session of a location ends with the master: it is marked as ended, at the time of the last
call, and the master tells of no other that is gone. -/
structure Ends (app : Location) (m : Master) (e : Exit) : Prop where
  alone : app = masterHome → ∀ uid ∈ e.order, uid = app.uid
  marked : app ≠ masterHome → app.uid ∈ e.order → app.uid ∈ m.writers
  timely : ∀ i w, (e.frames m)[i]? = some w → w.message.IsSessionMark → w.dest = markDest app →
    e.stamp i = e.now''

/-- The rebuilt sessions of a location follow a step: no frame is counted for the location, neither
when the master reads it nor afterwards, and its sessions are marked at the times of the calls. -/
def Agreeing (app : Location) (w : World) : Step → Prop
  | .write frame => ¬ IsMarkOf app frame.entry ∧
      (frame.location.uid = app.uid → ¬ IsCounted frame.entry)
  | .act action stamp => ∀ s, action.step w.unread = some s →
      Timely app w.master stamp s ∧ (app = masterHome → Quiet w.master s)
  | .exit e => Ends app w.master e

/-- The marks of a location are in its journal, and they come to what the calls describe. -/
structure Tracked (app : Location) (w : World) : Prop where
  consistent : w.master.Consistent
  builder : w.master.builder = w.calls.foldl SessionCall.run noSessions
  opened : ∀ location time, .openSession location time ∈ w.calls → location.uid = app.uid →
    location = app
  marks : ∀ e ∈ w.log, IsMarkOf app e →
    e.location = writerLocation (markDest app) ∧ e.dest = markDest app
  counted : ∀ e ∈ w.log, e.frame.source = app.uid → ¬ IsCounted e
  view_eq : view app.uid (SessionCall.describeAll w.calls) =
    (w.log.filter (IsMarkOf app)).foldl (Ledger.follow app) .empty

variable {app : Location} {bytes : Message → List UInt8} {stamp : ℕ → Int64} {w w' : World}
  {s : Master.Step}

theorem exists_of_mem_entriesOf {ws : List Written} {e : Entry}
    (h : e ∈ entriesOf bytes stamp ws) :
    ∃ i, ∃ written ∈ ws, e = written.entry bytes (stamp i) := by
  obtain ⟨i, hi, rfl⟩ := List.mem_mapIdx.mp h
  exact ⟨i, ws[i], List.getElem_mem hi, rfl⟩

theorem exists_mem_entriesOf (bytes : Message → List UInt8) (stamp : ℕ → Int64)
    {ws : List Written} {written : Written} (h : written ∈ ws) :
    ∃ i, written.entry bytes (stamp i) ∈ entriesOf bytes stamp ws := by
  obtain ⟨i, hi, rfl⟩ := List.getElem_of_mem h
  exact ⟨i, List.mem_mapIdx.mpr ⟨i, hi, rfl⟩⟩

/-- Frames that are no marks are found to be of no location. -/
theorem filter_entriesOf_append (ws : List Written) {more : List Written}
    (hmore : ∀ written ∈ more, ¬ written.message.IsSessionMark) :
    (entriesOf bytes stamp (ws ++ more)).filter (IsMarkOf app) =
      (entriesOf bytes stamp ws).filter (IsMarkOf app) := by
  rw [entriesOf, List.mapIdx_append, List.filter_append]
  refine (congrArg _ ?_).trans (List.append_nil _)
  rw [List.filter_eq_nil_iff]
  intro e he hmark
  obtain ⟨i, hi, rfl⟩ := List.mem_mapIdx.mp he
  exact hmore _ (List.getElem_mem hi) (isMark_entry.mp (of_decide_eq_true hmark).1)

/-- A mark of a location is in its journal. -/
theorem IsMarkOf.journal (happ : app = masterHome ∨ Ordinary app) {written : Written}
    {genTime : Int64} (h : IsMarkOf app (written.entry bytes genTime)) :
    (written.entry bytes genTime).location = writerLocation (markDest app) ∧
      (written.entry bytes genTime).dest = markDest app := by
  have hdest := h.dest happ
  exact ⟨congrArg writerLocation hdest, hdest⟩

/-- What the master writes is not counted for a location, unless the location is its own. -/
theorem not_isCounted_of_source (happ : app = masterHome ∨ Ordinary app) {written : Written}
    {genTime : Int64} (hsource : (written.entry bytes genTime).frame.source = app.uid)
    (hquiet : app = masterHome → written.dest ≠ PUBLIC) :
    ¬ IsCounted (written.entry bytes genTime) := by
  apply not_isCounted_entry
  rcases happ with rfl | happ
  · exact hquiet rfl
  · intro hdest
    apply happ.notHome
    rw [← hsource]
    show (writerLocation written.dest).uid = masterHome.uid
    rw [hdest]
    rfl

/-- A mark that no writer of the location wrote is not its own. -/
theorem filter_entriesOf_of_ne (happ : app = masterHome ∨ Ordinary app) {written : Written}
    (hne : written.dest ≠ markDest app) :
    (entriesOf bytes stamp [written]).filter (IsMarkOf app) = [] := by
  rw [List.filter_eq_nil_iff]
  intro e he hmark
  obtain ⟨i, written', hmem, rfl⟩ := exists_of_mem_entriesOf he
  obtain rfl := List.mem_singleton.mp hmem
  exact hne ((of_decide_eq_true hmark : IsMarkOf app _).dest happ)

/-- What a location's own mark comes to. -/
theorem foldl_follow_own (happ : Ordinary app) {written : Written} (hdest : written.dest = app.uid)
    (hmark : written.message.IsSessionMark) (l : Ledger) :
    ((entriesOf bytes stamp [written]).filter (IsMarkOf app)).foldl (Ledger.follow app) l =
      l.follow app (written.entry bytes (stamp 0)) := by
  have hown : IsMarkOf app (written.entry bytes (stamp 0)) := isMarkOf_entry happ hdest hmark
  have hentries : entriesOf bytes stamp [written] = [written.entry bytes (stamp 0)] := rfl
  simp [hentries, hown]

theorem ordinary_of_not_isMasters (happ : app = masterHome ∨ Ordinary app)
    (h : ¬ IsMasters app) : Ordinary app :=
  happ.resolve_left fun heq => h (heq ▸ isMasters_masterHome)

/-- What a step marks for a location is what its calls say of it. -/
theorem view_calls (happ : app = masterHome ∨ Ordinary app) {b : SessionBuilder} (hb : Keyed b)
    (hsettled : (view app.uid b).Settled app) {m : Master} (htimely : Timely app m stamp s)
    (hquiet : app = masterHome → ∀ written ∈ m.sessionMarks s, written.dest ≠ PUBLIC) :
    view app.uid ((m.calls s).foldl SessionCall.describe b) =
      ((entriesOf bytes stamp (m.sessionMarks s)).filter (IsMarkOf app)).foldl
        (Ledger.follow app) (view app.uid b) := by
  have hdest : ∀ written ∈ m.sessionMarks s,
      written.dest ≠ app.uid → written.dest ≠ markDest app := by
    intro written hmem hne
    rcases happ with rfl | happ
    · rw [markDest, if_pos rfl]
      exact hquiet rfl written hmem
    · rwa [happ.markDest]
  cases s with
  | register genTime clock register =>
    by_cases hregistered : register.location.uid ∈ m.registry
    · rw [Master.calls, Master.sessionMarks, if_pos hregistered, if_pos hregistered]
      rfl
    · rw [Master.sessionMarks, if_neg hregistered] at hdest
      rw [Master.calls, Master.sessionMarks, if_neg hregistered, if_neg hregistered]
      by_cases huid : register.location.uid = app.uid
      · obtain ⟨rfl, hmasters, rfl⟩ := htimely huid (huid ▸ hregistered)
        rw [foldl_follow_own (ordinary_of_not_isMasters happ hmasters) rfl (.inl rfl)]
        refine (view_put rfl _).trans ((if_pos rfl).trans ?_)
        exact (hsettled.openSession_eq (stamp 0)).symm
      · rw [filter_entriesOf_of_ne happ (hdest _ List.mem_cons_self huid)]
        refine SessionCall.view_foldl_describe_of_ne hb ?_
        simpa [SessionCall.Concerns, eq_comm] using huid
  | deregister triggerTime uid =>
    rw [Master.calls, Master.sessionMarks]
    by_cases huid : uid = app.uid
    · obtain ⟨hmasters, rfl⟩ := htimely huid
      rw [foldl_follow_own (ordinary_of_not_isMasters happ hmasters) huid (.inr rfl), ← huid]
      exact (view_closeSession hb uid (stamp 0) uid).trans (if_pos rfl)
    · rw [filter_entriesOf_of_ne happ (hdest _ List.mem_cons_self huid)]
      refine SessionCall.view_foldl_describe_of_ne hb ?_
      simpa [SessionCall.Concerns, eq_comm] using huid
  | frame source genTime frameLength clock event =>
    refine SessionCall.view_foldl_describe_of_ne hb fun call hcall huid => ?_
    rw [Master.calls] at hcall
    split at hcall
    · rename_i hregistered
      obtain rfl := List.mem_singleton.mp hcall
      exact htimely (Eq.symm huid) (huid ▸ hregistered)
    · cases hcall
  | active clock => rfl
  | publishTimeReset clock => rfl
  | publishTradingDay clock => rfl

/-- A session with the uid of a location is its own. -/
theorem Timely.location_eq {m : Master} (h : Timely app m stamp s) {location : Location}
    {time : Int64} (hmem : .openSession location time ∈ m.calls s) (huid : location.uid = app.uid) :
    location = app := by
  cases s with
  | register genTime clock register =>
    rw [Master.calls] at hmem
    split at hmem
    · cases hmem
    · rename_i hregistered
      obtain ⟨rfl, -⟩ := SessionCall.openSession.inj (List.mem_singleton.mp hmem)
      exact (h huid (huid ▸ hregistered)).1
  | frame source genTime frameLength clock event =>
    rw [Master.calls] at hmem
    split at hmem <;> simp at hmem
  | deregister triggerTime uid | active clock | publishTimeReset clock | publishTradingDay clock =>
    simp [Master.calls] at hmem

/-- A step of the master keeps a location tracked. -/
theorem Tracked.perform (happ : app = masterHome ∨ Ordinary app) (h : Tracked app w)
    (htimely : Timely app w.master stamp s) (hquiet : app = masterHome → Quiet w.master s)
    (hstep : w.perform bytes s stamp = .ok w') : Tracked app w' := by
  obtain ⟨hm, hconsistent, -, hcalls, hbuilder, more, hwritten, hlog, hmore⟩ :=
    perform_eq_ok h.consistent hstep
  have hpublic : app = masterHome → ∀ written ∈ w.master.sessionMarks s ++ more,
      written.dest ≠ PUBLIC := by
    intro hhome written hmem
    apply hquiet hhome _ hm
    rwa [hwritten, List.drop_left]
  constructor
  · exact hconsistent
  · rw [hbuilder, hcalls, List.foldl_append, h.builder]
  · intro location time hmem huid
    rw [hcalls] at hmem
    rcases List.mem_append.mp hmem with hmem | hmem
    · exact h.opened location time hmem huid
    · exact htimely.location_eq hmem huid
  · intro e he hmark
    rw [hlog] at he
    rcases List.mem_append.mp he with he | he
    · exact h.marks e he hmark
    · obtain ⟨i, written, -, rfl⟩ := exists_of_mem_entriesOf he
      exact IsMarkOf.journal happ hmark
  · intro e he hsource
    rw [hlog] at he
    rcases List.mem_append.mp he with he | he
    · exact h.counted e he hsource
    · obtain ⟨i, written, hmem, rfl⟩ := exists_of_mem_entriesOf he
      exact not_isCounted_of_source happ hsource fun hhome => hpublic hhome written hmem
  · rw [hlog, List.filter_append, List.foldl_append, ← h.view_eq, filter_entriesOf_append _ hmore,
      hcalls, SessionCall.describeAll, List.foldl_append]
    apply view_calls happ (SessionCall.keyed_foldl_describe keyed_noSessions w.calls) _ htimely
    · exact fun hhome written hmem => hpublic hhome written (List.mem_append_left more hmem)
    · exact (congrArg (Ledger.Settled app) h.view_eq).mpr (Ledger.settled_foldl app _)

/-- A session that is live is marked as ended. -/
theorem Ends.exists_mark (bytes : Message → List UInt8)
    (happ : app = masterHome ∨ Ordinary app) {e : Exit} {m : Master} (h : Ends app m e) (hm : m.liveUids e.order = e.order) (hlive : app.uid ∈ e.order) :
    ∃ entry ∈ entriesOf bytes e.stamp (e.frames m), IsMarkOf app entry := by
  rcases happ with rfl | happ
  · have hmem : ⟨PUBLIC, e.now', .mark .SessionEnd⟩ ∈ e.frames m :=
      Master.mem_framesOnExit.mpr (.inr (.inl rfl))
    obtain ⟨i, hi⟩ := exists_mem_entriesOf bytes e.stamp hmem
    exact ⟨_, hi, isMark_entry.mpr (.inr rfl), formatKey_masterHome⟩
  · have hwriter := h.marked happ.ne_masterHome hlive
    have hmem : ⟨app.uid, e.now', .mark .SessionEnd⟩ ∈ e.frames m :=
      Master.mem_framesOnExit.mpr (.inr (.inr (.inl ⟨app.uid, ⟨hm.symm ▸ hlive, hwriter⟩, rfl⟩)))
    obtain ⟨i, hi⟩ := exists_mem_entriesOf bytes e.stamp hmem
    exact ⟨_, hi, isMarkOf_entry happ rfl (.inr rfl)⟩

/-- What the exit of the master marks for a location is that its session is over. -/
theorem Ends.foldl_follow (happ : app = masterHome ∨ Ordinary app) {e : Exit} {m : Master}
    (h : Ends app m e) (hm : m.liveUids e.order = e.order) {b : SessionBuilder}
    (hlive : app.uid ∈ e.order ↔ (b.live app.uid).isSome) :
    ((entriesOf bytes e.stamp (e.frames m)).filter (IsMarkOf app)).foldl (Ledger.follow app)
      (view app.uid b) = (view app.uid b).closeSession e.now'' := by
  by_cases hmarked : (entriesOf bytes e.stamp (e.frames m)).filter (IsMarkOf app) = []
  · have hnone : b.live app.uid = none := by
      rw [← Option.not_isSome_iff_eq_none, ← hlive]
      intro hmem
      obtain ⟨entry, hentry, hmark⟩ := h.exists_mark bytes happ hm hmem
      exact List.filter_eq_nil_iff.mp hmarked entry hentry (decide_eq_true hmark)
    simp [hmarked, Ledger.closeSession, view, hnone]
  · apply Ledger.foldl_follow_ends _ hmarked
    intro entry hentry
    obtain ⟨hmem, hmark⟩ := List.mem_filter.mp hentry
    obtain ⟨i, hi, rfl⟩ := List.mem_mapIdx.mp hmem
    have hmark : IsMarkOf app _ := of_decide_eq_true hmark
    have hsession := isMark_entry.mp hmark.1
    have hend := Master.message_of_mem_framesOnExit (List.getElem_mem hi) hsession
    refine ⟨congrArg Message.tag hend, ?_⟩
    exact h.timely i _ (List.getElem?_eq_getElem hi) hsession (hmark.dest happ)

theorem Tracked.leave (happ : app = masterHome ∨ Ordinary app) (h : Tracked app w) {e : Exit}
    (horder : e.order.Perm (SessionCall.opened w.calls)) (hends : Ends app w.master e)
    (hstep : w.leave bytes e = .ok w') : Tracked app w' := by
  obtain ⟨htables, hcalls, hbuilder, hlog⟩ := leave_eq_ok h.consistent hstep
  have hkeyed : Keyed w.master.builder :=
    h.builder ▸ SessionCall.keyed_foldl_run keyed_noSessions w.calls
  have hdescribed : Keyed (SessionCall.describeAll w.calls) :=
    SessionCall.keyed_foldl_describe keyed_noSessions w.calls
  have hrun (uid : UInt32) : uid ∈ e.order ↔ (w.master.builder.live uid).isSome := by
    rw [horder.mem_iff, h.builder, SessionCall.isSome_live_foldl SessionCall.isSome_live_run]
  have hlive : app.uid ∈ e.order ↔ ((SessionCall.describeAll w.calls).live app.uid).isSome := by
    rw [horder.mem_iff, SessionCall.describeAll,
      SessionCall.isSome_live_foldl SessionCall.isSome_live_describe]
  have hm : w.master.liveUids e.order = e.order :=
    Master.liveUids_eq hkeyed fun uid huid => (hrun uid).mp huid
  constructor
  · exact htables ▸ h.consistent
  · rw [hbuilder, hcalls, List.foldl_append, ← h.builder]
    rfl
  · intro location time hmem huid
    apply h.opened location time _ huid
    simpa [hcalls] using hmem
  · intro entry hentry hmark
    rw [hlog] at hentry
    rcases List.mem_append.mp hentry with hentry | hentry
    · exact h.marks entry hentry hmark
    · obtain ⟨i, written, -, rfl⟩ := exists_of_mem_entriesOf hentry
      exact IsMarkOf.journal happ hmark
  · intro entry hentry hsource
    rw [hlog] at hentry
    rcases List.mem_append.mp hentry with hentry | hentry
    · exact h.counted entry hentry hsource
    · obtain ⟨i, written, hmem, rfl⟩ := exists_of_mem_entriesOf hentry
      by_cases hmark : written.message.IsSessionMark
      · exact fun hcounted => hcounted.1 (isMark_entry.mpr hmark)
      · refine not_isCounted_of_source happ hsource fun hhome hpublic => ?_
        subst hhome
        have halone := hends.alone rfl
        have hnone := Master.deregistersOnExit_eq_nil hkeyed halone
        rcases Master.mem_framesOnExit.mp hmem with
          ⟨message, hmessage, -⟩ | rfl | ⟨uid, -, rfl⟩ | ⟨uid, ⟨huid, -⟩, rfl⟩
        · rw [hnone] at hmessage
          cases hmessage
        · exact hmark (.inr rfl)
        · exact hmark (.inr rfl)
        · rw [hm] at huid
          exact masterHome_ne_public ((halone uid huid).symm.trans hpublic)
  · rw [hlog, List.filter_append, List.foldl_append, ← h.view_eq,
      hends.foldl_follow happ hm hlive, hcalls, SessionCall.describeAll, List.foldl_append]
    exact SessionCall.view_closeAllSessions_three hdescribed ..

theorem Tracked.step (happ : app = masterHome ∨ Ordinary app) (h : Tracked app w) {s : Step}
    (hs : Agreeing app w s) (hstep : w.step bytes s = .ok w') : Tracked app w' := by
  cases s with
  | write frame =>
    cases hstep
    obtain ⟨hmark, hcounted⟩ := hs
    refine ⟨h.consistent, h.builder, h.opened, ?_, ?_, ?_⟩
    · intro e he hmark'
      rcases List.mem_append.mp he with he | he
      · exact h.marks e he hmark'
      · exact absurd (List.mem_singleton.mp he ▸ hmark') hmark
    · intro e he hsource
      rcases List.mem_append.mp he with he | he
      · exact h.counted e he hsource
      · obtain rfl := List.mem_singleton.mp he
        exact hcounted hsource
    · simpa [hmark] using h.view_eq
  | act action stamp =>
    rw [World.step] at hstep
    split at hstep
    · cases hstep
      exact h
    · cases hs' : action.step w.unread with
      | none =>
        rw [hs'] at hstep
        cases hstep
        exact h
      | some s =>
        rw [hs'] at hstep
        obtain ⟨htimely, hquiet⟩ := hs s hs'
        have hrest : Tracked app { w with unread := action.rest w.unread } :=
          ⟨h.consistent, h.builder, h.opened, h.marks, h.counted, h.view_eq⟩
        exact hrest.perform happ htimely hquiet hstep
  | exit e =>
    rw [World.step] at hstep
    split at hstep
    · cases hstep
      exact h
    · rename_i hexit
      exact h.leave happ (not_not.mp (not_or.mp hexit).2) hs hstep

theorem tracked_start (happ : app = masterHome ∨ Ordinary app) (bytes : Message → List UInt8)
    (stored : List Location) {startTime stamp : Int64}
    (hstamp : app = masterHome → stamp = startTime) :
    Tracked app (start bytes stored startTime stamp) := by
  constructor
  · exact Master.consistent_start stored (noSessions.openSession masterHome startTime)
  · rfl
  · intro location time hmem huid
    obtain ⟨rfl, -⟩ := SessionCall.openSession.inj (List.mem_singleton.mp hmem)
    rcases happ with rfl | happ
    · rfl
    · exact absurd huid.symm happ.notHome
  · intro e he hmark
    obtain rfl := List.mem_singleton.mp he
    have hdest := hmark.dest happ
    exact ⟨congrArg writerLocation hdest, hdest⟩
  · intro e he _ hcounted
    obtain rfl := List.mem_singleton.mp he
    exact hcounted.1 (isMark_entry.mpr (.inl rfl))
  · rcases happ with rfl | happ
    · obtain rfl := hstamp rfl
      have hown : IsMarkOf masterHome
          (Written.entry bytes stamp ⟨PUBLIC, stamp, .mark .SessionStart⟩) :=
        ⟨isMark_entry.mpr (.inl rfl), formatKey_masterHome⟩
      have hfilter : (start bytes stored stamp stamp).log.filter (IsMarkOf masterHome) =
          (start bytes stored stamp stamp).log := List.filter_eq_self.mpr fun e he =>
        decide_eq_true (List.mem_singleton.mp he ▸ hown)
      rw [hfilter]
      exact (view_put rfl masterHome.uid).trans (if_pos rfl)
    · have hfilter : (start bytes stored startTime stamp).log.filter (IsMarkOf app) = [] := by
        rw [List.filter_eq_nil_iff]
        intro e he hmark
        obtain rfl := List.mem_singleton.mp he
        have hdest := (of_decide_eq_true hmark : IsMarkOf app _).dest (.inr happ)
        exact happ.notPublic (happ.markDest ▸ hdest).symm
      rw [hfilter]
      exact (view_put rfl app.uid).trans (if_neg happ.notHome)

theorem tracked_of_run (happ : app = masterHome ∨ Ordinary app) {stored : List Location}
    {startTime stamp : Int64} (hstamp : app = masterHome → stamp = startTime) {steps : List Step}
    (hsteps : AlongM (step bytes) (Agreeing app) (start bytes stored startTime stamp) steps)
    (hrun : steps.foldlM (step bytes) (start bytes stored startTime stamp) = .ok w) :
    Tracked app w :=
  hsteps.foldlM (fun _ _ _ h hs hstep => Tracked.step happ h hs hstep) hrun
    (tracked_start happ bytes stored hstamp)

end World

/-! ## The rebuilt sessions -/

/-- What is listed of the locations: those whose sessions were opened, and none that is taken for
another. -/
structure Lists (app : Location) (calls : List SessionCall) (listed : List Location) : Prop where
  opened : ∀ time, .openSession app time ∈ calls → app ∈ listed
  unique : ∀ location ∈ listed, location.uid = app.uid → location = app
  master : ∀ location ∈ listed, formatKey location = some "master" → location = masterHome

/-- What is known of a session, when it was last changed left aside. -/
def factsOf (session : Index.Session) : Index.Session := { session with updateTime := 0 }

/-- The stored sessions of a location are the same. -/
def SameSessions (stored stored' : AList fun _ : Int64 => Index.Session) : Prop :=
  ∀ begins, (stored.lookup begins).map factsOf = (stored'.lookup begins).map factsOf

theorem Lists.locationOf_iff {app : Location} (happ : app = masterHome ∨ Ordinary app)
    {calls : List SessionCall} {listed : List Location} (h : Lists app calls listed)
    (hlisted : app ∈ listed) {name : String} :
    locationOf listed name = some app ↔ formatKey app = some name := by
  refine ⟨fun hname => (locationOf_eq_some hname).2, fun hname => ?_⟩
  apply locationOf_of_unique hlisted hname
  intro location hlocation hname'
  rcases happ with rfl | happ
  · exact h.master location hlocation (hname'.trans (hname.symm.trans formatKey_masterHome))
  · apply h.unique location hlocation
    rw [formatKey, if_pos happ.notMasters] at hname
    rcases formatKey_eq_some hname' with ⟨-, hhex⟩ | ⟨-, -, hmaster⟩
    · exact hex_injective (hhex.symm.trans (Option.some.inj hname).symm)
    · exact absurd ((Option.some.inj hname).trans hmaster) (hex_ne_master app.uid)

namespace World

variable {app : Location} {bytes : Message → List UInt8} {w : World} {listed : List Location}
  {out : List Entry}

/-- What is delivered comes to what the calls describe. -/
theorem Tracked.view_rebuilt (happ : app = masterHome ∨ Ordinary app) (h : Tracked app w)
    (hlisted : Lists app w.calls listed) (hout : Delivers w.log out) :
    view app.uid (out.foldl (rebuildFrame listed) noSessions) =
      view app.uid (SessionCall.describeAll w.calls) := by
  rw [view_foldl_rebuildFrame keyed_noSessions hlisted.unique fun e he => h.counted e (hout.mem he)]
  by_cases hmem : app ∈ listed
  · have hfilter : (out.filter fun e => e.IsMark ∧ locationOf listed e.location.name = some app) =
        out.filter (IsMarkOf app) :=
      List.filter_congr fun e _ => decide_eq_decide.mpr <|
        and_congr_right fun _ => hlisted.locationOf_iff happ hmem
    have hjournal : ∀ entries : List Entry, (∀ e ∈ entries, e ∈ w.log) →
        entries.filter (IsMarkOf app) = (entries.filter fun e =>
          e.location = writerLocation (markDest app) ∧ e.dest = markDest app).filter
            (IsMarkOf app) := by
      intro entries hentries
      rw [List.filter_filter]
      refine List.filter_congr fun e he => ?_
      by_cases hmark : IsMarkOf app e
      · simp [hmark, h.marks e (hentries e he) hmark]
      · simp [hmark]
    rw [hfilter, h.view_eq, hjournal out fun e => hout.mem, hjournal w.log fun _ => id, hout]
    rfl
  · have hfilter : (out.filter fun e => e.IsMark ∧ locationOf listed e.location.name = some app) =
        [] := by
      rw [List.filter_eq_nil_iff]
      intro e _ hmark
      exact hmem (locationOf_eq_some (of_decide_eq_true hmark).2).1
    rw [hfilter]
    refine (SessionCall.view_foldl_describe_of_unopened keyed_noSessions rfl ?_).symm
    intro location time hcall huid
    obtain rfl := h.opened location time hcall huid
    exact hmem (hlisted.opened time hcall)

/-- In a run whose steps agree with a location, the sessions that are rebuilt for it in any state
that is reached are those that the calls of the master describe. -/
theorem rebuild_agrees (happ : app = masterHome ∨ Ordinary app) {stored : List Location}
    {startTime stamp : Int64} (hstamp : app = masterHome → stamp = startTime) {steps : List Step}
    (hsteps : AlongM (step bytes) (Agreeing app) (start bytes stored startTime stamp) steps)
    (hrun : steps.foldlM (step bytes) (start bytes stored startTime stamp) = .ok w)
    (hlisted : Lists app w.calls listed) (hout : Delivers w.log out) :
    SameSessions (rebuild listed out app.uid) (described w.calls app.uid) := by
  have htracked : Tracked app w := tracked_of_run happ hstamp hsteps hrun
  have hview := htracked.view_rebuilt happ hlisted hout
  have hsettled : (view app.uid (SessionCall.describeAll w.calls)).Settled app := by
    rw [htracked.view_eq]
    exact Ledger.settled_foldl app _
  have hkeyed : Keyed (out.foldl (rebuildFrame listed) noSessions) :=
    keyed_foldl_rebuildFrame listed out
  intro begins
  congr 1
  rw [rebuild, lookup_storeLive hkeyed]
  · exact congrArg (fun l : Ledger => l.stored.lookup begins) hview
  · rw [← hview] at hsettled
    exact hsettled.stored

/-! ### A strategy -/

def exampleStrategy : Location := makeLocation .LIVE .STRATEGY "default" "demo"

/-- The strategy registers, deregisters and registers again. -/
def exampleSteps : List Step :=
  [.act (.register 10 ⟨10, 0, 0, 0⟩ ⟨exampleStrategy, 100, 0, 0⟩) fun _ => 10,
    .act (.deregister 20 exampleStrategy.uid) fun _ => 20,
    .act (.register 30 ⟨30, 0, 0, 0⟩ ⟨exampleStrategy, 100, 0, 0⟩) fun _ => 30]

/-- The master exits while the strategy is there. -/
def exampleExit : Exit where
  order := [exampleStrategy.uid, masterHome.uid]
  now := 40
  now' := 40
  now'' := 40
  stamp _ := 40

def exampleRun : List Step := exampleSteps ++ [.exit exampleExit]

theorem ordinary_exampleStrategy : Ordinary exampleStrategy :=
  ⟨by decide, by decide +kernel, by decide +kernel⟩

theorem lists_exampleStrategy (calls : List SessionCall) :
    Lists exampleStrategy calls [masterHome, exampleStrategy] :=
  ⟨fun _ _ => by simp, by decide +kernel, by decide +kernel⟩

theorem agreeing_exampleRun :
    AlongM (step fun _ => []) (Agreeing exampleStrategy) (start (fun _ => []) [] 5 6)
      exampleRun := by
  have hhome : exampleStrategy ≠ masterHome := ordinary_exampleStrategy.ne_masterHome
  have hmasters : ¬ IsMasters exampleStrategy := ordinary_exampleStrategy.notMasters
  apply AlongM.concat
  · apply AlongM.of_forall
    intro step hstep w
    simp only [exampleSteps, List.mem_cons, List.not_mem_nil, or_false] at hstep
    rcases hstep with rfl | rfl | rfl <;> rintro s ⟨⟩
    · exact ⟨fun _ _ => ⟨rfl, hmasters, rfl⟩, fun h => absurd h hhome⟩
    · exact ⟨fun _ => ⟨hmasters, rfl⟩, fun h => absurd h hhome⟩
    · exact ⟨fun _ _ => ⟨rfl, hmasters, rfl⟩, fun h => absurd h hhome⟩
  · intro w hw
    have hwriters : (exampleSteps.foldlM (step fun _ => [])
        (start (fun _ => []) [] 5 6)).toOption.all
          (fun w => decide (exampleStrategy.uid ∈ w.master.writers)) = true := by
      decide +kernel
    rw [hw] at hwriters
    exact ⟨fun h => absurd h hhome, fun _ _ => of_decide_eq_true hwriters, fun _ _ _ _ _ => rfl⟩

/-- One session of it ends before it is gone, and one with the master. -/
theorem rebuild_agrees_example :
    ∃ w, exampleRun.foldlM (step fun _ => []) (start (fun _ => []) [] 5 6) = .ok w ∧
      (described w.calls exampleStrategy.uid).entries.map (fun entry =>
        (entry.2.beginTime, entry.2.endTime)) = [(30, 40), (10, 20)] ∧
      SameSessions (rebuild [masterHome, exampleStrategy] w.log exampleStrategy.uid)
        (described w.calls exampleStrategy.uid) := by
  have hrun : (exampleRun.foldlM (step fun _ => []) (start (fun _ => []) [] 5 6)).toOption.any
      (fun w => decide ((described w.calls exampleStrategy.uid).entries.map (fun entry =>
        (entry.2.beginTime, entry.2.endTime)) = [(30, 40), (10, 20)])) = true := by
    decide +kernel
  obtain ⟨w, hrun, htimes⟩ := exists_of_any hrun
  refine ⟨w, hrun, of_decide_eq_true htimes, ?_⟩
  exact rebuild_agrees (.inr ordinary_exampleStrategy)
    (fun hhome => absurd hhome ordinary_exampleStrategy.ne_masterHome) agreeing_exampleRun hrun
    (lists_exampleStrategy w.calls) fun _ _ => rfl

/-- The strategy writes a frame, which the master reads before it is gone. -/
def exampleFrame : AppFrame where
  location := exampleStrategy
  dest := PUBLIC
  genTime := 12
  triggerTime := 12
  msgType := 201
  data := [1, 2, 3, 4]
  event := .other

/-- The master reads the frame while the session is open. -/
def countedRun : List Step :=
  [.act (.register 10 ⟨10, 0, 0, 0⟩ ⟨exampleStrategy, 100, 0, 0⟩) fun _ => 10,
    .write exampleFrame, .act (.read 0 ⟨15, 0, 0, 0⟩) fun _ => 15,
    .act (.deregister 20 exampleStrategy.uid) fun _ => 20]

/-- The frame is counted for the session, but not when the session is rebuilt. -/
theorem frame_not_counted :
    ∃ w, countedRun.foldlM (step fun _ => []) (start (fun _ => []) [] 5 5) = .ok w ∧
      Lists exampleStrategy w.calls [masterHome, exampleStrategy] ∧ Delivers w.log w.log ∧
      ((described w.calls exampleStrategy.uid).lookup 10).map Index.Session.frameCount = some 1 ∧
      ((rebuild [masterHome, exampleStrategy] w.log exampleStrategy.uid).lookup 10).map
        Index.Session.frameCount = some 0 := by
  have hrun : (countedRun.foldlM (step fun _ => []) (start (fun _ => []) [] 5 5)).toOption.any
      (fun w => decide
        (((described w.calls exampleStrategy.uid).lookup 10).map Index.Session.frameCount = some 1 ∧
        ((rebuild [masterHome, exampleStrategy] w.log exampleStrategy.uid).lookup 10).map
          Index.Session.frameCount = some 0)) = true := by
    decide +kernel
  obtain ⟨w, hrun, hcounts⟩ := exists_of_any hrun
  exact ⟨w, hrun, lists_exampleStrategy w.calls, fun _ _ => rfl, of_decide_eq_true hcounts⟩

end World

end Kungfu.Practice
