import Kungfu.Practice.Deregister

/-!
# The process table

The program of the master keeps, besides the registry, a table of the processes that checked in.
An application is deregistered when its process is found dead, at check-in or by the check that
runs every second, and when its process id comes back with another location.

Whether a process is alive is asked anew each time, and the answer may differ.
-/

namespace Kungfu.Practice

open Longfist Yijinjing Index Outcome

/-- What a call of `deregister_app` finds. -/
structure Call where
  uid : UInt32
  registered : Bool
  hasWriter : Bool

/-- The answers of `process_alive` during a check: in the first phase, and the two of the second
phase for each location. -/
structure Liveness where
  apprentice : Int32 → Bool
  tracked : UInt32 → Bool
  registered : UInt32 → Bool

/-- The program of the master; `calls` are its calls of `deregister_app` so far. -/
structure MasterApp extends Master where
  homeUid : UInt32
  lastTradingDay : Int64
  apprentices : AList fun _ : Int32 => Register
  calls : List Call

namespace MasterApp

section Model

variable (a : MasterApp)

def eraseApprentice (pid : Int32) : MasterApp :=
  { a with apprentices := a.apprentices.erase pid }

/-- `deregister_app`. -/
def deregister (triggerTime : Int64) (uid : UInt32) : Except Fault MasterApp := do
  let m ← a.toMaster.deregisterApp triggerTime uid
  .ok { a with
    toMaster := m
    calls := a.calls ++ [⟨uid, uid ∈ a.registry, uid ∈ a.writers⟩] }

/-- The end of `on_register`, which goes on only if the process is alive. -/
def checkIn (genTime : Int64) (register : Register) (alive : Bool) : Except Fault MasterApp :=
  if alive then .ok { a with apprentices := a.apprentices.insert register.pid register }
  else a.deregister genTime register.location.uid

def onRegister (genTime : Int64) (register : Register) (alive : Bool) : Except Fault MasterApp :=
  match a.apprentices.lookup register.pid with
  | none => a.checkIn genTime register alive
  | some old =>
      if old.location.uid = register.location.uid then .ok a
      else do
        let a ← a.deregister genTime old.location.uid
        (a.eraseApprentice register.pid).checkIn genTime register alive

def registerApp (genTime : Int64) (clock : Clock) (register : Register) (alive : Bool) :
    Except Fault MasterApp :=
  if register.location.uid ∈ a.registry then .ok a
  else do
    let m ← a.toMaster.registerApp genTime clock register
    let register := { register with
      lastActiveTime := a.builder.sessions.findLastActiveTime register.location.uid }
    { a with toMaster := m }.onRegister genTime register alive

/-! ### The check -/

/-- A process that was found dead in the first phase. -/
def cleanPid (now : Int64) (a : MasterApp) (pid : Int32) : Except Fault MasterApp :=
  match a.apprentices.lookup pid with
  | none => .ok a
  | some register => do
      let a ← a.deregister now register.location.uid
      .ok (a.eraseApprentice pid)

/-- The test of the second phase. -/
def IsStale (alive : Liveness) (uid : UInt32) (register : Register) : Prop :=
  uid ≠ a.homeUid ∧ ¬ (register.pid ∈ a.apprentices ∧ alive.tracked uid = true) ∧
    ¬ (register.location.category = .SYSTEM ∧ register.location.group = "node") ∧
    alive.registered uid = false

instance (alive : Liveness) (uid : UInt32) (register : Register) :
    Decidable (a.IsStale alive uid register) := inferInstanceAs (Decidable (_ ∧ _))

/-- A location whose process was found dead in the second phase. -/
def cleanLocation (now : Int64) (a : MasterApp) (uid : UInt32) : Except Fault MasterApp :=
  match a.registry.lookup uid with
  | none => a.deregister now uid
  | some register => (a.eraseApprentice register.pid).deregister now uid

def stalePids (alive : Liveness) : List Int32 :=
  a.apprentices.keys.filter fun pid => !alive.apprentice pid

def staleLocations (alive : Liveness) : List UInt32 :=
  (a.registry.entries.filter fun entry => a.IsStale alive entry.1 entry.2).map Sigma.fst

def healthCheck (now : Int64) (alive : Liveness) : Except Fault MasterApp := do
  let a ← (a.stalePids alive).foldlM (cleanPid now) a
  (a.staleLocations alive).foldlM (cleanLocation now) a

def switchTradingDay (clock : Clock) : Except Fault MasterApp :=
  if a.lastTradingDay < clock.tradingDay then do
    let m ← a.toMaster.writeTradingDay clock PUBLIC
    .ok { a with toMaster := m, lastTradingDay := clock.tradingDay }
  else .ok a

/-- `on_interval_check`; what it throws goes to the log. -/
def onIntervalCheck (clock : Clock) (alive : Liveness) : Except Fault MasterApp := do
  let a ← a.healthCheck clock.now alive
  a.switchTradingDay clock

end Model

/-! ## Runs -/

inductive Step
  | register (genTime : Int64) (clock : Clock) (register : Register) (alive : Bool)
  | intervalCheck (clock : Clock) (alive : Liveness)
  | frame (source : UInt32) (genTime : Int64) (frameLength : UInt32) (clock : Clock)
      (event : Master.Event)
  | active (clock : Clock)

def step (a : MasterApp) : Step → Except Fault MasterApp
  | .register genTime clock register alive => a.registerApp genTime clock register alive
  | .intervalCheck clock alive => a.onIntervalCheck clock alive
  | .frame source genTime frameLength clock event => do
      let m ← a.toMaster.step (.frame source genTime frameLength clock event)
      .ok { a with toMaster := m }
  | .active clock => do
      let m ← a.toMaster.step (.active clock)
      .ok { a with toMaster := m }

abbrev run (a : MasterApp) (steps : List Step) : Except Fault MasterApp := steps.foldlM step a

/-- The program as it starts. -/
def start (stored : List Location) (builder : SessionBuilder) (homeUid : UInt32)
    (tradingDay : Int64) : MasterApp where
  toMaster := Master.start stored builder
  homeUid := homeUid
  lastTradingDay := tradingDay
  apprentices := ∅
  calls := []

/-- No location registers whose uid is that of the public one. -/
def Step.Unreserved : Step → Prop
  | .register _ _ app _ => app.location.uid ≠ PUBLIC
  | _ => True

instance (s : Step) : Decidable s.Unreserved := by
  cases s <;> unfold Step.Unreserved <;> infer_instance

/-! ## Agreement -/

/-- The process ids and locations in the table of processes. -/
def apprenticePairs (a : MasterApp) : Set (Int32 × UInt32) :=
  {p | ∃ register, a.apprentices.lookup p.1 = some register ∧ register.location.uid = p.2}

/-- The process ids and locations in the registry. -/
def registryPairs (a : MasterApp) : Set (Int32 × UInt32) :=
  {p | ∃ register, a.registry.lookup p.2 = some register ∧ register.pid = p.1}

/-- Both tables are about the same processes, each with one location that has a writer, and what
was deregistered was registered with a writer. -/
structure Agrees (a : MasterApp) : Prop where
  pairs : a.apprenticePairs = a.registryPairs
  pid : ∀ p ∈ a.registryPairs, ∀ q ∈ a.registryPairs, p.1 = q.1 → p = q
  location : ∀ p ∈ a.registryPairs, ∀ q ∈ a.registryPairs, p.2 = q.2 → p = q
  writer : ∀ p ∈ a.registryPairs, p.2 ∈ a.writers
  calls : ∀ call ∈ a.calls, call.registered = true ∧ call.hasWriter = true

/-- Each table leads to the other. -/
structure Paired (apprentices : Int32 → Option Register) (registry : UInt32 → Option Register) :
    Prop where
  apprentice : ∀ pid register, apprentices pid = some register →
    register.pid = pid ∧ registry register.location.uid = some register
  registered : ∀ uid register, registry uid = some register →
    register.location.uid = uid ∧ apprentices register.pid = some register

/-- What is in the tables of a master that can go on. -/
structure Holds (apprentices : Int32 → Option Register) (registry : UInt32 → Option Register)
    (a : MasterApp) : Prop where
  consistent : a.Consistent
  apprentices : a.apprentices.lookup = apprentices
  registry : a.registry.lookup = registry
  calls : ∀ call ∈ a.calls, call.registered = true ∧ call.hasWriter = true

/-- What every step keeps. -/
structure Sound (a : MasterApp) : Prop where
  holds : Holds a.apprentices.lookup a.registry.lookup a
  paired : Paired a.apprentices.lookup a.registry.lookup
  unreserved : a.registry.lookup PUBLIC = none

section Paired

open Function

variable {apprentices : Int32 → Option Register} {registry : UInt32 → Option Register}
  {register : Register}

/-- A process that checks in is in both tables. -/
theorem Paired.insert (h : Paired apprentices registry) (hpid : apprentices register.pid = none)
    (huid : registry register.location.uid = none) :
    Paired (update apprentices register.pid (some register))
      (update registry register.location.uid (some register)) := by
  constructor
  · intro pid r hr
    by_cases hpid' : pid = register.pid
    · subst hpid'
      obtain rfl : register = r := by simpa using hr
      simp
    · rw [update_of_ne hpid'] at hr
      obtain ⟨hkey, hfound⟩ := h.apprentice pid r hr
      have hne : r.location.uid ≠ register.location.uid := by
        intro heq
        rw [heq, huid] at hfound
        cases hfound
      rw [update_of_ne hne]
      exact ⟨hkey, hfound⟩
  · intro uid r hr
    by_cases huid' : uid = register.location.uid
    · subst huid'
      obtain rfl : register = r := by simpa using hr
      simp
    · rw [update_of_ne huid'] at hr
      obtain ⟨hkey, hfound⟩ := h.registered uid r hr
      have hne : r.pid ≠ register.pid := by
        intro heq
        rw [heq, hpid] at hfound
        cases hfound
      rw [update_of_ne hne]
      exact ⟨hkey, hfound⟩

/-- A process that is gone is in neither. -/
theorem Paired.erase (h : Paired apprentices registry)
    (hregister : apprentices register.pid = some register) :
    Paired (update apprentices register.pid none) (update registry register.location.uid none) := by
  obtain ⟨-, hregistered⟩ := h.apprentice _ _ hregister
  constructor
  · intro pid r hr
    have hpid : pid ≠ register.pid := by
      rintro rfl
      simp at hr
    rw [update_of_ne hpid] at hr
    obtain ⟨hkey, hfound⟩ := h.apprentice pid r hr
    have hne : r.location.uid ≠ register.location.uid := by
      intro heq
      rw [heq, hregistered] at hfound
      obtain rfl : register = r := by simpa using hfound
      exact hpid hkey.symm
    rw [update_of_ne hne]
    exact ⟨hkey, hfound⟩
  · intro uid r hr
    have huid : uid ≠ register.location.uid := by
      rintro rfl
      simp at hr
    rw [update_of_ne huid] at hr
    obtain ⟨hkey, hfound⟩ := h.registered uid r hr
    have hne : r.pid ≠ register.pid := by
      intro heq
      rw [heq, hregister] at hfound
      obtain rfl : register = r := by simpa using hfound
      exact huid hkey.symm
    rw [update_of_ne hne]
    exact ⟨hkey, hfound⟩

end Paired

/-! ## What each part keeps -/

section Steps

variable {a a' : MasterApp} {m m₀ : Master} {uid : UInt32}

theorem Sound.agrees (h : a.Sound) : a.Agrees := by
  constructor
  · ext ⟨pid, uid⟩
    constructor
    · rintro ⟨register, hfound, rfl⟩
      obtain ⟨hpid, hregistered⟩ := h.paired.apprentice pid register hfound
      exact ⟨register, hregistered, hpid⟩
    · rintro ⟨register, hfound, rfl⟩
      obtain ⟨huid, happrentice⟩ := h.paired.registered uid register hfound
      exact ⟨register, happrentice, huid⟩
  · rintro ⟨pid, uid⟩ ⟨r, hr, rfl⟩ ⟨pid', uid'⟩ ⟨r', hr', rfl⟩ (heq : r.pid = r'.pid)
    obtain ⟨huid, happrentice⟩ := h.paired.registered uid r hr
    obtain ⟨huid', happrentice'⟩ := h.paired.registered uid' r' hr'
    rw [heq, happrentice'] at happrentice
    obtain rfl : r' = r := by simpa using happrentice
    exact Prod.ext rfl (huid.symm.trans huid')
  · rintro ⟨pid, uid⟩ ⟨r, hr, rfl⟩ ⟨pid', uid'⟩ ⟨r', hr', rfl⟩ (heq : uid = uid')
    subst heq
    obtain rfl : r = r' := by simpa [hr] using hr'
    rfl
  · rintro ⟨pid, uid⟩ ⟨r, hr, -⟩
    exact (h.holds.consistent.registered uid (AList.lookup_isSome.mp (by rw [hr]; rfl))).2
  · exact h.holds.calls

/-! ### Writing -/

theorem post_write_of_mem (hm : m₀.Writes m) {dest : UInt32} (h : dest ∈ m₀.writers)
    (triggerTime : Int64) (message : Message) :
    Post (m.write dest triggerTime message) m₀.Writes fun _ => False := by
  have hdest : dest ∈ m.writers := hm.toTables ▸ h
  rw [Master.write_of_mem hdest]
  exact hm.trans ⟨_, rfl⟩

theorem post_writeAll_of_mem (hm : m₀.Writes m) {dest : UInt32} (h : dest ∈ m₀.writers)
    (triggerTime : Int64) (messages : List Message) :
    Post (m.writeAll dest triggerTime messages) m₀.Writes fun _ => False :=
  post_foldlM hm fun _ _ _ hm' => post_write_of_mem hm' h triggerTime _

theorem post_requireWriteTo_of_mem (hm : m₀.Writes m) {source : UInt32} (h : source ∈ m₀.writers)
    (triggerTime : Int64) (dest : UInt32) :
    Post (m.requireWriteTo triggerTime source dest) m₀.Writes fun _ => False :=
  post_ite (fun _ => post_write_of_mem hm h triggerTime _) fun _ => hm

/-- What is written when an application registers is all written. -/
theorem post_announceApp_of_mem {register : Register} (hpublic : PUBLIC ∈ m.writers)
    (hcmd : register.location.uid ∈ m.writers) (genTime : Int64) (clock : Clock) :
    Post (m.announceApp genTime clock register) m.Writes fun _ => False := by
  unfold Master.announceApp
  apply (post_write_of_mem (Master.Writes.refl m) hcmd ..).bind
  intro m₁ hm₁
  apply (post_write_of_mem hm₁ hpublic ..).bind
  intro m₂ hm₂
  apply (post_write_of_mem hm₂ hpublic ..).bind
  intro m₃ hm₃
  apply (post_requireWriteTo_of_mem hm₃ hcmd ..).bind
  intro m₄ hm₄
  apply (post_requireWriteTo_of_mem hm₄ hcmd ..).bind
  intro m₅ hm₅
  apply (post_requireWriteTo_of_mem hm₅ hcmd ..).bind
  intro m₆ hm₆
  apply (post_write_of_mem hm₆ hcmd ..).bind
  intro m₇ hm₇
  apply (post_write_of_mem hm₇ hcmd ..).bind
  intro m₈ hm₈
  apply (post_writeAll_of_mem hm₈ hcmd ..).bind
  intro m₉ hm₉
  exact post_writeAll_of_mem hm₉ hcmd ..

/-- A new application is registered. -/
theorem post_registerApp_of_notMem {register : Register} (hm : m.Consistent)
    (huid : register.location.uid ∉ m.registry) (genTime : Int64) (clock : Clock) :
    Post (m.registerApp genTime clock register) (fun m' => m'.Consistent ∧
        m'.registry.lookup = Function.update m.registry.lookup register.location.uid
          (some { register with
            lastActiveTime := m.builder.sessions.findLastActiveTime register.location.uid }))
      fun _ => False := by
  have htables := Master.Tables.Consistent.enroll hm clock { register with
    lastActiveTime := m.builder.sessions.findLastActiveTime register.location.uid }
  rw [Master.registerApp, if_neg huid]
  apply (post_announceApp_of_mem htables.writesPublic List.mem_cons_self ..).imp
  intro m' hm'
  rw [hm'.toTables]
  exact ⟨htables, Table.lookup_tryEmplace_eq huid⟩

/-! ### Deregistration -/

section Holding

open Function

variable {apprentices : Int32 → Option Register} {registry : UInt32 → Option Register}
  {register : Register}

theorem Holds.sound (h : Holds apprentices registry a) (hpaired : Paired apprentices registry)
    (hpublic : registry PUBLIC = none) : a.Sound := by
  obtain rfl := h.apprentices
  obtain rfl := h.registry
  exact ⟨h, hpaired, hpublic⟩

theorem Holds.eraseApprentice (h : Holds apprentices registry a) (pid : Int32) :
    Holds (update apprentices pid none) registry (a.eraseApprentice pid) :=
  ⟨h.consistent, h.apprentices ▸ Table.lookup_erase_eq, h.registry, h.calls⟩

/-- A registered application is deregistered. -/
theorem Holds.deregister (h : Holds apprentices registry a) (hpublic : registry PUBLIC = none)
    (huid : registry uid = some register) (triggerTime : Int64) :
    Post (a.deregister triggerTime uid) (Holds apprentices (update registry uid none))
      fun _ => False := by
  have hne : uid ≠ PUBLIC := by
    rintro rfl
    simp [hpublic] at huid
  have hlookup : a.registry.lookup uid = some register := (congrFun h.registry uid).trans huid
  have hregistered : uid ∈ a.registry := AList.lookup_isSome.mp (by rw [hlookup]; rfl)
  obtain ⟨m', hderegister⟩ := Master.exists_deregisterApp h.consistent hregistered hne triggerTime
  obtain ⟨hkeeps, htables⟩ := (Master.post_deregisterApp ..).of_ok hderegister
  rw [MasterApp.deregister, hderegister, ok_bind]
  refine ⟨hkeeps.consistent h.consistent, h.apprentices, ?_, ?_⟩
  · have hregistry : m'.registry = a.registry.erase uid := by
      rw [htables]
      rfl
    rw [← h.registry, ← Table.lookup_erase_eq, ← hregistry]
  · intro call hcall
    rcases List.mem_append.mp hcall with hold | hnew
    · exact h.calls call hold
    · obtain rfl := List.mem_singleton.mp hnew
      simp [hregistered, (h.consistent.registered uid hregistered).2]

/-! ### Check-in -/

/-- A process that has just been registered, and that is in no other table, checks in or is
deregistered again. -/
theorem Holds.checkIn
    (h : Holds apprentices (update registry register.location.uid (some register)) a)
    (hpaired : Paired apprentices registry) (hpublic : registry PUBLIC = none)
    (hne : register.location.uid ≠ PUBLIC) (hpid : apprentices register.pid = none)
    (huid : registry register.location.uid = none) (genTime : Int64) (alive : Bool) :
    Post (a.checkIn genTime register alive) Sound fun _ => False := by
  have hpublic' : update registry register.location.uid (some register) PUBLIC = none := by
    rw [update_of_ne hne.symm, hpublic]
  cases alive with
  | true =>
      have hinserted : Holds (update apprentices register.pid (some register))
          (update registry register.location.uid (some register))
          { a with apprentices := a.apprentices.insert register.pid register } :=
        ⟨h.consistent, h.apprentices ▸ Table.lookup_insert_eq, h.registry, h.calls⟩
      exact hinserted.sound (hpaired.insert hpid huid) hpublic'
  | false =>
      apply (h.deregister hpublic' (update_self ..) genTime).imp
      intro a' ha'
      rw [update_idem, ← huid, update_eq_self] at ha'
      exact ha'.sound hpaired hpublic

/-- A process that has just been registered takes the place of one with its id. -/
theorem Holds.onRegister
    (h : Holds apprentices (update registry register.location.uid (some register)) a)
    (hpaired : Paired apprentices registry) (hpublic : registry PUBLIC = none)
    (hne : register.location.uid ≠ PUBLIC) (huid : registry register.location.uid = none)
    (genTime : Int64) (alive : Bool) :
    Post (a.onRegister genTime register alive) Sound fun _ => False := by
  unfold MasterApp.onRegister
  have hlookup : a.apprentices.lookup register.pid = apprentices register.pid :=
    congrFun h.apprentices register.pid
  rw [hlookup]
  cases hold : apprentices register.pid with
  | none => exact h.checkIn hpaired hpublic hne hold huid genTime alive
  | some old =>
      obtain ⟨hpid, hregistered⟩ := hpaired.apprentice _ _ hold
      -- its location was registered before, so it is another one
      have hother : old.location.uid ≠ register.location.uid := by
        intro heq
        rw [heq, huid] at hregistered
        cases hregistered
      have hpublic' : update registry register.location.uid (some register) PUBLIC = none := by
        rw [update_of_ne hne.symm, hpublic]
      have hregistered' : update registry register.location.uid (some register) old.location.uid =
          some old := by rw [update_of_ne hother, hregistered]
      simp only [hother, if_false]
      apply (h.deregister hpublic' hregistered' genTime).bind
      intro a₁ ha₁
      rw [update_comm hother.symm] at ha₁
      have hold' : apprentices old.pid = some old := hpid ▸ hold
      have herased := hpaired.erase hold'
      rw [hpid] at herased
      refine (ha₁.eraseApprentice register.pid).checkIn herased ?_ hne (update_self ..) ?_ genTime alive
      · have hne' : PUBLIC ≠ old.location.uid := by
          rintro heq
          rw [← heq, hpublic] at hregistered
          cases hregistered
        rw [update_of_ne hne', hpublic]
      · rw [update_of_ne hother.symm, huid]

theorem Sound.registerApp (h : a.Sound) (hne : register.location.uid ≠ PUBLIC) (genTime : Int64)
    (clock : Clock) (alive : Bool) :
    Post (a.registerApp genTime clock register alive) Sound fun _ => False := by
  apply post_ite
  · intro _
    exact h
  · intro huid
    apply (post_registerApp_of_notMem h.holds.consistent huid genTime clock).bind
    rintro m₁ ⟨hconsistent, hregistry⟩
    let new : Register := { register with
      lastActiveTime := a.builder.sessions.findLastActiveTime register.location.uid }
    have hm₁ : Holds a.apprentices.lookup
        (update a.registry.lookup new.location.uid (some new)) { a with toMaster := m₁ } :=
      ⟨hconsistent, rfl, hregistry, h.holds.calls⟩
    exact hm₁.onRegister h.paired h.unreserved hne (AList.lookup_eq_none.mpr huid) genTime alive

/-! ### The check -/

/-- A process that is gone is taken out of both tables. -/
theorem Sound.deregister (h : a.Sound) (hregister : a.registry.lookup uid = some register)
    (now : Int64) :
    Post (a.deregister now uid >>= fun a' => .ok (a'.eraseApprentice register.pid)) (fun a' =>
        a'.Sound ∧ a'.registry.lookup = update a.registry.lookup uid none) fun _ => False := by
  obtain ⟨huid, happrentice⟩ := h.paired.registered uid register hregister
  apply (h.holds.deregister h.unreserved hregister now).bind
  intro a₁ ha₁
  have herased := ha₁.eraseApprentice register.pid
  have hpaired := h.paired.erase happrentice
  rw [huid] at hpaired
  have hne : PUBLIC ≠ uid := by
    rintro rfl
    simp [h.unreserved] at hregister
  refine ⟨herased.sound hpaired ?_, herased.registry⟩
  rw [update_of_ne hne, h.unreserved]

theorem Sound.cleanPid (h : a.Sound) (now : Int64) (pid : Int32) :
    Post (a.cleanPid now pid) Sound fun _ => False := by
  unfold MasterApp.cleanPid
  cases hlookup : a.apprentices.lookup pid with
  | none => exact h
  | some register =>
      obtain ⟨hpid, hregistered⟩ := h.paired.apprentice pid register hlookup
      subst hpid
      exact (h.deregister hregistered now).imp fun _ => And.left

/-- The two tables may be changed one after the other. -/
theorem deregister_eraseApprentice (now : Int64) (pid : Int32) :
    (a.eraseApprentice pid).deregister now uid =
      a.deregister now uid >>= fun a' => .ok (a'.eraseApprentice pid) := by
  unfold MasterApp.deregister
  have hsame : (a.eraseApprentice pid).toMaster = a.toMaster := rfl
  rw [hsame]
  cases Master.deregisterApp now uid a.toMaster <;> rfl

theorem Sound.cleanLocation (h : a.Sound) (huid : uid ∈ a.registry) (now : Int64) :
    Post (a.cleanLocation now uid) (fun a' => a'.Sound ∧
      a'.registry.lookup = update a.registry.lookup uid none) fun _ => False := by
  obtain ⟨register, hregister⟩ := Option.isSome_iff_exists.mp (AList.lookup_isSome.mpr huid)
  unfold MasterApp.cleanLocation
  rw [hregister]
  simp only [deregister_eraseApprentice]
  exact h.deregister hregister now

theorem Sound.cleanLocations {uids : List UInt32} (h : a.Sound) (hnodup : uids.Nodup)
    (huids : ∀ uid ∈ uids, uid ∈ a.registry) (now : Int64) :
    Post (uids.foldlM (MasterApp.cleanLocation now) a) Sound fun _ => False := by
  induction uids generalizing a with
  | nil => exact h
  | cons uid uids ih =>
      obtain ⟨hnotMem, hnodup⟩ := List.nodup_cons.mp hnodup
      rw [List.foldlM_cons]
      apply (h.cleanLocation (huids uid List.mem_cons_self) now).bind
      rintro a₁ ⟨ha₁, hregistry⟩
      apply ih ha₁ hnodup
      intro uid' huid'
      have hne : uid' ≠ uid := by
        rintro rfl
        exact hnotMem huid'
      have hkept := congrFun hregistry uid'
      rw [update_of_ne hne] at hkept
      rw [← AList.lookup_isSome, hkept, AList.lookup_isSome]
      exact huids uid' (List.mem_cons_of_mem _ huid')

theorem Sound.healthCheck (h : a.Sound) (now : Int64) (alive : Liveness) :
    Post (a.healthCheck now alive) Sound fun _ => False := by
  apply (post_foldlM h fun a' pid _ ha' => ha'.cleanPid now pid).bind
  intro a₁ ha₁
  have hkeys : ((a₁.registry.entries.filter fun entry =>
      a₁.IsStale alive entry.1 entry.2).map Sigma.fst).Sublist a₁.registry.keys :=
    List.filter_sublist.map Sigma.fst
  refine ha₁.cleanLocations (hkeys.nodup a₁.registry.nodupKeys) (fun uid huid => ?_) now
  exact AList.mem_keys.mpr (hkeys.subset huid)

theorem Sound.onIntervalCheck (h : a.Sound) (clock : Clock) (alive : Liveness) :
    Post (a.onIntervalCheck clock alive) Sound fun _ => False := by
  apply (h.healthCheck clock.now alive).bind
  intro a₁ ha₁
  apply post_ite
  · intro _
    apply (post_write_of_mem (Master.Writes.refl _) ha₁.holds.consistent.writesPublic ..).bind
    intro m hm
    obtain ⟨more, rfl⟩ := hm
    exact ⟨⟨ha₁.holds.consistent, rfl, rfl, ha₁.holds.calls⟩, ha₁.paired, ha₁.unreserved⟩
  · intro _
    exact ha₁

/-! ### Runs -/

/-- A handler of the master leaves the table of processes as it is. -/
theorem Sound.handles (h : a.Sound) (hm : a.toMaster.Handles m) :
    Sound { a with toMaster := m } := by
  have hholds : Holds a.apprentices.lookup a.registry.lookup { a with toMaster := m } :=
    ⟨hm.consistent h.holds.consistent, rfl, congrArg (fun t u => AList.lookup u t) hm.registry,
      h.holds.calls⟩
  exact hholds.sound h.paired h.unreserved

theorem Sound.step (h : a.Sound) {s : Step} (hs : s.Unreserved) :
    Post (a.step s) Sound fun _ => True := by
  cases s with
  | register genTime clock register alive =>
      exact (h.registerApp hs genTime clock alive).mono (fun _ => id) fun _ => False.elim
  | intervalCheck clock alive =>
      exact (h.onIntervalCheck clock alive).mono (fun _ => id) fun _ => False.elim
  | frame source genTime frameLength clock event =>
      have hframe : Post (a.toMaster.step (.frame source genTime frameLength clock event))
          a.toMaster.Handles fun _ => True :=
        Master.post_handles_bind (Master.post_react ..) fun _ _ => Master.post_feed ..
      exact hframe.bind fun m hm => h.handles hm
  | active clock =>
      exact (Master.post_handleTimerTasks ..).bind fun m hm => h.handles hm

theorem sound_start (stored : List Location) (builder : SessionBuilder) (homeUid : UInt32)
    (tradingDay : Int64) : (start stored builder homeUid tradingDay).Sound := by
  refine ⟨⟨Master.consistent_start stored builder, rfl, rfl, nofun⟩, ⟨?_, ?_⟩, rfl⟩
  · intro pid register hr
    cases hr
  · intro uid register hr
    cases hr

end Holding

end Steps

section Main

variable {stored : List Location} {builder : SessionBuilder} {homeUid : UInt32}
  {tradingDay : Int64} {steps : List Step} {a : MasterApp}

theorem sound_of_run (hsteps : ∀ s ∈ steps, s.Unreserved)
    (hrun : (start stored builder homeUid tradingDay).run steps = .ok a) : a.Sound := by
  have hpost : Post ((start stored builder homeUid tradingDay).run steps) Sound fun _ => True :=
    post_foldlM (sound_start ..) fun a' s hs ha' => ha'.step (hsteps s hs)
  exact hpost.of_ok hrun

/-- Where no location registers with the uid of the public one, the table of processes and the
registry agree in every state, and every registration and every check completes. -/
theorem agrees_of_run (hsteps : ∀ s ∈ steps, s.Unreserved)
    (hrun : (start stored builder homeUid tradingDay).run steps = .ok a) :
    a.Agrees ∧
      (∀ genTime clock register alive, register.location.uid ≠ PUBLIC →
        ∃ a', a.registerApp genTime clock register alive = .ok a') ∧
      ∀ clock alive, ∃ a', a.onIntervalCheck clock alive = .ok a' := by
  have hsound := sound_of_run hsteps hrun
  have hcompletes : ∀ {x : Except Fault MasterApp}, Post x Sound (fun _ => False) →
      ∃ a', x = .ok a' := by
    intro x hx
    cases x with
    | ok a' => exact ⟨a', rfl⟩
    | error fault => exact hx.elim
  exact ⟨hsound.agrees,
    fun genTime clock register alive hne => hcompletes (hsound.registerApp hne genTime clock alive),
    fun clock alive => hcompletes (hsound.onIntervalCheck clock alive)⟩

/-- Two strategies check in under the same process id, and the second is found dead. -/
theorem agrees_of_run_example :
    ∃ a, (start [] Master.exampleBuilder 1000 0).run
        [.register 10 Master.exampleClock Master.exampleReader true,
          .register 20 Master.exampleClock { Master.exampleSource with pid := 100 } true,
          .intervalCheck Master.exampleClock ⟨fun _ => false, fun _ => false, fun _ => false⟩] = .ok a ∧
      a.calls.length = 2 ∧ a.Agrees := by
  have hrun : ((start [] Master.exampleBuilder 1000 0).run
      [.register 10 Master.exampleClock Master.exampleReader true,
        .register 20 Master.exampleClock { Master.exampleSource with pid := 100 } true,
        .intervalCheck Master.exampleClock
          ⟨fun _ => false, fun _ => false, fun _ => false⟩]).toOption.any
      (fun a => decide (a.calls.length = 2)) = true := by decide +kernel
  obtain ⟨a, hrun, hcalls⟩ := exists_of_any hrun
  exact ⟨a, hrun, of_decide_eq_true hcalls, (agrees_of_run (by decide) hrun).1⟩

/-- A strategy whose location has the uid of the public one. -/
def publicStrategy : Register := ⟨makeLocation .LIVE .STRATEGY "default" "pnegcor", 100, 0, 0⟩

/-- When it is deregistered, the writer to the public location is gone before it is used. -/
theorem public_uid_breaks :
    ∃ a, (start [] Master.exampleBuilder 1000 0).run
        [.register 10 Master.exampleClock publicStrategy true] = .ok a ∧
      a.onIntervalCheck Master.exampleClock ⟨fun _ => false, fun _ => false, fun _ => false⟩ =
        .error (.noWriter PUBLIC) := by
  have hrun : ((start [] Master.exampleBuilder 1000 0).run
      [.register 10 Master.exampleClock publicStrategy true]).toOption.any (fun a =>
        match a.onIntervalCheck Master.exampleClock
            ⟨fun _ => false, fun _ => false, fun _ => false⟩ with
        | .ok _ => false
        | .error fault => decide (fault = .noWriter PUBLIC)) = true := by decide +kernel
  obtain ⟨a, hrun, hfault⟩ := exists_of_any hrun
  refine ⟨a, hrun, ?_⟩
  cases hcheck : a.onIntervalCheck Master.exampleClock
      ⟨fun _ => false, fun _ => false, fun _ => false⟩ with
  | ok a' => simp [hcheck] at hfault
  | error fault => simpa [hcheck] using hfault

end Main

end MasterApp

end Kungfu.Practice
