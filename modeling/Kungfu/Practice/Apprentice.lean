import Kungfu.Practice.Replies

/-!
# Applications

An application starts when the master says so.  Before, it has to find out who is there, ask for a
channel to the cache and from it, and then for the data that the cache has of it.  Until it starts
it feeds what it reads into its bank.

The cache is an application itself; it answers with what it has stored.
-/

namespace Kungfu.Practice

open Longfist Yijinjing Index Outcome

/-- What is written to a journal: by the master, to the master, to the cache, and data. -/
inductive Payload (δ : Type)
  | master (message : Message)
  | request (event : Master.Event)
  | requestCached
  | state (data : δ)

/-- What the master makes of a frame. -/
def Payload.event {δ : Type} : Payload δ → Master.Event
  | request event => event
  | master _ | requestCached | state _ => .other

/-- The locations that the constructor of `hero` adds. -/
def heroLocations (home : Location) : List Location :=
  [home, masterHome, masterCmdLocation home.uid, cachedHome,
    makeLocation .LIVE .SYSTEM "service" "ledger", makeLocation .LIVE .SYSTEM "service" "api"]

/-- An `apprentice` in `LIVE` mode.  The flags tell which of its subscriptions to a first event are
over; `bank` is what was fed, with the journal that it came from. -/
structure App (δ : Type) extends Tables where
  home : Location
  beginTime : Int64
  now : Int64
  registered : Bool
  asked : Bool
  started : Bool
  bank : List (Key × δ)
  written : List (UInt32 × Payload δ)

namespace App

variable {δ : Type} (a : App δ)

/-- `master_cmd_location_`. -/
def cmd : Location := masterCmdLocation a.home.uid

def isCached : Bool := a.home.uid = cachedHome.uid

/-- The tables are changed. -/
def change (f : Tables → Tables) : App δ := { a with toTables := f a.toTables }

/-- The constructor of `hero`, and `expect_start`, which joins the public journal of the master. -/
def start (home : Location) (beginTime : Int64) : App δ where
  locations := (heroLocations home).foldl
    (fun table location => Table.tryEmplace location.uid location table) ∅
  registry := ∅
  writers := []
  joins := AList.singleton ⟨masterHome.uid, PUBLIC⟩ beginTime
  channels := ∅
  bands := ∅
  timerTasks := ∅
  home := home
  beginTime := beginTime
  now := beginTime
  registered := false
  asked := false
  started := false
  bank := []
  written := []

/-- `now_` is advanced. -/
def observe (time : Int64) : App δ := { a with now := if a.now < time then time else a.now }

@[simp] theorem observe_toTables (time : Int64) : (a.observe time).toTables = a.toTables := rfl

@[simp] theorem observe_home (time : Int64) : (a.observe time).home = a.home := rfl

@[simp] theorem observe_beginTime (time : Int64) : (a.observe time).beginTime = a.beginTime := rfl

@[simp] theorem observe_started (time : Int64) : (a.observe time).started = a.started := rfl

@[simp] theorem observe_bank (time : Int64) : (a.observe time).bank = a.bank := rfl

@[simp] theorem observe_written (time : Int64) : (a.observe time).written = a.written := rfl

/-- `get_location`. -/
def getLocation (uid : UInt32) : Except Fault Location :=
  match a.locations.lookup uid with
  | none => .error (.noLocation uid)
  | some location => .ok location

/-- Frames are written. -/
def tell (outputs : List (UInt32 × Payload δ)) : App δ := { a with written := a.written ++ outputs }

/-- A frame is written by the writer of the given key. -/
def write (dest : UInt32) (payload : Payload δ) : Except Fault (App δ) :=
  if dest ∈ a.writers then .ok (a.tell [(dest, payload)]) else .error (.noWriter dest)

/-- `require_write_to`. -/
def requireWriteTo (source dest : UInt32) : Except Fault (App δ) :=
  if a.CheckLocationExists source dest then a.write source (.request (.requestWriteTo dest))
  else .ok a

/-- `require_read_from`. -/
def requireReadFrom (dest source : UInt32) (fromTime : Int64) : Except Fault (App δ) :=
  if dest ∉ a.writers then .error (.noWriter dest)
  else if a.CheckLocationExists source dest then
    a.write dest (.request (.requestReadFrom source fromTime))
  else .ok a

def requestCachedReaderWriter : Except Fault (App δ) :=
  if a.cmd.uid ∉ a.writers then .ok a
  else if !a.isCached then
    if cachedHome.uid ∉ a.registry then .ok a
    else do
      let a ← a.requireWriteTo a.cmd.uid cachedHome.uid
      a.requireReadFrom a.cmd.uid cachedHome.uid a.now
  else a.write a.cmd.uid (.request (.requestCachedDone a.home.uid))

/-- `do_read_from`. -/
def doReadFrom (dest source : UInt32) (fromTime : Int64) : Except Fault (App δ) := do
  let location ← a.getLocation source
  .ok (a.change (Tables.join location.uid dest fromTime))

/-- `on_write_to` and `on_write_to_band`. -/
def onWriteTo (dest : UInt32) : App δ :=
  if dest ∈ a.writers then a else a.change (Tables.emplaceWriter dest)

def onDeregister (uid : UInt32) : App δ :=
  if uid = a.home.uid then a
  else a.change fun t =>
    let t := ((t.disjoin uid).deregisterChannel uid).deregisterBand uid
    { t with registry := t.registry.erase uid }

/-! ## What the cache adds -/

/-- `register_trigger_listen_public`. -/
def registerTriggerListenPublic (genTime : Int64) (uid : UInt32) : Except Fault (App δ) := do
  let location ← a.getLocation uid
  if location.category = .TD then .ok (a.change (Tables.join location.uid PUBLIC genTime)) else .ok a

/-- `inspect_channel`. -/
def inspectChannel (genTime : Int64) (channel : Channel) : Except Fault (App δ) :=
  if channel.sourceId ≠ a.home.uid ∧ channel.destId ≠ a.home.uid then do
    let location ← a.getLocation channel.sourceId
    .ok (a.change (Tables.join location.uid channel.destId genTime))
  else .ok a

/-- Frames are written one after another. -/
def writeAll (dest : UInt32) (payloads : List (Payload δ)) : Except Fault (App δ) :=
  payloads.foldlM (fun a payload => a.write dest payload) a

/-- The answer to `RequestCached`, which is what is stored of the source. -/
def onRequestCached (answer : List δ) (source : UInt32) : Except Fault (App δ) :=
  if source ∉ a.locations then .ok a
  else if source ∉ a.writers then .error (.noWriter source)
  else do
    let a ← a.writeAll source (answer.map .state)
    a.write a.cmd.uid (.request (.requestCachedDone source))

/-! ## Handlers -/

/-- `self_register_event`. -/
def onSelfRegister (uid : UInt32) : App δ :=
  if uid = a.home.uid ∧ a.registered = false then
    { a.change (Tables.join a.cmd.uid a.home.uid a.beginTime) with registered := true }
  else a

/-- `cached_register_event`. -/
def onCachedRegister (uid : UInt32) : Except Fault (App δ) :=
  if uid = cachedHome.uid ∧ a.cmd.uid ∈ a.writers ∧ a.asked = false then
    { a with asked := true }.requestCachedReaderWriter
  else .ok a

/-- What `cached` does at a registration. -/
def onReactRegister (genTime : Int64) (uid : UInt32) : Except Fault (App δ) :=
  if a.isCached then a.registerTriggerListenPublic genTime uid else .ok a

def onRegister (genTime : Int64) (register : Register) : Except Fault (App δ) := do
  let a ← (a.change (Tables.registerLocation register)).onReactRegister genTime register.location.uid
  (a.onSelfRegister register.location.uid).onCachedRegister register.location.uid

/-- The handlers of what the master writes. -/
def onMessage (genTime : Int64) : Message → Except Fault (App δ)
  | .location location => .ok (a.change (Tables.addLocation location))
  | .register register => a.onRegister genTime register
  | .deregister location => .ok (a.onDeregister location.uid)
  | .requestReadFrom source fromTime => a.doReadFrom a.home.uid source fromTime
  | .requestReadFromPublic source fromTime => a.doReadFrom PUBLIC source fromTime
  | .requestReadFromSync source fromTime => a.doReadFrom SYNC source fromTime
  | .mark .CachedReadyToRead => a.write cachedHome.uid .requestCached
  | .requestWriteTo dest => .ok (a.onWriteTo dest)
  | .requestWriteToBand location => .ok (a.onWriteTo location.uid)
  | .channel channel => do
      let a := a.change (Tables.registerChannel channel)
      if a.isCached ∧ a.started = true then a.inspectChannel genTime channel else .ok a
  | .band band => .ok (a.change (Tables.registerBand band))
  | .mark .RequestStart => .ok { a with started := true }
  | .mark .SessionStart | .mark .SessionEnd | .mark .Time => .ok a
  | .timeReset _ _ | .tradingDay _ => .ok a

/-- The handlers of a frame, as `react` and `on_react` install them.  Requests are in journals that
the master alone reads.  `answer` is what the cache has stored of the source. -/
def react (answer : List δ) (k : Key) (genTime : Int64) : Payload δ → Except Fault (App δ)
  | .master message => a.onMessage genTime message
  | .requestCached => if a.isCached then a.onRequestCached answer k.location else .ok a
  | .state data => .ok (if a.started then a else { a with bank := a.bank ++ [(k, data)] })
  | .request _ => .ok a

/-! ## What handlers do -/

/-- Locations are found under their own uids, and those that the start needs are there. -/
structure Known : Prop where
  keyed : ∀ entry ∈ a.locations.entries, entry.2.uid = entry.1
  cmd : a.cmd.uid ∈ a.locations
  cached : cachedHome.uid ∈ a.locations

/-- The journals that a frame has the application join. -/
def Joins (payload : Payload δ) (k : Key) (fromTime : Int64) : Prop :=
  match payload with
  | .master (.register register) =>
      (register.location.uid = a.home.uid ∧ k = ⟨a.cmd.uid, a.home.uid⟩ ∧ fromTime = a.beginTime) ∨
        (a.isCached = true ∧ k.dest = PUBLIC)
  | .master (.requestReadFrom source fromTime') => k = ⟨source, a.home.uid⟩ ∧ fromTime = fromTime'
  | .master (.requestReadFromPublic _ _) => k.dest = PUBLIC
  | .master (.requestReadFromSync _ _) => k.dest = SYNC
  | .master (.channel channel) => a.isCached = true ∧ k = ⟨channel.sourceId, channel.destId⟩ ∧
      channel.sourceId ≠ a.home.uid ∧ channel.destId ≠ a.home.uid
  | _ => False

/-- The journals that it has the application leave. -/
def Leaves (payload : Payload δ) (k : Key) : Prop :=
  match payload with
  | .master (.deregister location) => k.location = location.uid
  | _ => False

/-- The cache is asked at its registration. -/
def Asks (payload : Payload δ) : Prop :=
  match payload with
  | .master (.register register) =>
      register.location.uid = cachedHome.uid ∧ a.cmd.uid ∈ a.writers ∧ a.asked = false
  | _ => False

instance (payload : Payload δ) : Decidable (a.Asks payload) :=
  match payload with
  | .master (.register register) => inferInstanceAs (Decidable
      (register.location.uid = cachedHome.uid ∧ a.cmd.uid ∈ a.writers ∧ a.asked = false))
  | .master (.mark _) | .master (.location _) | .master (.deregister _) | .master (.channel _)
  | .master (.band _) | .master (.requestWriteTo _) | .master (.requestWriteToBand _)
  | .master (.requestReadFrom _ _) | .master (.requestReadFromPublic _ _)
  | .master (.requestReadFromSync _ _) | .master (.timeReset _ _) | .master (.tradingDay _)
  | .request _ | .requestCached | .state _ => inferInstanceAs (Decidable False)

/-- What is written because of a frame. -/
def outputs (answer : List δ) (source : UInt32) (payload : Payload δ) : List (UInt32 × Payload δ) :=
  match payload with
  | .master (.register _) =>
      if a.Asks payload then
        if a.isCached then [(a.cmd.uid, .request (.requestCachedDone a.home.uid))]
        else [(a.cmd.uid, .request (.requestWriteTo cachedHome.uid)),
          (a.cmd.uid, .request (.requestReadFrom cachedHome.uid a.now))]
      else []
  | .master (.mark .CachedReadyToRead) => [(cachedHome.uid, .requestCached)]
  | .requestCached =>
      if a.isCached ∧ source ∈ a.locations then
        answer.map (fun data => (source, .state data)) ++
          [(a.cmd.uid, .request (.requestCachedDone source))]
      else []
  | _ => []

/-- What a frame does to an application. -/
structure Moves (answer : List δ) (k : Key) (payload : Payload δ) (a a' : App δ) : Prop where
  home : a'.home = a.home
  beginTime : a'.beginTime = a.beginTime
  now : a'.now = a.now
  known : a'.Known
  writers : ∀ dest ∈ a.writers, dest ∈ a'.writers
  writes : ∀ dest, payload = .master (.requestWriteTo dest) → dest ∈ a'.writers
  kept : ∀ j ∈ a.joins, j ∈ a'.joins ∨ Leaves payload j
  joined : ∀ j fromTime, a'.joins.lookup j = some fromTime →
    a.joins.lookup j = some fromTime ∨ (j ∉ a.joins ∧ a.Joins payload j fromTime)
  reads : ∀ source fromTime, payload = .master (.requestReadFrom source fromTime) →
    ⟨source, a.home.uid⟩ ∈ a'.joins
  started : a'.started = true ↔ a.started = true ∨ payload = .master (.mark .RequestStart)
  asked : a'.asked = true ↔ a.asked = true ∨ a.Asks payload
  bank : a'.bank = match payload with
    | .state data => if a.started then a.bank else a.bank ++ [(k, data)]
    | _ => a.bank
  written : a'.written = a.written ++ a.outputs answer k.location payload

/-- What an application writes: it asks the cache, when that has registered and when it is ready, and
the cache answers. -/
inductive Writes (answer : List δ) (source : UInt32) (payload : Payload δ) : UInt32 × Payload δ → Prop
  | done (hcached : a.isCached = true) (hasks : a.Asks payload) :
      Writes answer source payload (a.cmd.uid, .request (.requestCachedDone a.home.uid))
  | requestWriteTo (hasks : a.Asks payload) :
      Writes answer source payload (a.cmd.uid, .request (.requestWriteTo cachedHome.uid))
  | requestReadFrom (hasks : a.Asks payload) :
      Writes answer source payload (a.cmd.uid, .request (.requestReadFrom cachedHome.uid a.now))
  | requestCached (hready : payload = .master (.mark .CachedReadyToRead)) :
      Writes answer source payload (cachedHome.uid, .requestCached)
  | answer (hcached : a.isCached = true) (hrequest : payload = .requestCached) (data : δ) :
      Writes answer source payload (source, .state data)
  | answered (hcached : a.isCached = true) (hrequest : payload = .requestCached) :
      Writes answer source payload (a.cmd.uid, .request (.requestCachedDone source))

/-- The writers that a frame needs. -/
def Lacks (payload : Payload δ) (source dest : UInt32) : Prop :=
  dest ∉ a.writers ∧ ((payload = .master (.mark .CachedReadyToRead) ∧ dest = cachedHome.uid) ∨
    (payload = .requestCached ∧ a.isCached = true ∧ source ∈ a.locations ∧
      (dest = source ∨ dest = a.cmd.uid)))

/-- How a handler fails. -/
def Fails (payload : Payload δ) (source : UInt32) (fault : Fault) : Prop :=
  (∃ uid, fault = .noLocation uid) ∨ ∃ dest, fault = .noWriter dest ∧ a.Lacks payload source dest

variable {a} {a' : App δ} {answer : List δ} {key : Key} {payload : Payload δ} {genTime : Int64}

theorem mem_foldl_tryEmplace {uid : UInt32} (locations : List Location)
    (table : AList fun _ : UInt32 => Location) :
    uid ∈ locations.foldl (fun table location => Table.tryEmplace location.uid location table) table ↔
      uid ∈ table ∨ ∃ location ∈ locations, location.uid = uid := by
  induction locations generalizing table with
  | nil => simp
  | cons location locations ih => simp [ih, or_assoc, or_left_comm, eq_comm]

/-- The locations that the constructor adds. -/
theorem known_start (home : Location) (beginTime : Int64) : (start (δ := δ) home beginTime).Known where
  keyed := (Master.consistent_start (heroLocations home) Master.exampleBuilder).location
  cmd := (mem_foldl_tryEmplace _ _).mpr
    (.inr ⟨masterCmdLocation home.uid, by simp [heroLocations], rfl⟩)
  cached := (mem_foldl_tryEmplace _ _).mpr (.inr ⟨cachedHome, by simp [heroLocations], rfl⟩)

theorem writes_of_mem {source : UInt32} {x : UInt32 × Payload δ}
    (hx : x ∈ a.outputs answer source payload) : a.Writes answer source payload x := by
  cases payload with
  | master message =>
      cases message with
      | register register =>
          simp only [outputs] at hx
          split at hx
          · rename_i hasks
            split at hx
            · rename_i hcached
              rw [List.mem_singleton.mp hx]
              exact .done hcached hasks
            · rcases List.mem_pair.mp hx with rfl | rfl
              · exact .requestWriteTo hasks
              · exact .requestReadFrom hasks
          · simp at hx
      | mark tag =>
          cases tag with
          | CachedReadyToRead =>
              rw [List.mem_singleton.mp hx]
              exact .requestCached rfl
          | _ => exact absurd hx List.not_mem_nil
      | _ => exact absurd hx List.not_mem_nil
  | requestCached =>
      simp only [outputs] at hx
      split at hx
      · rename_i hcached
        rcases List.mem_append.mp hx with hx | hx
        · obtain ⟨data, -, rfl⟩ := List.mem_map.mp hx
          exact .answer hcached.1 rfl data
        · rw [List.mem_singleton.mp hx]
          exact .answered hcached.1 rfl
      · simp at hx
  | request event => exact absurd hx List.not_mem_nil
  | state data => exact absurd hx List.not_mem_nil

theorem post_getLocation (h : a.Known) (uid : UInt32) :
    Post (a.getLocation uid) (fun location => location.uid = uid) (a'.Fails payload key.location) := by
  unfold getLocation
  cases hlocation : a.locations.lookup uid with
  | none => exact .inl ⟨uid, rfl⟩
  | some location => exact h.keyed _ (AList.mem_lookup_iff.mp hlocation)

/-- A frame that changes only tables. -/
theorem moves_change {f : Tables → Tables} (h' : (a.change f).Known)
    (hwriters : ∀ dest ∈ a.writers, dest ∈ (f a.toTables).writers)
    (hwrites : ∀ dest, payload = .master (.requestWriteTo dest) → dest ∈ (f a.toTables).writers)
    (hkept : ∀ k ∈ a.joins, k ∈ (f a.toTables).joins ∨ Leaves payload k)
    (hjoined : ∀ k fromTime, (f a.toTables).joins.lookup k = some fromTime →
      a.joins.lookup k = some fromTime ∨ (k ∉ a.joins ∧ a.Joins payload k fromTime))
    (hreads : ∀ source fromTime, payload = .master (.requestReadFrom source fromTime) →
      ⟨source, a.home.uid⟩ ∈ (f a.toTables).joins)
    (hstarted : payload ≠ .master (.mark .RequestStart)) (hasks : ¬ a.Asks payload)
    (hbank : ∀ data, payload ≠ .state data) (houtputs : a.outputs answer key.location payload = []) :
    Moves answer key payload a (a.change f) where
  home := rfl
  beginTime := rfl
  now := rfl
  known := h'
  writers := hwriters
  writes := hwrites
  kept := hkept
  joined := hjoined
  reads := hreads
  started := by simp [change, hstarted]
  asked := by simp [change, hasks]
  bank := by
    cases payload with
    | state data => exact absurd rfl (hbank data)
    | _ => rfl
  written := by simp [change, houtputs]

/-- A frame that nobody handles. -/
theorem moves_refl (hknown : a.Known)
    (hwrites : ∀ dest, payload ≠ .master (.requestWriteTo dest))
    (hreads : ∀ source fromTime, payload ≠ .master (.requestReadFrom source fromTime))
    (hstarted : payload ≠ .master (.mark .RequestStart)) (hasks : ¬ a.Asks payload)
    (hbank : ∀ data, payload ≠ .state data) (houtputs : a.outputs answer key.location payload = []) :
    Moves answer key payload a a :=
  moves_change (f := id) hknown (fun _ => id) (fun dest h => absurd h (hwrites dest))
    (fun _ => .inl) (fun _ _ => .inl) (fun source fromTime h => absurd h (hreads source fromTime))
    hstarted hasks hbank houtputs

theorem lookup_join {t : Tables} {location dest : UInt32} {fromTime : Int64} {k : Key}
    {time : Int64} (h : (t.join location dest fromTime).joins.lookup k = some time) :
    t.joins.lookup k = some time ∨ (k ∉ t.joins ∧ k = ⟨location, dest⟩ ∧ time = fromTime) := by
  rw [Tables.join, Table.lookup_tryEmplace_apply] at h
  split at h
  · rename_i hk
    subst hk
    cases hlookup : t.joins.lookup ⟨location, dest⟩ with
    | none =>
        rw [hlookup] at h
        exact .inr ⟨AList.lookup_eq_none.mp hlookup, rfl, (Option.some.inj h).symm⟩
    | some time' =>
        rw [hlookup] at h
        exact .inl h
  · exact .inl h

/-- A frame that has a journal joined. -/
theorem moves_join (hknown : a.Known) {location dest : UInt32} {fromTime : Int64}
    (hwrites : ∀ dest, payload ≠ .master (.requestWriteTo dest))
    (hjoins : a.Joins payload ⟨location, dest⟩ fromTime)
    (hreads : ∀ source fromTime, payload = .master (.requestReadFrom source fromTime) →
      (⟨source, a.home.uid⟩ : Key) = ⟨location, dest⟩)
    (hstarted : payload ≠ .master (.mark .RequestStart)) (hasks : ¬ a.Asks payload)
    (hbank : ∀ data, payload ≠ .state data) (houtputs : a.outputs answer key.location payload = []) :
    Moves answer key payload a (a.change (Tables.join location dest fromTime)) := by
  refine moves_change ⟨hknown.keyed, hknown.cmd, hknown.cached⟩ (fun _ => id)
    (fun dest h => absurd h (hwrites dest)) ?_ ?_ ?_ hstarted hasks hbank houtputs
  · intro k hk
    exact .inl (Table.mem_tryEmplace.mpr (.inr hk))
  · intro k time h
    rcases lookup_join h with h | ⟨hk, rfl, rfl⟩
    · exact .inl h
    · exact .inr ⟨hk, hjoins⟩
  · intro source fromTime h
    rw [hreads source fromTime h]
    exact Table.mem_tryEmplace.mpr (.inl rfl)

theorem mem_writers_onWriteTo (dest : UInt32) : dest ∈ (a.onWriteTo dest).writers := by
  unfold onWriteTo
  split
  · assumption
  · exact List.mem_cons_self

theorem moves_onWriteTo (hknown : a.Known) {dest : UInt32}
    (hwrites : ∀ dest', payload = .master (.requestWriteTo dest') → dest' = dest)
    (hreads : ∀ source fromTime, payload ≠ .master (.requestReadFrom source fromTime))
    (hstarted : payload ≠ .master (.mark .RequestStart)) (hasks : ¬ a.Asks payload)
    (hbank : ∀ data, payload ≠ .state data) (houtputs : a.outputs answer key.location payload = []) :
    Moves answer key payload a (a.onWriteTo dest) := by
  have hmem := mem_writers_onWriteTo (a := a) dest
  unfold onWriteTo at hmem ⊢
  split
  · rename_i hdest
    refine moves_change (f := id) hknown (fun _ => id) ?_ (fun _ => .inl) (fun _ _ => .inl)
      (fun source fromTime h => absurd h (hreads source fromTime)) hstarted hasks hbank houtputs
    intro dest' h
    exact hwrites dest' h ▸ hdest
  · rename_i hdest
    rw [if_neg hdest] at hmem
    refine moves_change ⟨hknown.keyed, hknown.cmd, hknown.cached⟩
      (fun _ => List.mem_cons_of_mem _) ?_ (fun _ => .inl) (fun _ _ => .inl)
      (fun source fromTime h => absurd h (hreads source fromTime)) hstarted hasks hbank houtputs
    intro dest' h
    exact hwrites dest' h ▸ hmem

theorem known_addLocation (hknown : a.Known) (location : Location) :
    (a.change (Tables.addLocation location)).Known where
  keyed entry hentry := by
    rcases Table.mem_entries_tryEmplace.mp hentry with hentry | ⟨-, rfl⟩
    · exact hknown.keyed entry hentry
    · rfl
  cmd := Table.mem_tryEmplace.mpr (.inr hknown.cmd)
  cached := Table.mem_tryEmplace.mpr (.inr hknown.cached)

theorem moves_onDeregister (hknown : a.Known) (location : Location) :
    Moves answer key (.master (.deregister location)) a (a.onDeregister location.uid) := by
  unfold onDeregister
  split
  · exact moves_refl hknown nofun nofun nofun id nofun rfl
  · refine moves_change ⟨hknown.keyed, hknown.cmd, hknown.cached⟩ (fun _ => id) nofun ?_ ?_ nofun nofun
      id nofun rfl
    · intro k hk
      by_cases hlocation : k.location = location.uid
      · exact .inr hlocation
      · obtain ⟨fromTime, hentry⟩ := Table.exists_of_mem hk
        exact .inl (Table.mem_of_mem_entries (Table.mem_entries_eraseIf.mpr ⟨hentry, hlocation⟩))
    · intro k fromTime h
      have hentry := (Table.mem_entries_eraseIf.mp (AList.mem_lookup_iff.mp h)).1
      exact .inl (AList.mem_lookup_iff.mpr hentry)

@[simp] theorem tell_tell (outputs outputs' : List (UInt32 × Payload δ)) :
    (a.tell outputs).tell outputs' = a.tell (outputs ++ outputs') := by
  simp [tell]

theorem write_of_mem {dest : UInt32} (h : dest ∈ a.writers) (payload : Payload δ) :
    a.write dest payload = .ok (a.tell [(dest, payload)]) := if_pos h

theorem writeAll_of_mem {dest : UInt32} (h : dest ∈ a.writers) (payloads : List (Payload δ)) :
    a.writeAll dest payloads = .ok (a.tell (payloads.map fun payload => (dest, payload))) := by
  induction payloads generalizing a with
  | nil => simp [writeAll, tell, pure, Except.pure]
  | cons payload payloads ih =>
      have hrest := ih (a := a.tell [(dest, payload)]) h
      rw [writeAll] at hrest
      rw [writeAll, List.foldlM_cons, write_of_mem h, ok_bind, hrest]
      simp

/-- What the cache is asked for at its registration. -/
theorem requestCachedReaderWriter_eq (hknown : a.Known) (hcmd : a.cmd.uid ∈ a.writers)
    (hregistry : cachedHome.uid ∈ a.registry) :
    a.requestCachedReaderWriter = .ok (a.tell
      (if a.isCached then [(a.cmd.uid, .request (.requestCachedDone a.home.uid))]
      else [(a.cmd.uid, .request (.requestWriteTo cachedHome.uid)),
        (a.cmd.uid, .request (.requestReadFrom cachedHome.uid a.now))])) := by
  have hwrite : a.requireWriteTo a.cmd.uid cachedHome.uid =
      .ok (a.tell [(a.cmd.uid, .request (.requestWriteTo cachedHome.uid))]) := by
    rw [requireWriteTo, if_pos ⟨hknown.cmd, .inr (.inr hknown.cached)⟩, write_of_mem hcmd]
  have hread : ∀ outputs, (a.tell outputs).requireReadFrom a.cmd.uid cachedHome.uid a.now =
      .ok (a.tell (outputs ++
        [(a.cmd.uid, .request (.requestReadFrom cachedHome.uid a.now))])) := by
    intro outputs
    have hcmd' : a.cmd.uid ∈ (a.tell outputs).writers := hcmd
    rw [requireReadFrom, if_neg (not_not.mpr hcmd'),
      if_pos ⟨hknown.cached, .inr (.inr hknown.cmd)⟩, write_of_mem hcmd', tell_tell]
  unfold requestCachedReaderWriter
  rw [if_neg (not_not.mpr hcmd)]
  cases a.isCached with
  | true => simp [write_of_mem hcmd]
  | false =>
      rw [Bool.not_false, if_pos rfl, if_neg (not_not.mpr hregistry), hwrite, ok_bind]
      exact hread _

/-- An application once a registration is in its tables, before it asks the cache. -/
def enrolled (register : Register) (joins : AList fun _ : Key => Int64) (registered : Bool)
    (a : App δ) : App δ :=
  { a with
    registry := Table.tryEmplace register.location.uid register a.registry
    joins := joins
    registered := registered }

/-- Journals are joined because of a registration. -/
def JoinsMore (register : Register) (a : App δ) (joins : AList fun _ : Key => Int64) : Prop :=
  (∀ k ∈ a.joins, k ∈ joins) ∧ ∀ k fromTime, joins.lookup k = some fromTime →
    a.joins.lookup k = some fromTime ∨
      (k ∉ a.joins ∧ a.Joins (.master (.register register)) k fromTime)

theorem JoinsMore.join {register : Register} {joins : AList fun _ : Key => Int64}
    (h : JoinsMore register a joins) {location dest : UInt32} {fromTime : Int64}
    (hjoins : a.Joins (.master (.register register)) ⟨location, dest⟩ fromTime) :
    JoinsMore register a (Table.tryEmplace ⟨location, dest⟩ fromTime joins) := by
  refine ⟨fun k hk => Table.mem_tryEmplace.mpr (.inr (h.1 k hk)), fun k time htime => ?_⟩
  rcases lookup_join (t := { a.toTables with joins := joins }) htime with htime | ⟨hk, rfl, rfl⟩
  · exact h.2 k time htime
  · exact .inr ⟨fun hmem => hk (h.1 _ hmem), hjoins⟩

theorem post_onReactRegister (hknown : a.Known) (register : Register) :
    Post ((a.change (Tables.registerLocation register)).onReactRegister genTime register.location.uid)
      (fun a₁ => ∃ joins, a₁ = a.enrolled register joins a.registered ∧ JoinsMore register a joins)
      (a.Fails (.master (.register register)) key.location) := by
  have hsame : JoinsMore register a a.joins := ⟨fun _ => id, fun _ _ => .inl⟩
  apply post_ite
  · intro hcached
    have hknown' : (a.change (Tables.registerLocation register)).Known :=
      ⟨hknown.keyed, hknown.cmd, hknown.cached⟩
    apply (post_getLocation hknown' register.location.uid).bind
    intro location hlocation
    apply post_ite
    · intro _
      exact ⟨_, rfl, hsame.join (.inr ⟨hcached, rfl⟩)⟩
    · intro _
      exact ⟨_, rfl, hsame⟩
  · intro _
    exact ⟨_, rfl, hsame⟩

theorem onSelfRegister_enrolled {register : Register} {joins : AList fun _ : Key => Int64}
    (h : JoinsMore register a joins) :
    ∃ joins' registered, (a.enrolled register joins a.registered).onSelfRegister register.location.uid =
      a.enrolled register joins' registered ∧ JoinsMore register a joins' := by
  by_cases hself : register.location.uid = a.home.uid ∧ a.registered = false
  · exact ⟨_, true, if_pos hself, h.join (.inl ⟨hself.1, rfl, rfl⟩)⟩
  · exact ⟨_, _, if_neg hself, h⟩

theorem post_onRegister (hknown : a.Known) (register : Register) :
    Post (a.onRegister genTime register) (Moves answer key (.master (.register register)) a)
      (a.Fails (.master (.register register)) key.location) := by
  unfold onRegister
  apply (post_onReactRegister hknown register).bind
  rintro _ ⟨joins, rfl, hjoins⟩
  obtain ⟨joins', registered, hself, hjoins'⟩ := onSelfRegister_enrolled hjoins
  rw [hself]
  have hregistry : register.location.uid = cachedHome.uid →
      cachedHome.uid ∈ (a.enrolled register joins' registered).registry := by
    intro hcached
    exact Table.mem_tryEmplace.mpr (.inl hcached.symm)
  have hknown' : (a.enrolled register joins' registered).Known :=
    ⟨hknown.keyed, hknown.cmd, hknown.cached⟩
  have hcheck : (register.location.uid = cachedHome.uid ∧
      (a.enrolled register joins' registered).cmd.uid ∈ (a.enrolled register joins' registered).writers ∧
      (a.enrolled register joins' registered).asked = false) ↔
        a.Asks (δ := δ) (.master (.register register)) := Iff.rfl
  unfold onCachedRegister
  by_cases hasks : a.Asks (δ := δ) (.master (.register register))
  · rw [if_pos (hcheck.mpr hasks), requestCachedReaderWriter_eq]
    · exact {
        home := rfl
        beginTime := rfl
        now := rfl
        known := ⟨hknown.keyed, hknown.cmd, hknown.cached⟩
        writers := fun _ => id
        writes := nofun
        kept := fun k hk => .inl (hjoins'.1 k hk)
        joined := hjoins'.2
        reads := nofun
        started := by simp [enrolled, tell]
        asked := by simp [enrolled, tell, hasks]
        bank := rfl
        written := by
          rw [outputs, if_pos hasks]
          rfl }
    · exact ⟨hknown.keyed, hknown.cmd, hknown.cached⟩
    · exact hasks.2.1
    · exact hregistry hasks.1
  · rw [if_neg (fun h => hasks (hcheck.mp h))]
    exact {
      home := rfl
      beginTime := rfl
      now := rfl
      known := ⟨hknown.keyed, hknown.cmd, hknown.cached⟩
      writers := fun _ => id
      writes := nofun
      kept := fun k hk => .inl (hjoins'.1 k hk)
      joined := hjoins'.2
      reads := nofun
      started := by simp [enrolled]
      asked := by simp [enrolled, hasks]
      bank := rfl
      written := by
        rw [outputs, if_neg hasks, List.append_nil]
        rfl }

theorem post_doReadFrom (hknown : a.Known) {dest source : UInt32} {fromTime : Int64}
    (hwrites : ∀ dest, payload ≠ .master (.requestWriteTo dest))
    (hjoins : a.Joins payload ⟨source, dest⟩ fromTime)
    (hreads : ∀ source' fromTime', payload = .master (.requestReadFrom source' fromTime') →
      (⟨source', a.home.uid⟩ : Key) = ⟨source, dest⟩)
    (hstarted : payload ≠ .master (.mark .RequestStart)) (hasks : ¬ a.Asks payload)
    (hbank : ∀ data, payload ≠ .state data) (houtputs : a.outputs answer key.location payload = []) :
    Post (a.doReadFrom dest source fromTime) (Moves answer key payload a)
      (a.Fails payload key.location) := by
  apply (post_getLocation hknown source).bind
  rintro location rfl
  exact moves_join hknown hwrites hjoins hreads hstarted hasks hbank houtputs

theorem post_inspectChannel (hknown : a.Known) (channel : Channel) :
    Post (if a.isCached ∧ a.started = true then
        (a.change (Tables.registerChannel channel)).inspectChannel genTime channel
      else .ok (a.change (Tables.registerChannel channel)))
      (Moves answer key (.master (.channel channel)) a)
      (a.Fails (.master (.channel channel)) key.location) := by
  have hknown' : (a.change (Tables.registerChannel channel)).Known :=
    ⟨hknown.keyed, hknown.cmd, hknown.cached⟩
  have hsame : Moves answer key (.master (.channel channel)) a
      (a.change (Tables.registerChannel channel)) :=
    moves_change hknown' (fun _ => id) nofun (fun _ => .inl) (fun _ _ => .inl) nofun nofun id nofun rfl
  apply post_ite
  · rintro ⟨hcached, -⟩
    apply post_ite
    · rintro ⟨hsource, hdest⟩
      apply (post_getLocation hknown' channel.sourceId).bind
      intro location hlocation
      have hjoins : a.Joins (.master (.channel channel)) ⟨location.uid, channel.destId⟩ genTime :=
        ⟨hcached, by rw [hlocation], hsource, hdest⟩
      have hjoin : Moves answer key (.master (.channel channel)) a
          (a.change (Tables.join location.uid channel.destId genTime)) :=
        moves_join hknown nofun hjoins nofun nofun id nofun rfl
      exact moves_change (f := fun t => (t.registerChannel channel).join location.uid channel.destId genTime)
        ⟨hknown.keyed, hknown.cmd, hknown.cached⟩ (fun _ => id) nofun hjoin.kept hjoin.joined nofun nofun
        id nofun rfl
    · intro _
      exact hsame
  · intro _
    exact hsame

theorem post_onRequestCached (hknown : a.Known) (hcached : a.isCached = true) :
    Post (a.onRequestCached answer key.location) (Moves answer key .requestCached a)
      (a.Fails .requestCached key.location) := by
  apply post_ite
  · intro hlocation
    exact moves_refl hknown nofun nofun nofun id nofun (if_neg fun h => hlocation h.2)
  · intro hlocation
    apply post_ite
    · intro hwriter
      exact .inr ⟨_, rfl, hwriter, .inr ⟨rfl, hcached, not_not.mp hlocation, .inl rfl⟩⟩
    · intro hwriter
      rw [writeAll_of_mem (not_not.mp hwriter), ok_bind]
      apply post_ite
      · intro hcmd
        exact {
          home := rfl
          beginTime := rfl
          now := rfl
          known := ⟨hknown.keyed, hknown.cmd, hknown.cached⟩
          writers := fun _ => id
          writes := nofun
          kept := fun _ => .inl
          joined := fun _ _ => .inl
          reads := nofun
          started := by simp [tell]
          asked := by simp [tell, Asks]
          bank := rfl
          written := by
            rw [outputs, if_pos ⟨hcached, not_not.mp hlocation⟩]
            simp [tell, cmd, Function.comp_def] }
      · intro hcmd
        exact .inr ⟨_, rfl, hcmd, .inr ⟨rfl, hcached, not_not.mp hlocation, .inr rfl⟩⟩

theorem post_onMessage (hknown : a.Known) (message : Message) :
    Post (a.onMessage genTime message) (Moves answer key (.master message) a)
      (a.Fails (.master message) key.location) := by
  cases message with
  | location location =>
      refine moves_change (known_addLocation hknown location) (fun _ => id) nofun (fun _ => .inl)
        (fun _ _ => .inl) nofun nofun id nofun rfl
  | register register => exact post_onRegister hknown register
  | deregister location => exact moves_onDeregister hknown location
  | requestReadFrom source fromTime =>
      refine post_doReadFrom hknown nofun ⟨rfl, rfl⟩ ?_ nofun id nofun rfl
      rintro _ _ ⟨⟩
      rfl
  | requestReadFromPublic source fromTime =>
      exact post_doReadFrom hknown nofun rfl nofun nofun id nofun rfl
  | requestReadFromSync source fromTime =>
      exact post_doReadFrom hknown nofun rfl nofun nofun id nofun rfl
  | requestWriteTo dest =>
      refine moves_onWriteTo hknown ?_ nofun nofun id nofun rfl
      rintro _ ⟨⟩
      rfl
  | requestWriteToBand location => exact moves_onWriteTo hknown nofun nofun nofun id nofun rfl
  | channel channel => exact post_inspectChannel hknown channel
  | band band =>
      exact moves_change ⟨hknown.keyed, hknown.cmd, hknown.cached⟩ (fun _ => id) nofun (fun _ => .inl)
        (fun _ _ => .inl) nofun nofun id nofun rfl
  | timeReset systemClockCount steadyClockCount => exact moves_refl hknown nofun nofun nofun id nofun rfl
  | tradingDay timestamp => exact moves_refl hknown nofun nofun nofun id nofun rfl
  | mark tag =>
      cases tag with
      | CachedReadyToRead =>
          apply post_ite
          · intro _
            exact {
              home := rfl
              beginTime := rfl
              now := rfl
              known := ⟨hknown.keyed, hknown.cmd, hknown.cached⟩
              writers := fun _ => id
              writes := nofun
              kept := fun _ => .inl
              joined := fun _ _ => .inl
              reads := nofun
              started := by simp [tell]
              asked := by simp [tell, Asks]
              bank := rfl
              written := rfl }
          · intro hwriter
            exact .inr ⟨_, rfl, hwriter, .inl ⟨rfl, rfl⟩⟩
      | RequestStart =>
          exact {
            home := rfl
            beginTime := rfl
            now := rfl
            known := ⟨hknown.keyed, hknown.cmd, hknown.cached⟩
            writers := fun _ => id
            writes := nofun
            kept := fun _ => .inl
            joined := fun _ _ => .inl
            reads := nofun
            started := by simp
            asked := by simp [Asks]
            bank := rfl
            written := by simp [outputs] }
      | SessionStart | SessionEnd | Time => exact moves_refl hknown nofun nofun nofun id nofun rfl

/-- What a frame does to an application, and how its handlers fail. -/
theorem post_react (hknown : a.Known) (payload : Payload δ) :
    Post (a.react answer key genTime payload) (Moves answer key payload a)
      (a.Fails payload key.location) := by
  cases payload with
  | master message => exact post_onMessage hknown message
  | request event => exact moves_refl hknown nofun nofun nofun id nofun rfl
  | requestCached =>
      apply post_ite
      · intro hcached
        exact post_onRequestCached hknown hcached
      · intro hcached
        exact moves_refl hknown nofun nofun nofun id nofun (if_neg fun h => hcached h.1)
  | state data =>
      exact {
        home := by cases a.started <;> rfl
        beginTime := by cases a.started <;> rfl
        now := by cases a.started <;> rfl
        known := by cases a.started <;> exact ⟨hknown.keyed, hknown.cmd, hknown.cached⟩
        writers := by cases a.started <;> exact fun _ => id
        writes := nofun
        kept := by cases a.started <;> exact fun _ => .inl
        joined := by cases a.started <;> exact fun _ _ => .inl
        reads := nofun
        started := by cases h : a.started <;> simp [h]
        asked := by cases a.started <;> simp [Asks]
        bank := by cases a.started <;> rfl
        written := by cases a.started <;> simp [outputs] }

end App

end Kungfu.Practice
