import Kungfu.Practice.SessionCalls

/-!
# What the master writes in reply

The master starts an application only when told that the cache is done with it, tells an application
that the cache is ready only when the application asked to read from the cache, and has somebody read
from an application only at a request of one of both.
-/

namespace Kungfu.Practice

open Longfist Yijinjing Index Outcome

/-- `cached_home_location_`. -/
def cachedHome : Location := makeLocation .LIVE .SYSTEM "service" "cached"

namespace Master

/-- Frames of a kind are written.  No application comes or goes, and only journals of registered
applications are joined. -/
structure Issues (P : Written → Prop) (m m' : Master) : Prop where
  consistent : m.Consistent → m'.Consistent
  written : ∃ more, m'.written = m.written ++ more ∧ ∀ w ∈ more, P w
  registry : m'.registry = m.registry
  writers : m'.writers = m.writers
  locations : ∀ uid ∈ m.locations, uid ∈ m'.locations
  kept : ∀ k ∈ m.joins, k ∈ m'.joins
  joined : m.Consistent → ∀ k ∈ m'.joins, k ∈ m.joins ∨ k.location ∈ m.registry

variable {m m' m'' : Master} {P : Written → Prop} {triggerTime : Int64}

theorem Issues.refl (m : Master) : m.Issues P m :=
  ⟨id, ⟨[], by simp⟩, rfl, rfl, fun _ => id, fun _ => id, fun _ _ => .inl⟩

theorem Issues.trans (h : m.Issues P m') (h' : m'.Issues P m'') : m.Issues P m'' := by
  obtain ⟨more, hwritten, hmore⟩ := h.written
  obtain ⟨more', hwritten', hmore'⟩ := h'.written
  refine ⟨fun hm => h'.consistent (h.consistent hm),
    ⟨more ++ more', by rw [hwritten', hwritten, List.append_assoc], ?_⟩,
    h'.registry.trans h.registry, h'.writers.trans h.writers,
    fun uid huid => h'.locations uid (h.locations uid huid), fun k hk => h'.kept k (h.kept k hk), ?_⟩
  · intro w hw
    exact (List.mem_append.mp hw).elim (hmore w) (hmore' w)
  · intro hm k hk
    rcases h'.joined (h.consistent hm) k hk with hk | hk
    · exact h.joined hm k hk
    · exact .inr (h.registry ▸ hk)

theorem issues_bind {ε : Type} {x : Except ε Master} {f : Master → Except ε Master}
    (hx : Post x (m.Issues P) fun _ => True)
    (hf : ∀ m', m.Issues P m' → Post (f m') (m'.Issues P) fun _ => True) :
    Post (x >>= f) (m.Issues P) fun _ => True :=
  hx.bind fun m' hm' => (hf m' hm').imp fun _ => hm'.trans

theorem issues_getLocation_bind {uid : UInt32} {f : Location → Except Fault Master}
    (hf : ∀ location, (m.Consistent → location.uid = uid) →
      Post (f location) (m.Issues P) fun _ => True) :
    Post (m.getLocation uid >>= f) (m.Issues P) fun _ => True :=
  ((post_getLocation m uid).mono (fun _ => id) fun _ _ => trivial).bind hf

/-! ## Writing -/

theorem issues_write (m : Master) {dest : UInt32} {message : Message}
    (h : P ⟨dest, triggerTime, message⟩) :
    Post (m.write dest triggerTime message) (m.Issues P) fun _ => True := by
  apply post_ite
  · intro _
    exact ⟨id, ⟨_, rfl, by simpa using h⟩, rfl, rfl, fun _ => id, fun _ => id, fun _ _ => .inl⟩
  · intro _
    trivial

theorem issues_writeAll (m : Master) {dest : UInt32} {messages : List Message}
    (h : ∀ message ∈ messages, P ⟨dest, triggerTime, message⟩) :
    Post (m.writeAll dest triggerTime messages) (m.Issues P) fun _ => True := by
  apply post_foldlM (Issues.refl m)
  intro m' message hmessage hm'
  exact (issues_write m' (h message hmessage)).imp fun _ => hm'.trans

theorem issues_requireWriteTo (m : Master) {source dest : UInt32}
    (h : P ⟨source, triggerTime, .requestWriteTo dest⟩) :
    Post (m.requireWriteTo triggerTime source dest) (m.Issues P) fun _ => True :=
  post_ite (fun _ => issues_write m h) fun _ => Issues.refl m

theorem issues_doRequireReadFrom (m : Master) {message : UInt32 → Int64 → Message}
    {dest source : UInt32} {fromTime : Int64}
    (h : P ⟨dest, triggerTime, message source fromTime⟩) :
    Post (m.doRequireReadFrom message triggerTime dest source fromTime) (m.Issues P)
      fun _ => True :=
  post_ite (fun _ => trivial) fun _ =>
    post_ite (fun _ => issues_write m h) fun _ => Issues.refl m

/-! ## Changes of tables -/

theorem issues_join (m : Master) {location uid : UInt32} (dest : UInt32) (fromTime : Int64)
    (hlocation : m.Consistent → location = uid) (huid : uid ∈ m.registry) :
    m.Issues P (m.change (Tables.join location dest fromTime)) where
  consistent hm := hm.join location dest fromTime
  written := ⟨[], by simp [change], by simp⟩
  registry := rfl
  writers := rfl
  locations _ := id
  kept k hk := Table.mem_tryEmplace.mpr (.inr hk)
  joined hm k hk := by
    rcases Table.mem_tryEmplace.mp hk with rfl | hk
    · exact .inr (hlocation hm ▸ huid)
    · exact .inl hk

theorem issues_addLocation (m : Master) (location : Location) :
    m.Issues P (m.change (Tables.addLocation location)) where
  consistent hm := hm.addLocation location
  written := ⟨[], by simp [change], by simp⟩
  registry := rfl
  writers := rfl
  locations uid huid := Table.mem_tryEmplace.mpr (.inr huid)
  kept _ := id
  joined _ _ := .inl

theorem issues_setTasks (m : Master) (uid : UInt32)
    (f : Tables → AList fun _ : Int32 => TimerTask) :
    m.Issues P (m.change fun t => t.setTasks uid (f t)) where
  consistent hm := ⟨hm.location, hm.writesPublic, hm.registered, hm.channel, hm.joined⟩
  written := ⟨[], by simp [change], by simp⟩
  registry := rfl
  writers := rfl
  locations _ := id
  kept _ := id
  joined _ _ := .inl

theorem issues_registerBand (m : Master) (band : Band) :
    m.Issues P (m.change (Tables.registerBand band)) where
  consistent hm := ⟨hm.location, hm.writesPublic, hm.registered, hm.channel, hm.joined⟩
  written := ⟨[], by simp [change], by simp⟩
  registry := rfl
  writers := rfl
  locations _ := id
  kept _ := id
  joined _ _ := .inl

/-- A channel is announced once it is joined. -/
theorem issues_announceChannel {channel : Channel} (h : m.Issues P m')
    (hP : P ⟨PUBLIC, triggerTime, .channel channel⟩)
    (hjoined : m.Consistent → ⟨channel.sourceId, channel.destId⟩ ∈ m'.joins) :
    Post (m'.announceChannel triggerTime channel) (m.Issues P) fun _ => True := by
  apply post_ite
  · intro _
    obtain ⟨more, hwritten, hmore⟩ := h.written
    refine ⟨fun hm => (h.consistent hm).registerChannel (hjoined hm),
      ⟨more ++ [⟨PUBLIC, triggerTime, .channel channel⟩], ?_, ?_⟩, h.registry, h.writers, h.locations,
      h.kept, h.joined⟩
    · rw [← List.append_assoc, ← hwritten]
      rfl
    · intro w hw
      rcases List.mem_append.mp hw with hw | hw
      · exact hmore w hw
      · rw [List.mem_singleton.mp hw]
        exact hP
  · intro _
    trivial

/-! ## Replies -/

/-- Where a frame may come from that the master writes for a frame of an application. -/
def Reply (m : Master) (source : UInt32) (genTime : Int64) (event : Event) (w : Written) : Prop :=
  match w.message with
  | .mark .RequestStart => event = .requestCachedDone w.dest
  | .mark .CachedReadyToRead =>
      w.dest = source ∧ ∃ fromTime, event = .requestReadFrom cachedHome.uid fromTime
  | .requestReadFrom sourceId fromTime =>
      (event = .requestWriteTo w.dest ∧ w.dest ∈ m.registry ∧ sourceId = source ∧
        fromTime = genTime) ∨
      (event = .requestReadFrom sourceId fromTime ∧ w.dest = source ∧ sourceId ∈ m.registry)
  | .register register =>
      (∃ uid, ⟨uid, register⟩ ∈ m.registry.entries) ∧ event = .requestCachedDone w.dest
  | .channel channel => channel.sourceId ∈ m.registry
  | .deregister _ => False
  | _ => True

section Replies

variable {source : UInt32} {genTime : Int64} {clock : Clock} (hsource : source ∈ m.registry)

/-- A channel is joined, frames are written, and the channel is announced. -/
theorem issues_announceJoined {m₁ : Master} {location uid dest : UInt32} {fromTime : Int64}
    (hlocation : m.Consistent → location = uid) (huid : uid ∈ m.registry)
    (h : (m.change (Tables.join location dest fromTime)).Issues P m₁)
    (hjoins : ∀ k ∈ (m.change (Tables.join location dest fromTime)).joins, k ∈ m₁.joins)
    (hP : P ⟨PUBLIC, triggerTime, .channel ⟨uid, dest⟩⟩) :
    Post (m₁.announceChannel triggerTime ⟨uid, dest⟩) (m.Issues P) fun _ => True := by
  refine issues_announceChannel ((issues_join m dest fromTime hlocation huid).trans h) hP ?_
  intro hm
  refine hjoins _ (Table.mem_tryEmplace.mpr (.inl ?_))
  rw [hlocation hm]

include hsource in
theorem replies_onRequestWriteTo (destId : UInt32) :
    Post (m.onRequestWriteTo genTime source destId)
      (m.Issues (m.Reply source genTime (.requestWriteTo destId))) fun _ => True := by
  apply post_ite
  · intro _
    exact Issues.refl m
  · intro _
    apply issues_getLocation_bind
    intro app happ
    apply (issues_requireWriteTo (P := m.Reply source genTime (.requestWriteTo destId)) _
      trivial).bind
    intro m₁ hm₁
    have hlive : Post (m₁.requireLiveReadFrom genTime destId source)
        (m₁.Issues (m.Reply source genTime (.requestWriteTo destId))) fun _ => True := by
      apply post_ite
      · intro hdest
        apply issues_doRequireReadFrom
        exact .inl ⟨rfl, hm₁.registry ▸ hdest.1, rfl, rfl⟩
      · intro _
        exact Issues.refl m₁
    apply hlive.bind
    intro m₂ hm₂
    exact issues_announceJoined happ hsource (hm₁.trans hm₂) (hm₁.trans hm₂).kept hsource

theorem replies_onRequestReadFrom (sourceId : UInt32) (fromTime : Int64) :
    Post (m.onRequestReadFrom genTime source sourceId fromTime)
      (m.Issues (m.Reply source genTime (.requestReadFrom sourceId fromTime))) fun _ => True := by
  apply post_ite
  · intro _
    exact Issues.refl m
  · intro hlive
    have hregistered : sourceId ∈ m.registry := (not_not.mp hlive).2.1
    apply issues_getLocation_bind
    intro location hlocation
    apply (issues_requireWriteTo
      (P := m.Reply source genTime (.requestReadFrom sourceId fromTime)) _ trivial).bind
    intro m₁ hm₁
    have hread : Post (m₁.doRequireReadFrom .requestReadFrom genTime source sourceId fromTime)
        (m₁.Issues (m.Reply source genTime (.requestReadFrom sourceId fromTime)))
        fun _ => True :=
      issues_doRequireReadFrom _ (.inr ⟨rfl, rfl, hregistered⟩)
    apply hread.bind
    intro m₂ hm₂
    exact issues_announceJoined hlocation hregistered (hm₁.trans hm₂) (hm₁.trans hm₂).kept
      hregistered

theorem replies_onChannelRequest (channel : Channel) :
    Post (m.onChannelRequest genTime channel)
      (m.Issues (m.Reply source genTime (.channelRequest channel))) fun _ => True := by
  apply post_ite
  · intro hchannel
    apply issues_getLocation_bind
    intro location hlocation
    apply (issues_requireWriteTo
      (P := m.Reply source genTime (.channelRequest channel)) _ trivial).bind
    intro m₁ hm₁
    exact issues_announceJoined hlocation hchannel.1 hm₁ hm₁.kept hchannel.1
  · intro _
    exact Issues.refl m

include hsource in
theorem replies_onRequestWriteToBand (target : Location) :
    Post (m.onRequestWriteToBand genTime clock source target)
      (m.Issues (m.Reply source genTime (.requestWriteToBand target))) fun _ => True := by
  unfold onRequestWriteToBand
  have hwrite : Post ((m.change (Tables.addLocation target)).write PUBLIC clock.now (.location target))
      (m.Issues (m.Reply source genTime (.requestWriteToBand target))) fun _ => True :=
    (issues_write _ trivial).imp fun _ h => (issues_addLocation m target).trans h
  apply issues_bind hwrite
  intro m₁ hm₁
  apply issues_getLocation_bind
  intro app happ
  have hjoin := issues_join (P := m.Reply source genTime (.requestWriteToBand target)) m₁ target.uid
    genTime happ (hm₁.registry ▸ hsource)
  apply issues_bind ((issues_write _ trivial).imp fun _ h => hjoin.trans h)
  intro m₂ _
  exact (issues_write _ trivial).imp fun _ h => (issues_registerBand m₂ _).trans h

theorem replies_checkCachedReadyToRead (m₁ : Master) (sourceId : UInt32) (fromTime : Int64) :
    Post (m₁.checkCachedReadyToRead clock source sourceId)
      (m₁.Issues (m.Reply source genTime (.requestReadFrom sourceId fromTime))) fun _ => True := by
  apply post_ite
  · rintro ⟨rfl, -⟩
    exact issues_write _ ⟨rfl, fromTime, rfl⟩
  · intro _
    exact Issues.refl m₁

/-- What is written of the tables when an application starts. -/
def tableMessages (t : Tables) : List Message :=
  (t.locations.entries.map fun entry => .location entry.2) ++
    (t.registry.entries.map fun entry => .register entry.2) ++
    (t.channels.entries.map fun entry => .channel entry.2) ++
    t.bands.entries.map fun entry => .band entry.2

theorem onRequestCachedDone_eq {destId : UInt32} (h : destId ∈ m.writers) :
    m.onRequestCachedDone genTime clock destId = .ok { m with
      written := m.written ++ ⟨destId, clock.now, .mark .RequestStart⟩ ::
        (tableMessages m.toTables).map fun message => ⟨destId, genTime, message⟩ } := by
  have hall : ∀ written messages,
      ({ m with written := written } : Master).writeAll destId genTime messages = .ok { m with
        written := written ++ messages.map fun message => ⟨destId, genTime, message⟩ } :=
    fun written messages => writeAll_eq (m := { m with written := written }) h messages
  rw [onRequestCachedDone, if_neg (not_not.mpr h), write_of_mem h]
  simp only [writeLocations, writeRegistries, writeChannels, writeBands, ok_bind, hall]
  simp [tableMessages]

theorem replies_onRequestCachedDone
    (hchannels : ∀ entry ∈ m.channels.entries, entry.2.sourceId ∈ m.registry) (destId : UInt32) :
    Post (m.onRequestCachedDone genTime clock destId)
      (m.Issues (m.Reply source genTime (.requestCachedDone destId))) fun _ => True := by
  by_cases hdest : destId ∈ m.writers
  · rw [onRequestCachedDone_eq hdest]
    refine ⟨id, ⟨_, rfl, ?_⟩, rfl, rfl, fun _ => id, fun _ => id, fun _ _ => .inl⟩
    intro w hw
    rcases List.mem_cons.mp hw with rfl | hw
    · rfl
    · obtain ⟨message, hmessage, rfl⟩ := List.mem_map.mp hw
      simp only [tableMessages, List.mem_append, List.mem_map] at hmessage
      rcases hmessage with ((⟨entry, -, rfl⟩ | ⟨entry, hentry, rfl⟩) | ⟨entry, hentry, rfl⟩) |
        ⟨entry, -, rfl⟩
      · trivial
      · exact ⟨⟨entry.1, hentry⟩, rfl⟩
      · exact hchannels entry hentry
      · trivial
  · rw [onRequestCachedDone, if_pos hdest]
    exact Issues.refl m

include hsource in
/-- The replies to a frame of a registered application. -/
theorem replies_react
    (hchannels : ∀ entry ∈ m.channels.entries, entry.2.sourceId ∈ m.registry) (event : Event) :
    Post (m.react source genTime clock event) (m.Issues (m.Reply source genTime event))
      fun _ => True := by
  cases event with
  | requestWriteTo destId => exact replies_onRequestWriteTo hsource destId
  | requestWriteToBand target => exact replies_onRequestWriteToBand hsource target
  | requestReadFrom sourceId fromTime =>
      apply issues_bind (replies_onRequestReadFrom sourceId fromTime)
      intro m₁ _
      exact replies_checkCachedReadyToRead m₁ sourceId fromTime
  | requestReadFromPublic sourceId fromTime => exact issues_doRequireReadFrom m trivial
  | requestReadFromSync sourceId fromTime => exact issues_doRequireReadFrom m trivial
  | channelRequest channel => exact replies_onChannelRequest channel
  | timeRequest request => exact issues_setTasks ..
  | location location =>
      exact (issues_write _ trivial).imp fun _ h => (issues_addLocation m location).trans h
  | requestCachedDone destId => exact replies_onRequestCachedDone hchannels destId
  | other => exact Issues.refl m

end Replies

/-! ## Timers -/

theorem issues_handleTimerTasks (hP : ∀ dest, P ⟨dest, 0, .mark .Time⟩) (m : Master) (now : Int64) :
    Post (m.handleTimerTasks now) (m.Issues P) fun _ => True := by
  have htask : ∀ (m : Master) uid id, Post (handleTimerTask now uid m id) (m.Issues P) fun _ => True := by
    intro m uid id
    unfold handleTimerTask
    cases (m.tasksOf uid).lookup id with
    | none => exact Issues.refl m
    | some task =>
        apply post_ite
        · intro _
          apply issues_bind (issues_write m (hP uid))
          intro m₁ _
          apply post_ite
          · intro _
            exact issues_setTasks m₁ uid _
          · intro _
            exact issues_setTasks m₁ uid _
        · intro _
          exact Issues.refl m
  apply post_foldlM (Issues.refl m)
  intro m₁ uid _ hm₁
  apply post_foldlM hm₁
  intro m₂ id _ hm₂
  exact (htask m₂ uid id).imp fun _ => hm₂.trans

theorem issues_feed (hP : ∀ dest, P ⟨dest, 0, .mark .Time⟩) (m : Master) (source : UInt32)
    (genTime : Int64) (frameLength : UInt32) (clock : Clock) :
    Post (m.feed source genTime frameLength clock) (m.Issues P) fun _ => True := by
  apply issues_bind (issues_handleTimerTasks hP m clock.now)
  intro m₁ _
  apply post_ite
  · intro _
    exact Issues.refl m₁
  · intro _
    exact ⟨fun hm => ⟨hm.location, hm.writesPublic, hm.registered, hm.channel, hm.joined⟩,
      ⟨[], by simp⟩, rfl, rfl, fun _ => id, fun _ => id, fun _ _ => .inl⟩

/-- What is written while a frame of a registered application is handled. -/
theorem replies_step {source : UInt32} (hsource : source ∈ m.registry)
    (hchannels : ∀ entry ∈ m.channels.entries, entry.2.sourceId ∈ m.registry) (genTime : Int64)
    (frameLength : UInt32) (clock : Clock) (event : Event) :
    Post (m.step (.frame source genTime frameLength clock event))
      (m.Issues (m.Reply source genTime event)) fun _ => True := by
  apply issues_bind (replies_react hsource hchannels event)
  intro m₁ _
  exact issues_feed (fun _ => trivial) m₁ source genTime frameLength clock

/-! ## The two requests of the start -/

section Requests

variable {source destId : UInt32} {genTime : Int64} {clock : Clock} (hm : m.Consistent)
  (hsource : source ∈ m.registry)

variable (genTime) in
include hm hsource in
/-- An application that asks to write is told to, a live receiver to read, and all of the channel. -/
theorem written_onRequestWriteTo (hdest : destId ∈ m.locations) :
    ∃ m', m.onRequestWriteTo genTime source destId = .ok m' ∧ m'.written = m.written ++
      ⟨source, genTime, .requestWriteTo destId⟩ ::
        ((if destId ∈ m.registry then [⟨destId, 0, .requestReadFrom source genTime⟩] else []) ++
          [⟨PUBLIC, genTime, .channel ⟨source, destId⟩⟩]) := by
  obtain ⟨hlocation, hwriter⟩ := hm.registered source hsource
  obtain ⟨location, hlookup⟩ := Option.isSome_iff_exists.mp (AList.lookup_isSome.mpr hlocation)
  have hpublic := hm.writesPublic
  have hlive : destId ∈ m.registry → destId ∈ m.writers := fun h => (hm.registered destId h).2
  by_cases hregistered : destId ∈ m.registry
  · simp [onRequestWriteTo, getLocation, hsource, hlookup, requireWriteTo, requireLiveReadFrom,
      doRequireReadFrom, announceChannel, write, change, Tables.CheckLocationExists, Tables.join,
      Tables.registerChannel, hlocation, hwriter, hpublic, hdest, hregistered, hlive]
  · simp [onRequestWriteTo, getLocation, hsource, hlookup, requireWriteTo, requireLiveReadFrom,
      announceChannel, write, change, Tables.CheckLocationExists, Tables.join,
      Tables.registerChannel, hlocation, hwriter, hpublic, hdest, hregistered]

variable (genTime) in
include hm hsource in
/-- Where both are live, the one is told to write and the other to read. -/
theorem written_onRequestReadFrom (hdest : destId ∈ m.registry) (fromTime : Int64) :
    ∃ m', m.onRequestReadFrom genTime source destId fromTime = .ok m' ∧
      m'.writers = m.writers ∧ m'.written = m.written ++
        [⟨destId, genTime, .requestWriteTo source⟩, ⟨source, genTime, .requestReadFrom destId fromTime⟩,
          ⟨PUBLIC, genTime, .channel ⟨destId, source⟩⟩] := by
  obtain ⟨hlocation, hwriter⟩ := hm.registered source hsource
  obtain ⟨hlocation', hwriter'⟩ := hm.registered destId hdest
  obtain ⟨location, hlookup⟩ := Option.isSome_iff_exists.mp (AList.lookup_isSome.mpr hlocation')
  have hpublic := hm.writesPublic
  simp [onRequestReadFrom, getLocation, hlookup, requireWriteTo, doRequireReadFrom, announceChannel,
    write, change, Tables.CheckLocationExists, Tables.CheckLocationLive, Tables.join,
    Tables.registerChannel, hsource, hdest, hlocation, hlocation', hwriter, hwriter', hpublic]

/-- After the handlers of a frame only timers write. -/
theorem written_step {frameLength : UInt32} {event : Event} {m₁ : Master}
    (hreact : m.react source genTime clock event = .ok m₁)
    (h : m.step (.frame source genTime frameLength clock event) = .ok m') :
    ∃ marks, m'.written = m₁.written ++ marks ∧ ∀ w ∈ marks, w.message = .mark .Time := by
  have hfeed : m₁.feed source genTime frameLength clock = .ok m' := by
    simpa [step, hreact] using h
  have hpost := issues_feed (P := fun w => w.message = .mark .Time) (fun _ => rfl) m₁ source genTime
    frameLength clock
  exact (hpost.of_ok hfeed).written

include hm hsource in
/-- The replies to a request to write. -/
theorem written_requestWriteTo {frameLength : UInt32} (hdest : destId ∈ m.locations)
    (h : m.step (.frame source genTime frameLength clock (.requestWriteTo destId)) = .ok m') :
    ∃ marks, m'.written = m.written ++ (⟨source, genTime, .requestWriteTo destId⟩ ::
        ((if destId ∈ m.registry then [⟨destId, 0, .requestReadFrom source genTime⟩] else []) ++
          [⟨PUBLIC, genTime, .channel ⟨source, destId⟩⟩])) ++ marks ∧
      ∀ w ∈ marks, w.message = .mark .Time := by
  obtain ⟨m₁, hm₁, hwritten⟩ := written_onRequestWriteTo genTime hm hsource hdest
  have hreact : m.react source genTime clock (.requestWriteTo destId) = .ok m₁ := hm₁
  rw [← hwritten]
  exact written_step hreact h

include hm hsource in
/-- The replies to a request to read from the cache: if it is there it is told to write, and in any
case the application that it is ready. -/
theorem written_requestReadFrom {frameLength : UInt32} {fromTime : Int64}
    (h : m.step (.frame source genTime frameLength clock
      (.requestReadFrom cachedHome.uid fromTime)) = .ok m') :
    ∃ marks, m'.written = m.written ++ (if cachedHome.uid ∈ m.registry then
        [⟨cachedHome.uid, genTime, .requestWriteTo source⟩,
          ⟨source, genTime, .requestReadFrom cachedHome.uid fromTime⟩,
          ⟨PUBLIC, genTime, .channel ⟨cachedHome.uid, source⟩⟩] else []) ++
        ⟨source, clock.now, .mark .CachedReadyToRead⟩ :: marks ∧
      ∀ w ∈ marks, w.message = .mark .Time := by
  obtain ⟨-, hwriter⟩ := hm.registered source hsource
  have hready : ∀ m₁ : Master, m₁.writers = m.writers →
      m₁.checkCachedReadyToRead clock source cachedHome.uid = .ok { m₁ with
        written := m₁.written ++ [⟨source, clock.now, .mark .CachedReadyToRead⟩] } := by
    intro m₁ hwriters
    rw [← hwriters] at hwriter
    rw [checkCachedReadyToRead, if_pos ⟨rfl, hwriter⟩, write_of_mem hwriter]
  by_cases hlive : cachedHome.uid ∈ m.registry
  · obtain ⟨m₁, hm₁, hwriters, hwritten⟩ :=
      written_onRequestReadFrom genTime hm hsource hlive fromTime
    have hreact : m.react source genTime clock (.requestReadFrom cachedHome.uid fromTime) =
        m₁.checkCachedReadyToRead clock source cachedHome.uid := by
      rw [react, hm₁, ok_bind]
    rw [hready m₁ hwriters] at hreact
    obtain ⟨marks, hmarks, htime⟩ := written_step hreact h
    exact ⟨marks, by simpa [hlive, hwritten] using hmarks, htime⟩
  · have hskip : m.onRequestReadFrom genTime source cachedHome.uid fromTime = .ok m :=
      if_pos fun hcheck => hlive hcheck.2.1
    have hreact : m.react source genTime clock (.requestReadFrom cachedHome.uid fromTime) =
        m.checkCachedReadyToRead clock source cachedHome.uid := by
      rw [react, hskip, ok_bind]
    rw [hready m rfl] at hreact
    obtain ⟨marks, hmarks, htime⟩ := written_step hreact h
    exact ⟨marks, by simpa [hlive] using hmarks, htime⟩

end Requests

/-! ## Registration -/

/-- What is written when an application registers. -/
def Notice (m : Master) (uid : UInt32) (w : Written) : Prop :=
  match w.message with
  | .register register =>
      (∃ uid, ⟨uid, register⟩ ∈ m.registry.entries) ∧ (w.dest = PUBLIC ∨ w.dest = uid)
  | .mark .RequestStart | .mark .CachedReadyToRead | .requestReadFrom _ _ | .channel _
  | .deregister _ => False
  | _ => True

/-- An application may be registered, and if so its journals are joined. -/
structure Enrolls (location : Location) (m m' : Master) : Prop where
  consistent : m.Consistent → m'.Consistent
  written : ∃ more, m'.written = m.written ++ more ∧ ∀ w ∈ more, m'.Notice location.uid w
  registry : ∀ entry ∈ m'.registry.entries, entry ∈ m.registry.entries ∨
    (entry.1 = location.uid ∧ entry.2.location = location)
  kept : ∀ uid ∈ m.registry, uid ∈ m'.registry
  joined : m.Consistent → ∀ k ∈ m'.joins, k ∈ m.joins ∨ k.location ∈ m'.registry

/-- Frames are written after others. -/
theorem Issues.then {m₀ : Master} (h : m₀.Issues P m) {x : Except Fault Master}
    (hx : Post x (m.Issues P) fun _ => True) {f : Master → Except Fault Master}
    (hf : ∀ m', m₀.Issues P m' → Post (f m') (m₀.Issues P) fun _ => True) :
    Post (x >>= f) (m₀.Issues P) fun _ => True :=
  hx.bind fun m' hm' => hf m' (h.trans hm')

theorem issues_announceApp {register : Register} (genTime : Int64) (clock : Clock)
    (hregister : ⟨register.location.uid, register⟩ ∈ m.registry.entries) :
    Post (m.announceApp genTime clock register) (m.Issues (m.Notice register.location.uid))
      fun _ => True := by
  unfold announceApp
  apply (Issues.refl m).then
  · exact issues_write _ trivial
  intro m₁ hm₁
  apply hm₁.then
  · exact issues_write _ trivial
  intro m₂ hm₂
  apply hm₂.then
  · exact issues_write _ ⟨⟨_, hregister⟩, .inl rfl⟩
  intro m₃ hm₃
  apply hm₃.then
  · exact issues_requireWriteTo _ trivial
  intro m₄ hm₄
  apply hm₄.then
  · exact issues_requireWriteTo _ trivial
  intro m₅ hm₅
  apply hm₅.then
  · exact issues_requireWriteTo _ trivial
  intro m₆ hm₆
  apply hm₆.then
  · exact issues_write _ trivial
  intro m₇ hm₇
  apply hm₇.then
  · exact issues_write _ trivial
  intro m₈ hm₈
  apply hm₈.then
  · apply issues_writeAll
    intro message hmessage
    obtain ⟨entry, -, rfl⟩ := List.mem_map.mp hmessage
    trivial
  intro m₉ hm₉
  have hregistries : Post (m₉.writeRegistries genTime register.location.uid)
      (m₉.Issues (m.Notice register.location.uid)) fun _ => True := by
    apply issues_writeAll
    intro message hmessage
    obtain ⟨entry, hentry, rfl⟩ := List.mem_map.mp hmessage
    rw [hm₉.registry] at hentry
    exact ⟨⟨_, hentry⟩, .inr rfl⟩
  exact hregistries.imp fun _ => hm₉.trans

theorem enrolls_registerApp (m : Master) (genTime : Int64) (clock : Clock) (register : Register) :
    Post (m.registerApp genTime clock register) (m.Enrolls register.location) fun _ => True := by
  apply post_ite
  · intro _
    exact ⟨id, ⟨[], by simp⟩, fun _ => .inl, fun _ => id, fun _ _ => .inl⟩
  · intro hnew
    refine (issues_announceApp genTime clock ?_).imp fun m' h => ?_
    · exact Table.mem_entries_tryEmplace.mpr (.inr ⟨hnew, rfl⟩)
    obtain ⟨more, hwritten, hmore⟩ := h.written
    have henroll : m'.registry = _ := h.registry
    constructor
    · intro hm
      exact h.consistent (Tables.Consistent.enroll hm clock _)
    · refine ⟨more, hwritten, fun w hw => ?_⟩
      have hnotice := hmore w hw
      unfold Notice at hnotice ⊢
      rw [henroll]
      exact hnotice
    · intro entry hentry
      rw [henroll] at hentry
      rcases Table.mem_entries_tryEmplace.mp hentry with hentry | ⟨-, rfl⟩
      · exact .inl hentry
      · exact .inr ⟨rfl, rfl⟩
    · intro uid huid
      rw [henroll]
      exact Table.mem_tryEmplace.mpr (.inr huid)
    · intro hm k hk
      rw [henroll]
      have hself : register.location.uid ∈ Table.tryEmplace register.location.uid
          { register with lastActiveTime := m.builder.sessions.findLastActiveTime register.location.uid }
          m.registry :=
        Table.mem_tryEmplace.mpr (.inl rfl)
      rcases h.joined (Tables.Consistent.enroll hm clock _) k hk with hk | hk
      · rcases Table.mem_tryEmplace.mp hk with rfl | hk
        · exact .inr hself
        · rcases Table.mem_tryEmplace.mp hk with rfl | hk
          · exact .inr hself
          · rcases Table.mem_tryEmplace.mp hk with rfl | hk
            · exact .inr hself
            · exact .inl hk
      · exact .inr hk

/-- The last frames of an application, and who is registered then. -/
theorem written_deregisterApp (hm : m.Consistent) {uid : UInt32}
    (h : m.deregisterApp triggerTime uid = .ok m') :
    m'.toTables = m.toTables.deregisterApp uid ∧ ∃ location, location.uid = uid ∧ m'.written =
      m.written ++ [⟨uid, triggerTime, .mark .SessionEnd⟩, ⟨PUBLIC, triggerTime, .deregister location⟩] := by
  refine ⟨((post_deregisterApp m triggerTime uid).of_ok h).2, ?_⟩
  obtain ⟨location, hlocation, h⟩ := exists_of_bind h
  obtain ⟨m₁, hm₁, h⟩ := exists_of_bind h
  refine ⟨location, (post_getLocation m uid).of_ok hlocation hm, ?_⟩
  have hend := (post_write_eq _ uid triggerTime (.mark .SessionEnd)).of_ok hm₁
  have hleave := (post_write_eq _ PUBLIC triggerTime (.deregister location)).of_ok h
  rw [hleave, hend]
  simp [record, change]

end Master

end Kungfu.Practice
