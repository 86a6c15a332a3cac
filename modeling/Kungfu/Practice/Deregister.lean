import Kungfu.Logic.Outcome
import Kungfu.Practice.Master

/-!
# What a deregistration leaves

`deregister_app` erases the channels, the bands and the journals of which the application is
the source.  Those by which others write to it stay, and when it registers again a request for
one of them is ignored, since its channel is on record.
-/

namespace Kungfu.Practice

open Longfist Yijinjing Index Outcome

theorem toNat_makeSourceDestHash (source dest : UInt32) :
    (makeSourceDestHash source dest).toNat = source.toNat * 2 ^ 32 + dest.toNat := by
  have hsource := source.toNat_lt
  have hdest := dest.toNat_lt
  have hshift : (source.toUInt64 <<< (32 : UInt64)).toNat = source.toNat <<< 32 := by
    simp [Nat.shiftLeft_eq]
    omega
  rw [makeSourceDestHash, UInt64.toNat_or, hshift, UInt32.toNat_toUInt64,
    ← Nat.shiftLeft_add_eq_or_of_lt hdest, Nat.shiftLeft_eq]

theorem makeSourceDestHash_inj {source dest source' dest' : UInt32}
    (h : makeSourceDestHash source dest = makeSourceDestHash source' dest') :
    source = source' ∧ dest = dest' := by
  have h' := congrArg UInt64.toNat h
  rw [toNat_makeSourceDestHash, toNat_makeSourceDestHash] at h'
  have hdest := dest.toNat_lt
  have hdest' := dest'.toNat_lt
  constructor
  · apply UInt32.toNat_inj.mp
    omega
  · apply UInt32.toNat_inj.mp
    omega

/-! ## Consistent tables -/

namespace Tables

structure Consistent (t : Tables) : Prop where
  location : ∀ entry ∈ t.locations.entries, entry.2.uid = entry.1
  writesPublic : PUBLIC ∈ t.writers
  registered : ∀ uid ∈ t.registry, uid ∈ t.locations ∧ uid ∈ t.writers
  channel : ∀ entry ∈ t.channels.entries,
    entry.1 = makeSourceDestHash entry.2.sourceId entry.2.destId
  joined : ∀ entry ∈ t.channels.entries, ⟨entry.2.sourceId, entry.2.destId⟩ ∈ t.joins

variable {t : Tables} {uid : UInt32}

theorem Consistent.addLocation (h : t.Consistent) (location : Location) :
    (t.addLocation location).Consistent := by
  constructor
  · intro entry hentry
    rcases Table.mem_entries_tryEmplace.mp hentry with hentry | ⟨-, rfl⟩
    · exact h.location entry hentry
    · rfl
  · exact h.writesPublic
  · intro uid huid
    exact ⟨Table.mem_tryEmplace.mpr (.inr (h.registered uid huid).1), (h.registered uid huid).2⟩
  · exact h.channel
  · exact h.joined

theorem Consistent.join (h : t.Consistent) (location dest : UInt32) (fromTime : Int64) :
    (t.join location dest fromTime).Consistent := by
  refine ⟨h.location, h.writesPublic, h.registered, h.channel, ?_⟩
  intro entry hentry
  exact Table.mem_tryEmplace.mpr (.inr (h.joined entry hentry))

theorem Consistent.registerChannel (h : t.Consistent) {channel : Channel}
    (hjoined : ⟨channel.sourceId, channel.destId⟩ ∈ t.joins) :
    (t.registerChannel channel).Consistent := by
  refine ⟨h.location, h.writesPublic, h.registered, ?_, ?_⟩
  · intro entry hentry
    rcases Table.mem_entries_tryEmplace.mp hentry with hentry | ⟨-, rfl⟩
    · exact h.channel entry hentry
    · rfl
  · intro entry hentry
    rcases Table.mem_entries_tryEmplace.mp hentry with hentry | ⟨-, rfl⟩
    · exact h.joined entry hentry
    · exact hjoined

/-- An application is registered once its location and its writer are there. -/
theorem Consistent.registerLocation (h : t.Consistent) (register : Register)
    (hlocation : register.location.uid ∈ t.locations) :
    ((t.registerLocation register).emplaceWriter register.location.uid).Consistent := by
  refine ⟨h.location, List.mem_cons_of_mem _ h.writesPublic, ?_, h.channel, h.joined⟩
  intro uid huid
  rcases Table.mem_tryEmplace.mp huid with rfl | huid
  · exact ⟨hlocation, List.mem_cons_self⟩
  · exact ⟨(h.registered uid huid).1, List.mem_cons_of_mem _ (h.registered uid huid).2⟩

theorem Consistent.deregisterApp (h : t.Consistent) (huid : uid ≠ PUBLIC) :
    (t.deregisterApp uid).Consistent := by
  constructor
  · exact h.location
  · exact List.mem_filter.mpr ⟨h.writesPublic, by simpa using huid.symm⟩
  · intro uid' huid'
    obtain ⟨hne, hregistered⟩ := AList.mem_erase.mp huid'
    obtain ⟨hlocation, hwriter⟩ := h.registered uid' hregistered
    exact ⟨hlocation, List.mem_filter.mpr ⟨hwriter, by simpa using hne⟩⟩
  · intro entry hentry
    exact h.channel entry (Table.mem_entries_eraseIf.mp hentry).1
  · intro entry hentry
    obtain ⟨hentry, hsource⟩ := Table.mem_entries_eraseIf.mp hentry
    obtain ⟨fromTime, hjoin⟩ := Table.exists_of_mem (h.joined entry hentry)
    have hkept : ⟨_, fromTime⟩ ∈ (t.deregisterApp uid).joins.entries :=
      Table.mem_entries_eraseIf.mpr ⟨hjoin, hsource⟩
    exact Table.mem_of_mem_entries hkept

/-- The channel on record under the hash of a request is the requested one. -/
theorem Consistent.mem_channels (h : t.Consistent) {source dest : UInt32}
    (hchannel : t.HasChannel source dest) :
    ⟨makeSourceDestHash source dest, ⟨source, dest⟩⟩ ∈ t.channels.entries := by
  obtain ⟨channel, hentry⟩ := Table.exists_of_mem hchannel
  obtain ⟨hsource, hdest⟩ := makeSourceDestHash_inj (h.channel _ hentry)
  rw [hsource, hdest] at hentry ⊢
  exact hentry

/-! ### What refers to an application -/

/-- No table refers to the application. -/
structure Forgotten (uid : UInt32) (t : Tables) : Prop where
  registry : uid ∉ t.registry
  writers : uid ∉ t.writers
  joins : ∀ entry ∈ t.joins.entries, entry.1.location ≠ uid ∧ entry.1.dest ≠ uid
  channels : ∀ entry ∈ t.channels.entries, entry.2.sourceId ≠ uid ∧ entry.2.destId ≠ uid
  bands : ∀ entry ∈ t.bands.entries, entry.2.sourceId ≠ uid ∧ entry.2.destId ≠ uid
  timerTasks : uid ∉ t.timerTasks

/-- Nobody else writes to the application. -/
structure Unaddressed (uid : UInt32) (t : Tables) : Prop where
  joins : ∀ entry ∈ t.joins.entries, entry.1.location ≠ uid → entry.1.dest ≠ uid
  channels : ∀ entry ∈ t.channels.entries, entry.2.sourceId ≠ uid → entry.2.destId ≠ uid
  bands : ∀ entry ∈ t.bands.entries, entry.2.sourceId ≠ uid → entry.2.destId ≠ uid

theorem forgotten_deregisterApp_iff :
    (t.deregisterApp uid).Forgotten uid ↔ t.Unaddressed uid := by
  constructor
  · intro h
    constructor
    · intro entry hentry hsource
      exact (h.joins entry (Table.mem_entries_eraseIf.mpr ⟨hentry, hsource⟩)).2
    · intro entry hentry hsource
      exact (h.channels entry (Table.mem_entries_eraseIf.mpr ⟨hentry, hsource⟩)).2
    · intro entry hentry hsource
      exact (h.bands entry (Table.mem_entries_eraseIf.mpr ⟨hentry, hsource⟩)).2
  · intro h
    constructor
    · intro huid
      exact (AList.mem_erase.mp huid).1 rfl
    · intro huid
      simp [deregisterApp, eraseWriter] at huid
    · intro entry hentry
      obtain ⟨hentry, hsource⟩ := Table.mem_entries_eraseIf.mp hentry
      exact ⟨hsource, h.joins entry hentry hsource⟩
    · intro entry hentry
      obtain ⟨hentry, hsource⟩ := Table.mem_entries_eraseIf.mp hentry
      exact ⟨hsource, h.channels entry hentry hsource⟩
    · intro entry hentry
      obtain ⟨hentry, hsource⟩ := Table.mem_entries_eraseIf.mp hentry
      exact ⟨hsource, h.bands entry hentry hsource⟩
    · intro huid
      exact (AList.mem_erase.mp huid).1 rfl

end Tables

/-! ## What a handler does -/

namespace Master

/-- Frames are written, and nothing else. -/
def Writes (m m' : Master) : Prop := ∃ more, m' = { m with written := m.written ++ more }

/-- The tables stay consistent, and each channel that is new was broadcast. -/
structure Keeps (m m' : Master) : Prop where
  consistent : m.Consistent → m'.Consistent
  announced : ∃ more, m'.written = m.written ++ more ∧ ∀ entry ∈ m'.channels.entries,
    entry ∈ m.channels.entries ∨ ∃ time, ⟨PUBLIC, time, .channel entry.2⟩ ∈ more

/-- The tables stay consistent under a handler, which leaves the registrations as they are. -/
structure Handles (m m' : Master) : Prop extends Keeps m m' where
  registry : m'.registry = m.registry

variable {m m' m'' : Master} {uid : UInt32}

theorem Writes.refl (m : Master) : m.Writes m := ⟨[], by simp⟩

theorem Writes.trans (h : m.Writes m') (h' : m'.Writes m'') : m.Writes m'' := by
  obtain ⟨more, rfl⟩ := h
  obtain ⟨more', rfl⟩ := h'
  exact ⟨more ++ more', by simp⟩

theorem Writes.toTables (h : m.Writes m') : m'.toTables = m.toTables := by
  obtain ⟨more, rfl⟩ := h
  rfl

theorem Keeps.refl (m : Master) : m.Keeps m :=
  ⟨id, [], by simp, fun _ => .inl⟩

theorem Keeps.trans (h : m.Keeps m') (h' : m'.Keeps m'') : m.Keeps m'' := by
  obtain ⟨more, hwritten, hannounced⟩ := h.announced
  obtain ⟨more', hwritten', hannounced'⟩ := h'.announced
  refine ⟨fun hm => h'.consistent (h.consistent hm), more ++ more', ?_, ?_⟩
  · rw [hwritten', hwritten, List.append_assoc]
  · intro entry hentry
    rcases hannounced' entry hentry with hentry | ⟨time, hmem⟩
    · rcases hannounced entry hentry with hentry | ⟨time, hmem⟩
      · exact .inl hentry
      · exact .inr ⟨time, List.mem_append_left _ hmem⟩
    · exact .inr ⟨time, List.mem_append_right _ hmem⟩

theorem Handles.refl (m : Master) : m.Handles m := ⟨Keeps.refl m, rfl⟩

theorem Handles.trans (h : m.Handles m') (h' : m'.Handles m'') : m.Handles m'' :=
  ⟨h.toKeeps.trans h'.toKeeps, h'.registry.trans h.registry⟩

/-- The tables are changed, but for the channels. -/
theorem keeps_of_tables (hconsistent : m.Consistent → m'.Consistent)
    (hchannels : m'.channels = m.channels) (hwritten : m'.written = m.written) : m.Keeps m' := by
  refine ⟨hconsistent, [], by rw [hwritten, List.append_nil], ?_⟩
  rw [hchannels]
  exact fun _ => .inl

theorem Writes.handles (h : m.Writes m') : m.Handles m' := by
  obtain ⟨more, rfl⟩ := h
  exact ⟨⟨id, more, rfl, fun _ => .inl⟩, rfl⟩

/-! ### Writing -/

theorem write_of_mem {dest : UInt32} (h : dest ∈ m.writers) (triggerTime : Int64)
    (message : Message) : m.write dest triggerTime message =
      .ok { m with written := m.written ++ [⟨dest, triggerTime, message⟩] } := if_pos h

theorem post_write (m : Master) (dest : UInt32) (triggerTime : Int64) (message : Message) :
    Post (m.write dest triggerTime message) m.Writes fun _ => True :=
  post_ite (fun _ => ⟨_, rfl⟩) fun _ => trivial

theorem post_writeAll (m : Master) (dest : UInt32) (triggerTime : Int64) (messages : List Message) :
    Post (m.writeAll dest triggerTime messages) m.Writes fun _ => True := by
  apply post_foldlM (Writes.refl m)
  intro m' message _ hm'
  exact (post_write m' ..).imp fun _ => hm'.trans

theorem post_requireWriteTo (m : Master) (triggerTime : Int64) (source dest : UInt32) :
    Post (m.requireWriteTo triggerTime source dest) m.Writes fun _ => True :=
  post_ite (fun _ => post_write ..) fun _ => Writes.refl m

theorem post_doRequireReadFrom (m : Master) (message : UInt32 → Int64 → Message)
    (triggerTime : Int64) (dest source : UInt32) (fromTime : Int64) :
    Post (m.doRequireReadFrom message triggerTime dest source fromTime) m.Writes fun _ => True :=
  post_ite (fun _ => trivial) fun _ => post_ite (fun _ => post_write ..) fun _ => Writes.refl m

/-- Two computations that only write. -/
theorem post_writes_bind {ε : Type} {x : Except ε Master} {f : Master → Except ε Master}
    (hx : Post x m.Writes fun _ => True)
    (hf : ∀ m', m.Writes m' → Post (f m') m'.Writes fun _ => True) :
    Post (x >>= f) m.Writes fun _ => True :=
  hx.bind fun m' hm' => (hf m' hm').imp fun _ => hm'.trans

/-- Two computations of handlers. -/
theorem post_handles_bind {ε : Type} {x : Except ε Master} {f : Master → Except ε Master}
    (hx : Post x m.Handles fun _ => True)
    (hf : ∀ m', m.Handles m' → Post (f m') m'.Handles fun _ => True) :
    Post (x >>= f) m.Handles fun _ => True :=
  hx.bind fun m' hm' => (hf m' hm').imp fun _ => hm'.trans

theorem post_getLocation (m : Master) (uid : UInt32) :
    Post (m.getLocation uid) (fun location => m.Consistent → location.uid = uid)
      fun _ => uid ∉ m.locations := by
  unfold getLocation
  cases hlocation : m.locations.lookup uid with
  | none => exact AList.lookup_eq_none.mp hlocation
  | some location =>
    intro hm
    exact hm.location _ (AList.mem_lookup_iff.mp hlocation)

/-! ### Channels -/

/-- A channel that is joined is recorded and broadcast. -/
theorem post_announceChannel {channel : Channel} (triggerTime : Int64) (h : m.Handles m')
    (hjoined : m.Consistent → ⟨channel.sourceId, channel.destId⟩ ∈ m'.joins) :
    Post (m'.announceChannel triggerTime channel) m.Handles fun _ => True := by
  obtain ⟨more, hwritten, hannounced⟩ := h.announced
  apply post_ite
  · intro _
    refine ⟨⟨fun hm => (h.consistent hm).registerChannel (hjoined hm),
      more ++ [⟨PUBLIC, triggerTime, .channel channel⟩], ?_, ?_⟩, h.registry⟩
    · rw [← List.append_assoc, ← hwritten]
      rfl
    · intro entry hentry
      rcases Table.mem_entries_tryEmplace.mp hentry with hentry | ⟨-, rfl⟩
      · exact (hannounced entry hentry).imp_right fun ⟨time, hmem⟩ =>
          ⟨time, List.mem_append_left _ hmem⟩
      · exact .inr ⟨triggerTime, List.mem_append_right _ List.mem_cons_self⟩
  · intro _
    trivial

theorem handles_join (m : Master) (location dest : UInt32) (fromTime : Int64) :
    m.Handles (m.change (Tables.join location dest fromTime)) :=
  ⟨keeps_of_tables (fun hm => hm.join location dest fromTime) rfl rfl, rfl⟩

theorem handles_addLocation (m : Master) (location : Location) :
    m.Handles (m.change (Tables.addLocation location)) :=
  ⟨keeps_of_tables (fun hm => hm.addLocation location) rfl rfl, rfl⟩

/-- A channel is announced after it was joined and other frames were written. -/
theorem post_announceJoined {location source dest : UInt32} {fromTime : Int64}
    (hlocation : m.Consistent → location = source)
    (h : (m.change (Tables.join location dest fromTime)).Writes m') (triggerTime : Int64) :
    Post (m'.announceChannel triggerTime ⟨source, dest⟩) m.Handles fun _ => True := by
  apply post_announceChannel triggerTime ((handles_join m location dest fromTime).trans h.handles)
  intro hm
  rw [h.toTables, hlocation hm]
  exact Table.mem_tryEmplace.mpr (.inl rfl)

/-! ### Requests -/

theorem post_requireLiveReadFrom (m : Master) (triggerTime : Int64) (dest source : UInt32) :
    Post (m.requireLiveReadFrom triggerTime dest source) m.Writes fun _ => True :=
  post_ite (fun _ => post_doRequireReadFrom ..) fun _ => Writes.refl m

theorem post_onRequestWriteTo (m : Master) (triggerTime : Int64) (appUid destId : UInt32) :
    Post (m.onRequestWriteTo triggerTime appUid destId) m.Handles fun _ => True := by
  apply post_ite
  · intro _
    exact Handles.refl m
  · intro _
    apply ((post_getLocation m appUid).mono (fun _ => id) fun _ _ => trivial).bind
    intro app happ
    apply (post_requireWriteTo _ triggerTime appUid destId).bind
    intro m₁ hm₁
    apply (post_requireLiveReadFrom m₁ triggerTime destId appUid).bind
    intro m₂ hm₂
    exact post_announceJoined happ (hm₁.trans hm₂) triggerTime

theorem post_onRequestReadFrom (m : Master) (triggerTime : Int64) (appUid sourceId : UInt32)
    (fromTime : Int64) :
    Post (m.onRequestReadFrom triggerTime appUid sourceId fromTime) m.Handles fun _ => True := by
  apply post_ite
  · intro _
    exact Handles.refl m
  · intro _
    apply ((post_getLocation m sourceId).mono (fun _ => id) fun _ _ => trivial).bind
    intro source hsource
    apply (post_requireWriteTo _ triggerTime sourceId appUid).bind
    intro m₁ hm₁
    apply (post_doRequireReadFrom m₁ .requestReadFrom triggerTime appUid sourceId fromTime).bind
    intro m₂ hm₂
    exact post_announceJoined hsource (hm₁.trans hm₂) triggerTime

theorem post_onChannelRequest (m : Master) (triggerTime : Int64) (channel : Channel) :
    Post (m.onChannelRequest triggerTime channel) m.Handles fun _ => True := by
  apply post_ite
  · intro _
    apply ((post_getLocation m channel.sourceId).mono (fun _ => id) fun _ _ => trivial).bind
    intro source hsource
    apply (post_requireWriteTo _ triggerTime channel.sourceId channel.destId).bind
    intro m₁ hm₁
    exact post_announceJoined hsource hm₁ triggerTime
  · intro _
    exact Handles.refl m

theorem post_onRequestWriteToBand (m : Master) (triggerTime : Int64) (clock : Clock)
    (appUid : UInt32) (target : Location) :
    Post (m.onRequestWriteToBand triggerTime clock appUid target) m.Handles fun _ => True := by
  unfold onRequestWriteToBand
  apply (post_write _ PUBLIC clock.now (.location target)).bind
  intro m₁ hm₁
  apply ((post_getLocation m₁ appUid).mono (fun _ => id) fun _ _ => trivial).bind
  intro app _
  apply (post_write _ appUid triggerTime (.requestWriteToBand target)).bind
  intro m₂ hm₂
  apply (post_write _ PUBLIC triggerTime (.band ⟨appUid, target.uid⟩)).imp
  intro m₃ hm₃
  have hband : m₂.Handles (m₂.change (Tables.registerBand ⟨appUid, target.uid⟩)) :=
    ⟨keeps_of_tables
      (fun hm => ⟨hm.location, hm.writesPublic, hm.registered, hm.channel, hm.joined⟩) rfl rfl, rfl⟩
  exact (handles_addLocation m target).trans <| hm₁.handles.trans <|
    (handles_join m₁ app.uid target.uid triggerTime).trans <| hm₂.handles.trans <|
      hband.trans hm₃.handles

theorem post_checkCachedReadyToRead (m : Master) (clock : Clock) (appUid sourceId : UInt32) :
    Post (m.checkCachedReadyToRead clock appUid sourceId) m.Writes fun _ => True :=
  post_ite (fun _ => post_write ..) fun _ => Writes.refl m

theorem post_onRequestCachedDone (m : Master) (triggerTime : Int64) (clock : Clock)
    (destId : UInt32) :
    Post (m.onRequestCachedDone triggerTime clock destId) m.Writes fun _ => True := by
  apply post_ite
  · intro _
    exact Writes.refl m
  · intro _
    apply post_writes_bind (post_write ..)
    intro m₁ _
    apply post_writes_bind (post_writeAll ..)
    intro m₂ _
    apply post_writes_bind (post_writeAll ..)
    intro m₃ _
    apply post_writes_bind (post_writeAll ..)
    intro m₄ _
    exact post_writeAll ..

theorem handles_setTasks (m : Master) (uid : UInt32)
    (f : Tables → AList fun _ : Int32 => TimerTask) :
    m.Handles (m.change fun t => t.setTasks uid (f t)) :=
  ⟨keeps_of_tables
    (fun hm => ⟨hm.location, hm.writesPublic, hm.registered, hm.channel, hm.joined⟩) rfl rfl, rfl⟩

theorem post_onNewLocation (m : Master) (triggerTime : Int64) (location : Location) :
    Post (m.onNewLocation triggerTime location) m.Handles fun _ => True :=
  (post_write ..).imp fun _ h => (handles_addLocation m location).trans h.handles

theorem post_handleTimerTasks (m : Master) (now : Int64) :
    Post (m.handleTimerTasks now) m.Handles fun _ => True := by
  have htask : ∀ (m : Master) uid id, Post (handleTimerTask now uid m id) m.Handles fun _ => True := by
    intro m uid id
    unfold handleTimerTask
    cases (m.tasksOf uid).lookup id with
    | none => exact Handles.refl m
    | some task =>
      apply post_ite
      · intro _
        apply (post_write m uid 0 (.mark .Time)).bind
        intro m₁ hm₁
        apply post_ite
        · intro _
          exact hm₁.handles.trans (handles_setTasks m₁ uid _)
        · intro _
          exact hm₁.handles.trans (handles_setTasks m₁ uid _)
      · intro _
        exact Handles.refl m
  apply post_foldlM (Handles.refl m)
  intro m₁ uid _ hm₁
  apply post_foldlM hm₁
  intro m₂ id _ hm₂
  exact (htask m₂ uid id).imp fun _ => hm₂.trans

/-! ### Registration -/

theorem Tables.Consistent.enroll {t : Tables} (h : t.Consistent) (clock : Clock)
    (register : Register) : (enroll clock register t).Consistent := by
  apply Tables.Consistent.join
  apply Tables.Consistent.join
  apply Tables.Consistent.join
  apply ((h.addLocation _).addLocation _).registerLocation
  exact Table.mem_tryEmplace.mpr (.inr (Table.mem_tryEmplace.mpr (.inl rfl)))

theorem post_announceApp (m : Master) (genTime : Int64) (clock : Clock) (register : Register) :
    Post (m.announceApp genTime clock register) m.Writes fun _ => True := by
  unfold announceApp
  apply post_writes_bind (post_write ..)
  intro m₁ _
  apply post_writes_bind (post_write ..)
  intro m₂ _
  apply post_writes_bind (post_write ..)
  intro m₃ _
  apply post_writes_bind (post_requireWriteTo ..)
  intro m₄ _
  apply post_writes_bind (post_requireWriteTo ..)
  intro m₅ _
  apply post_writes_bind (post_requireWriteTo ..)
  intro m₆ _
  apply post_writes_bind (post_write ..)
  intro m₇ _
  apply post_writes_bind (post_write ..)
  intro m₈ _
  apply post_writes_bind (post_writeAll ..)
  intro m₉ _
  exact post_writeAll ..

theorem post_registerApp (m : Master) (genTime : Int64) (clock : Clock) (register : Register) :
    Post (m.registerApp genTime clock register) m.Keeps fun _ => True := by
  apply post_ite
  · intro _
    exact Keeps.refl m
  · intro _
    apply (post_announceApp ..).imp
    intro m' hm'
    apply Keeps.trans _ hm'.handles.toKeeps
    apply keeps_of_tables
    · intro hm
      exact Tables.Consistent.enroll hm clock _
    · rfl
    · rfl

/-- The public journal is written last, so it was not the application's own. -/
theorem post_deregisterApp (m : Master) (triggerTime : Int64) (uid : UInt32) :
    Post (m.deregisterApp triggerTime uid) (fun m' => m.Keeps m' ∧
      m'.toTables = m.toTables.deregisterApp uid) fun _ => True := by
  unfold deregisterApp
  apply ((post_getLocation m uid).mono (fun _ => id) fun _ _ => trivial).bind
  intro location _
  apply (post_write _ uid triggerTime (.mark .SessionEnd)).bind
  intro m₁ hm₁
  have htables : m₁.toTables = m.toTables := hm₁.toTables
  obtain ⟨more, hwritten⟩ := hm₁
  apply post_ite
  · intro hpublic
    have huid : uid ≠ PUBLIC := by
      rintro rfl
      simp [change, Tables.deregisterApp, Tables.eraseWriter] at hpublic
    refine ⟨⟨?_, more ++ [⟨PUBLIC, triggerTime, .deregister location⟩], ?_, ?_⟩, ?_⟩
    · intro hm
      rw [← htables] at hm
      exact hm.deregisterApp huid
    · rw [hwritten, ← List.append_assoc]
      rfl
    · intro entry hentry
      have hmem := (Table.mem_entries_eraseIf.mp hentry).1
      rw [htables] at hmem
      exact .inl hmem
    · rw [← htables]
      rfl
  · intro _
    trivial

theorem post_react (m : Master) (source : UInt32) (genTime : Int64) (clock : Clock)
    (event : Event) : Post (m.react source genTime clock event) m.Handles fun _ => True := by
  cases event with
  | requestWriteTo destId => exact post_onRequestWriteTo ..
  | requestWriteToBand target => exact post_onRequestWriteToBand ..
  | requestReadFrom sourceId fromTime =>
    apply post_handles_bind (post_onRequestReadFrom ..)
    intro m₁ _
    exact (post_checkCachedReadyToRead ..).imp fun _ => Writes.handles
  | requestReadFromPublic sourceId fromTime =>
    exact (post_doRequireReadFrom ..).imp fun _ => Writes.handles
  | requestReadFromSync sourceId fromTime =>
    exact (post_doRequireReadFrom ..).imp fun _ => Writes.handles
  | channelRequest channel => exact post_onChannelRequest ..
  | timeRequest request => exact handles_setTasks ..
  | location location => exact post_onNewLocation ..
  | requestCachedDone destId => exact (post_onRequestCachedDone ..).imp fun _ => Writes.handles
  | other => exact Handles.refl m

theorem post_feed (m : Master) (source : UInt32) (genTime : Int64) (frameLength : UInt32)
    (clock : Clock) :
    Post (m.feed source genTime frameLength clock) m.Handles fun _ => True := by
  apply post_handles_bind (post_handleTimerTasks m clock.now)
  intro m₁ _
  apply post_ite
  · intro _
    exact Handles.refl m₁
  · intro _
    exact ⟨keeps_of_tables id rfl rfl, rfl⟩

theorem post_step (m : Master) (s : Step) : Post (m.step s) m.Keeps fun _ => True := by
  cases s with
  | register genTime clock register => exact post_registerApp ..
  | frame source genTime frameLength clock event =>
    apply (post_handles_bind (post_react ..) fun m₁ _ => post_feed ..).imp
    exact fun _ h => h.toKeeps
  | deregister triggerTime uid => exact (post_deregisterApp ..).imp fun _ h => h.1
  | active clock => exact (post_handleTimerTasks ..).imp fun _ h => h.toKeeps
  | publishTimeReset clock => exact (post_write ..).imp fun _ h => h.handles.toKeeps
  | publishTradingDay clock => exact (post_write ..).imp fun _ h => h.handles.toKeeps

/-- The tables stay consistent over a run, and each channel that is new was broadcast. -/
theorem keeps_of_run {steps : List Step} (h : m.run steps = .ok m') : m.Keeps m' := by
  have hpost : Post (m.run steps) m.Keeps fun _ => True := by
    apply post_foldlM (Keeps.refl m)
    intro m₁ s _ hm₁
    exact (post_step m₁ s).imp fun _ => hm₁.trans
  exact hpost.of_ok h

/-- A state that a master can be in. -/
def Reachable (m : Master) : Prop :=
  ∃ stored builder steps, (start stored builder).run steps = .ok m

theorem consistent_start (stored : List Location) (builder : SessionBuilder) :
    (start stored builder).Consistent := by
  refine ⟨?_, List.mem_cons_self, nofun, nofun, nofun⟩
  suffices hall : ∀ table : AList fun _ : UInt32 => Location,
      (∀ entry ∈ table.entries, entry.2.uid = entry.1) →
      ∀ entry ∈ (stored.foldl (fun table location =>
        Table.tryEmplace location.uid location table) table).entries, entry.2.uid = entry.1 from
    hall ∅ nofun
  intro table htable
  induction stored generalizing table with
  | nil => exact htable
  | cons location stored ih =>
    apply ih
    intro entry hentry
    rcases Table.mem_entries_tryEmplace.mp hentry with hentry | ⟨-, rfl⟩
    · exact htable entry hentry
    · rfl

theorem Reachable.consistent (h : m.Reachable) : m.Consistent := by
  obtain ⟨stored, builder, steps, hrun⟩ := h
  exact (keeps_of_run hrun).consistent (consistent_start stored builder)

/-! ## Deregistration -/

/-- An application that is registered can be deregistered, unless it is the public location. -/
theorem exists_deregisterApp (hm : m.Consistent) (huid : uid ∈ m.registry) (hpublic : uid ≠ PUBLIC)
    (triggerTime : Int64) : ∃ m', m.deregisterApp triggerTime uid = .ok m' := by
  obtain ⟨hlocation, hwriter⟩ := hm.registered uid huid
  obtain ⟨location, hlookup⟩ := Option.isSome_iff_exists.mp (AList.lookup_isSome.mpr hlocation)
  have hget : m.getLocation uid = .ok location := by rw [getLocation, hlookup]
  have hkept : PUBLIC ∈ (m.toTables.deregisterApp uid).writers := (hm.deregisterApp hpublic).writesPublic
  simp only [deregisterApp, hget, ok_bind, write, hwriter, if_true]
  exact ⟨_, if_pos hkept⟩

/-- A channel request whose source is live leaves the channel on record. -/
theorem exists_onChannelRequest (hm : m.Consistent) {channel : Channel}
    (hsource : channel.sourceId ∈ m.registry) (triggerTime : Int64) :
    ∃ m', m.onChannelRequest triggerTime channel = .ok m' ∧
      m'.HasChannel channel.sourceId channel.destId := by
  by_cases hchannel : m.HasChannel channel.sourceId channel.destId
  · exact ⟨m, if_neg fun h => h.2 hchannel, hchannel⟩
  · obtain ⟨hlocation, hwriter⟩ := hm.registered _ hsource
    obtain ⟨source, hlookup⟩ := Option.isSome_iff_exists.mp (AList.lookup_isSome.mpr hlocation)
    have hget : m.getLocation channel.sourceId = .ok source := by rw [getLocation, hlookup]
    have hwrite : ∃ m₁, (m.change (Tables.join source.uid channel.destId triggerTime)).requireWriteTo
        triggerTime channel.sourceId channel.destId = .ok m₁ := by
      unfold requireWriteTo
      split
      · exact ⟨_, if_pos hwriter⟩
      · exact ⟨_, rfl⟩
    obtain ⟨m₁, hwrite⟩ := hwrite
    have htables := ((post_requireWriteTo ..).of_ok hwrite).toTables
    rw [onChannelRequest, if_pos ⟨hsource, hchannel⟩, hget, ok_bind]
    simp only [hwrite, ok_bind]
    refine ⟨_, write_of_mem ?_ .., Table.mem_tryEmplace.mpr (.inl rfl)⟩
    have hpublic : PUBLIC ∈ m₁.writers := by
      rw [htables]
      exact hm.writesPublic
    exact hpublic

/-- From here on, the channels to and from an application are joined, recorded and broadcast when
they are asked for, whatever happens meanwhile. -/
def AnnouncesAnew (uid : UInt32) (m : Master) : Prop :=
  ∀ steps m', m.run steps = .ok m' → ∀ channel : Channel,
    channel.sourceId = uid ∨ channel.destId = uid → channel.sourceId ∈ m'.registry →
      ∀ triggerTime, ∃ m'', m'.onChannelRequest triggerTime channel = .ok m'' ∧
        ⟨channel.sourceId, channel.destId⟩ ∈ m''.joins ∧
        m''.HasChannel channel.sourceId channel.destId ∧
        ∃ time, ⟨PUBLIC, time, .channel channel⟩ ∈ m''.written.drop m.written.length

theorem announcesAnew (hm : m.Consistent) (huid : m.Forgotten uid) : m.AnnouncesAnew uid := by
  intro steps m' hrun channel hends hsource triggerTime
  have hkeeps := keeps_of_run hrun
  obtain ⟨m'', hrequest, hchannel⟩ :=
    exists_onChannelRequest (hkeeps.consistent hm) hsource triggerTime
  have hkeeps' := hkeeps.trans ((post_onChannelRequest ..).of_ok hrequest).toKeeps
  have hentry := (hkeeps'.consistent hm).mem_channels hchannel
  refine ⟨m'', hrequest, (hkeeps'.consistent hm).joined _ hentry, hchannel, ?_⟩
  obtain ⟨more, hwritten, hannounced⟩ := hkeeps'.announced
  rw [hwritten, List.drop_left]
  -- a channel that was on record before would refer to the application
  refine (hannounced _ hentry).resolve_left fun hold => ?_
  obtain ⟨hsourceNe, hdestNe⟩ := huid.channels _ hold
  rcases hends with h | h
  · exact hsourceNe h
  · exact hdestNe h

/-- A deregistration leaves nothing of an application, so that its channels are announced anew,
exactly if it is not the public location and nobody else writes to it. -/
theorem deregister_complete_iff (hm : m.Reachable) (huid : uid ∈ m.registry) (triggerTime : Int64) :
    (∃ m', m.deregisterApp triggerTime uid = .ok m' ∧ m'.Forgotten uid ∧ m'.AnnouncesAnew uid) ↔
      uid ≠ PUBLIC ∧ m.Unaddressed uid := by
  constructor
  · rintro ⟨m', hderegister, hforgotten, -⟩
    obtain ⟨hkeeps, htables⟩ := (post_deregisterApp ..).of_ok hderegister
    constructor
    · rintro rfl
      exact hforgotten.writers (hkeeps.consistent hm.consistent).writesPublic
    · rw [htables] at hforgotten
      exact Tables.forgotten_deregisterApp_iff.mp hforgotten
  · rintro ⟨hpublic, hunaddressed⟩
    obtain ⟨m', hderegister⟩ := exists_deregisterApp hm.consistent huid hpublic triggerTime
    obtain ⟨hkeeps, htables⟩ := (post_deregisterApp ..).of_ok hderegister
    have hforgotten : m'.Forgotten uid := by
      rw [htables]
      exact Tables.forgotten_deregisterApp_iff.mpr hunaddressed
    exact ⟨m', hderegister, hforgotten, announcesAnew (hkeeps.consistent hm.consistent) hforgotten⟩

/-! ### Two applications -/

def exampleBuilder : SessionBuilder where
  sessions _ := ∅
  live _ := none

def exampleClock : Clock := ⟨0, 0, 0, 0⟩

def exampleReader : Register := ⟨⟨9, .STRATEGY, .LIVE, "default", "demo"⟩, 100, 0, 0⟩

def exampleSource : Register := ⟨⟨8, .TD, .LIVE, "ctp", "account"⟩, 101, 0, 0⟩

/-- The tables refer to an application where others write to it. -/
instance (t : Tables) (uid : UInt32) : Decidable (t.Unaddressed uid) :=
  have : Decidable (∀ entry ∈ t.joins.entries, entry.1.location ≠ uid → entry.1.dest ≠ uid) :=
    List.decidableBAll _ _
  have : Decidable (∀ entry ∈ t.channels.entries,
      entry.2.sourceId ≠ uid → entry.2.destId ≠ uid) := List.decidableBAll _ _
  have : Decidable (∀ entry ∈ t.bands.entries,
      entry.2.sourceId ≠ uid → entry.2.destId ≠ uid) := List.decidableBAll _ _
  decidable_of_iff (_ ∧ _ ∧ _) ⟨fun h => ⟨h.1, h.2.1, h.2.2⟩, fun h => ⟨h.1, h.2, h.3⟩⟩

/-- Both register. -/
def exampleSteps : List Step :=
  [.register 10 exampleClock exampleSource, .register 20 exampleClock exampleReader]

/-- The one to which nobody writes leaves nothing. -/
theorem deregister_complete_example :
    ∃ m m', (start [] exampleBuilder).run exampleSteps = .ok m ∧
      m.deregisterApp 40 9 = .ok m' ∧ m'.Forgotten 9 ∧ m'.AnnouncesAnew 9 := by
  have hrun : ((start [] exampleBuilder).run exampleSteps).toOption.any
      (fun m => decide (9 ∈ m.registry ∧ m.Unaddressed 9)) = true := by decide +kernel
  obtain ⟨m, hrun, hm⟩ := exists_of_any hrun
  obtain ⟨hregistered, hunaddressed⟩ := of_decide_eq_true hm
  obtain ⟨m', h⟩ := (deregister_complete_iff ⟨[], exampleBuilder, exampleSteps, hrun⟩ hregistered 40).mpr
    ⟨by decide, hunaddressed⟩
  exact ⟨m, m', hrun, h⟩

/-- The one that reads from the other leaves the channel by which the other writes to it.  When it
registers again, a request for that channel changes nothing. -/
theorem channel_left_behind :
    ∃ m m' m'', (start [] exampleBuilder).run
        (exampleSteps ++ [.frame 9 30 64 exampleClock (.requestReadFrom 8 0)]) = .ok m ∧
      9 ∈ m.registry ∧ m.deregisterApp 40 9 = .ok m' ∧ ¬ m'.Forgotten 9 ∧
      m'.registerApp 50 exampleClock exampleReader = .ok m'' ∧ 8 ∈ m''.registry ∧
      m''.onChannelRequest 60 ⟨8, 9⟩ = .ok m'' := by
  have hreturns : ((start [] exampleBuilder).run
      (exampleSteps ++ [.frame 9 30 64 exampleClock (.requestReadFrom 8 0)])).toOption.any
      (fun m => decide (9 ∈ m.registry ∧ ¬ m.Unaddressed 9) &&
        (m.deregisterApp 40 9).toOption.any fun m' =>
          (m'.registerApp 50 exampleClock exampleReader).toOption.any fun m'' =>
            decide (8 ∈ m''.registry ∧ m''.HasChannel 8 9)) = true := by decide +kernel
  obtain ⟨m, hrun, hm⟩ := exists_of_any hreturns
  obtain ⟨hleft, hm⟩ := Bool.and_eq_true_iff.mp hm
  obtain ⟨hregistered, haddressed⟩ := of_decide_eq_true hleft
  obtain ⟨m', hderegister, hm'⟩ := exists_of_any hm
  obtain ⟨m'', hregister, hm''⟩ := exists_of_any hm'
  obtain ⟨hsource, hchannel⟩ := of_decide_eq_true hm''
  have htables := ((post_deregisterApp ..).of_ok hderegister).2
  refine ⟨m, m', m'', hrun, hregistered, hderegister, ?_, hregister, hsource, ?_⟩
  · rw [htables, Tables.forgotten_deregisterApp_iff]
    exact haddressed
  · exact if_neg fun h => h.2 hchannel

end Master

end Kungfu.Practice
