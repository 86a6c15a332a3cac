import Kungfu.Api.Service
import Kungfu.Logic.Run

/-!
# Subscriptions to market data

A session keeps the instruments that it subscribes to twice: by instrument, which decides whether a
source is told, and by source.  The broker client keeps one source for each instrument.  The three
agree as long as an instrument is asked for at one source only, and nothing is asked for a client
that is gone.
-/

namespace Kungfu.Api

open Longfist Yijinjing Index Practice Logic

/-! ## What a source was told -/

namespace Sent

/-- The instrument that the message is about. -/
def key (m : Sent) : InstrumentKey :=
  match m.message with
  | .instrumentKey key => key
  | .instrumentUnsubscribe key => key

/-- The message is about the instrument, to the source. -/
def About (md : UInt32) (exchangeId instrumentId : String) (m : Sent) : Prop :=
  m.dest = md ∧ m.key.exchangeId = exchangeId ∧ m.key.instrumentId = instrumentId

instance (md : UInt32) (exchangeId instrumentId : String) (m : Sent) :
    Decidable (m.About md exchangeId instrumentId) := inferInstanceAs (Decidable (_ ∧ _))

/-- The message asks for an instrument. -/
def subscribes (m : Sent) : Bool :=
  match m.message with
  | .instrumentKey _ => true
  | .instrumentUnsubscribe _ => false

end Sent

/-- The net effect of what was sent to a source for an instrument. -/
def told (sent : List Sent) (md : UInt32) (exchangeId instrumentId : String) : Bool :=
  sent.foldl (fun b m => if m.About md exchangeId instrumentId then m.subscribes else b) false

section Told

variable {sent : List Sent} {m : Sent} {md : UInt32} {exchangeId instrumentId : String}

@[simp] theorem told_nil : told [] md exchangeId instrumentId = false := rfl

@[simp] theorem told_concat : told (sent ++ [m]) md exchangeId instrumentId =
    if m.About md exchangeId instrumentId then m.subscribes
    else told sent md exchangeId instrumentId := by
  simp [told]

end Told

/-! ## The records of a session -/

namespace ClientSession

variable {c : ClientSession} {md md' k k' : UInt32} {key : InstrumentKey}

/-- The record of an instrument at a source. -/
def mdKey (c : ClientSession) (md k : UInt32) : Option InstrumentKey :=
  (c.mdSubscribedKeys.lookup md).bind (·.lookup k)

@[simp] theorem mdKey_new : new.mdKey md k = none := rfl

theorem mem_addKey : k ∈ (c.addKey md key).subscribedKeys ↔ k = key.key ∨ k ∈ c.subscribedKeys :=
  AList.mem_insert _

theorem mem_eraseKey : k' ∈ (c.eraseKey md k).subscribedKeys ↔ k' ≠ k ∧ k' ∈ c.subscribedKeys :=
  AList.mem_erase

theorem mdKey_addKey : (c.addKey md key).mdKey md' k' =
    if md' = md ∧ k' = key.key then some key else c.mdKey md' k' := by
  by_cases hmd : md' = md
  · subst hmd
    have hkeys : (c.addKey md' key).mdKey md' k' =
        (((c.mdSubscribedKeys.lookup md').getD ∅).insert key.key key).lookup k' := by
      simp [mdKey, addKey]
    rw [hkeys, Table.lookup_insert_apply]
    cases h : c.mdSubscribedKeys.lookup md' <;> simp [mdKey, h]
  · simp [mdKey, addKey, hmd]

theorem mdKey_eraseKey : (c.eraseKey md k).mdKey md' k' =
    if md' = md ∧ k' = k then none else c.mdKey md' k' := by
  by_cases hmd : md' = md
  · subst hmd
    cases h : c.mdSubscribedKeys.lookup md' with
    | none => simp [mdKey, eraseKey, h]
    | some keys =>
        by_cases hempty : (keys.erase k).entries = []
        · have hnone : (keys.erase k).lookup k' = none := by simp [AList.lookup, hempty]
          rw [Table.lookup_erase_apply] at hnone
          simp [mdKey, eraseKey, h, hempty, hnone]
        · simp [mdKey, eraseKey, h, hempty, Table.lookup_erase_apply]
  · cases h : c.mdSubscribedKeys.lookup md with
    | none => simp [mdKey, eraseKey, h, hmd]
    | some keys =>
        by_cases hempty : (keys.erase k).entries = []
        · simp [mdKey, eraseKey, h, hempty, hmd]
        · simp [mdKey, eraseKey, h, hempty, hmd]

/-- The records, with their sources. -/
def records (c : ClientSession) : List (UInt32 × Sigma fun _ : UInt32 => InstrumentKey) :=
  c.mdSubscribedKeys.entries.flatMap fun entry => entry.2.entries.map (entry.1, ·)

@[simp] theorem records_new : new.records = [] := rfl

theorem mem_records : (md, ⟨k, key⟩) ∈ c.records ↔ c.mdKey md k = some key := by
  simp only [records, List.mem_flatMap, List.mem_map, mdKey, Option.bind_eq_some_iff]
  constructor
  · rintro ⟨⟨md', keys⟩, hentry, entry, hkey, heq⟩
    obtain ⟨rfl, rfl⟩ := Prod.mk.inj heq
    exact ⟨keys, AList.mem_lookup_iff.mpr hentry, AList.mem_lookup_iff.mpr hkey⟩
  · rintro ⟨keys, hentry, hkey⟩
    exact ⟨⟨md, keys⟩, AList.mem_lookup_iff.mp hentry, ⟨k, key⟩, AList.mem_lookup_iff.mp hkey, rfl⟩

end ClientSession

namespace ApiService

theorem key_of_instrumentKeyOf {exchangeId instrumentId : String} {key : InstrumentKey}
    (h : instrumentKeyOf exchangeId instrumentId = .ok key) :
    key.key = hashInstrument key.exchangeId key.instrumentId ∧ key.exchangeId = cStr exchangeId ∧
      key.instrumentId = cStr instrumentId := by
  unfold instrumentKeyOf at h
  cases htype : Wingchun.getInstrumentType exchangeId instrumentId with
  | error fault =>
      rw [htype] at h
      cases h
  | ok instrumentType =>
      rw [htype] at h
      cases h
      exact ⟨rfl, rfl, rfl⟩

/-- Texts that fit are the ids of the key. -/
theorem ids_eq {exchangeId instrumentId : String} {key : InstrumentKey}
    (hfit : IdsFit exchangeId instrumentId) (h : instrumentKeyOf exchangeId instrumentId = .ok key) :
    key.key = hashInstrument exchangeId instrumentId ∧ key.exchangeId = exchangeId ∧
      key.instrumentId = instrumentId := by
  obtain ⟨hkey, hexchange, hinstrument⟩ := key_of_instrumentKeyOf h
  rw [hfit.cStr_eq.1] at hexchange
  rw [hfit.cStr_eq.2] at hinstrument
  exact ⟨by rw [hkey, hexchange, hinstrument], hexchange, hinstrument⟩

section Model

variable (s : ApiService)

/-- Some session subscribes to an instrument at a source. -/
def Subscribes (md : UInt32) (exchangeId instrumentId : String) : Prop :=
  ∃ entry ∈ s.sessions.entries, ∃ key ∈ entry.2.mdKey md (hashInstrument exchangeId instrumentId),
    key.exchangeId = exchangeId ∧ key.instrumentId = instrumentId

/-- Every source was told, and would be told again, exactly what sessions subscribe to there, and
no client that is gone has a session. -/
structure MdAgrees : Prop where
  told : ∀ md exchangeId instrumentId, told s.md.sent md exchangeId instrumentId = true ↔
    s.Subscribes md exchangeId instrumentId
  renewed : ∀ md exchangeId instrumentId, (∃ key ∈ s.md.client.renewed md,
      key.exchangeId = exchangeId ∧ key.instrumentId = instrumentId) ↔
    s.Subscribes md exchangeId instrumentId
  gone : ∀ id ∈ s.cleaned, id ∉ s.sessions

/-- All records of an instrument's key in a session are of that instrument at that source. -/
def KeySeparate (c : ClientSession) (md : UInt32) (exchangeId instrumentId : String) : Prop :=
  ∀ record ∈ c.records, record.2.1 = hashInstrument exchangeId instrumentId →
    record.1 = md ∧ record.2.2.exchangeId = exchangeId ∧ record.2.2.instrumentId = instrumentId

instance (c : ClientSession) (md : UInt32) (exchangeId instrumentId : String) :
    Decidable (KeySeparate c md exchangeId instrumentId) := List.decidableBAll _ _

/-- A request comes before its client is gone.  No session has the instrument, or one with the same
key, at another source when it is asked for, nor does the broker client keep another source for it;
and a session that gives it up does not have it at another source. -/
def Separate : Op → Prop
  | .requestMarketData id (some md) exchangeId instrumentId =>
      md.uid ∈ s.writers → exchangeId ≠ "" → instrumentId ≠ "" → IdsFit exchangeId instrumentId ∧
        ((instrumentKeyOf exchangeId instrumentId).isOk → id ∉ s.cleaned ∧
          (∀ entry ∈ s.sessions.entries, KeySeparate entry.2 md.uid exchangeId instrumentId) ∧
          ∀ md' ∈ s.md.client.instrumentMdLocations.lookup (hashInstrument exchangeId instrumentId),
            md' = md.uid)
  | .cancelMarketData id (some md) exchangeId instrumentId =>
      id ∉ s.cleaned ∧ IdsFit exchangeId instrumentId ∧
        KeySeparate (s.session id) md.uid exchangeId instrumentId
  | _ => True

instance decidableForallMemOption (o : Option UInt32) (md : UInt32) :
    Decidable (∀ md' ∈ o, md' = md) :=
  match o with
  | none => isTrue (by simp)
  | some x => decidable_of_iff (x = md) (by simp)

instance decidableSeparate : ∀ op, Decidable (s.Separate op)
  | .requestMarketData _ none _ _ | .cancelMarketData _ none _ _ => inferInstanceAs (Decidable True)
  | .requestMarketData _ (some _) _ _ => inferInstanceAs (Decidable (_ → _))
  | .cancelMarketData _ (some _) _ _ => inferInstanceAs (Decidable (_ ∧ _))
  | .accept | .onWriteTo _ | .addLocation _ | .page _ | .register _ | .deregister _ | .readFrom _ _
  | .subscribeStrategy _ _ | .unsubscribeStrategy _ _ | .issueOrder _ _ | .strategyEvent _ _ _
  | .cleanup _ => inferInstanceAs (Decidable True)

end Model

/-! ## The invariant -/

section Sessions

variable {s s' : ApiService} {id id' md k : UInt32} {c : ClientSession} {key : InstrumentKey}
  {exchangeId instrumentId : String}

theorem exists_entry_iff {P : ClientSession → Prop} (hnew : ¬ P .new) :
    (∃ entry ∈ s.sessions.entries, P entry.2) ↔ ∃ id, P (s.session id) := by
  constructor
  · rintro ⟨⟨id, c⟩, hentry, hP⟩
    refine ⟨id, ?_⟩
    rwa [session, AList.mem_lookup_iff.mpr hentry]
  · rintro ⟨id, hP⟩
    cases h : s.sessions.lookup id with
    | none =>
        rw [session, h] at hP
        exact absurd hP hnew
    | some c =>
        rw [session, h] at hP
        exact ⟨⟨id, c⟩, AList.mem_lookup_iff.mp h, hP⟩

/-- Some session has the record of an instrument at a source. -/
def Recorded (s : ApiService) (md k : UInt32) (key : InstrumentKey) : Prop :=
  ∃ id, (s.session id).mdKey md k = some key

theorem forall_entry_iff {P : ClientSession → Prop} (hnew : P .new) :
    (∀ entry ∈ s.sessions.entries, P entry.2) ↔ ∀ id, P (s.session id) := by
  constructor
  · intro h id
    cases hlookup : s.sessions.lookup id with
    | none =>
        rw [session, hlookup]
        exact hnew
    | some c =>
        rw [session, hlookup]
        exact h ⟨id, c⟩ (AList.mem_lookup_iff.mp hlookup)
  · rintro h ⟨id, c⟩ hentry
    have hP := h id
    rwa [session, AList.mem_lookup_iff.mpr hentry] at hP

theorem notMem_insert_of_cleaned (hgone : ∀ id ∈ s.cleaned, id ∉ s.sessions) (hid : id ∉ s.cleaned) :
    ∀ id' ∈ s.cleaned, id' ∉ s.sessions.insert id c := by
  intro id' hcleaned hmem
  rcases AList.mem_insert _ |>.mp hmem with heq | hold
  · exact hid (heq ▸ hcleaned)
  · exact hgone id' hcleaned hold

theorem subscribes_iff : s.Subscribes md exchangeId instrumentId ↔
    ∃ key, s.Recorded md (hashInstrument exchangeId instrumentId) key ∧
      key.exchangeId = exchangeId ∧ key.instrumentId = instrumentId := by
  rw [Subscribes, exists_entry_iff (P := fun c =>
    ∃ key ∈ c.mdKey md (hashInstrument exchangeId instrumentId),
      key.exchangeId = exchangeId ∧ key.instrumentId = instrumentId) (by simp)]
  constructor
  · rintro ⟨id, key, hkey, hids⟩
    exact ⟨key, ⟨id, hkey⟩, hids⟩
  · rintro ⟨key, ⟨id, hkey⟩, hids⟩
    exact ⟨id, key, hkey, hids⟩

theorem subscribedKey_iff_session :
    s.SubscribedKey k ↔ ∃ id, k ∈ (s.session id).subscribedKeys := by
  rw [SubscribedKey, exists_entry_iff (P := fun c => k ∈ c.subscribedKeys)]
  simp [ClientSession.new]

/-- The tables of the sessions agree with each other, and what they record of an instrument is its
key, at one source that can be written to. -/
structure Recording (s : ApiService) : Prop where
  keys : ∀ id k, k ∈ (s.session id).subscribedKeys ↔
    ∃ md key, (s.session id).mdKey md k = some key
  valid : ∀ md k key, s.Recorded md k key → key.key = k ∧
    instrumentKeyOf key.exchangeId key.instrumentId = .ok key ∧ md ∈ s.writers
  one : ∀ md md' k key key', s.Recorded md k key → s.Recorded md' k key' → md = md' ∧ key = key'

/-- The sources and the broker client know of the records. -/
structure MdInv (s : ApiService) : Prop extends s.Recording where
  told : ∀ md exchangeId instrumentId, told s.md.sent md exchangeId instrumentId = true ↔
    s.Subscribes md exchangeId instrumentId
  replayed : ∀ k key, s.md.client.instrumentKeys.lookup k = some key ↔ ∃ md, s.Recorded md k key
  at_source : ∀ md k key, s.Recorded md k key →
    s.md.client.instrumentMdLocations.lookup k = some md
  gone : ∀ id ∈ s.cleaned, id ∉ s.sessions

theorem Recording.key_eq (h : s.Recording) (hrecorded : s.Recorded md k key) :
    k = hashInstrument key.exchangeId key.instrumentId := by
  obtain ⟨hkey, hof, -⟩ := h.valid md k key hrecorded
  rw [← hkey, (key_of_instrumentKeyOf hof).1]

theorem MdInv.sourceLocation (h : s.MdInv) (hrecorded : s.Recorded md k key) :
    s.md.client.sourceLocation key = some md := by
  rw [BrokerClient.sourceLocation, (h.valid md k key hrecorded).1, h.at_source md k key hrecorded]

theorem MdInv.mdAgrees (h : s.MdInv) : s.MdAgrees := by
  refine ⟨h.told, fun md exchangeId instrumentId => ?_, h.gone⟩
  rw [subscribes_iff]
  constructor
  · rintro ⟨key, hrenewed, rfl, rfl⟩
    obtain ⟨hentry, hsource⟩ := List.mem_filter.mp hrenewed
    obtain ⟨⟨k, key⟩, hmem, rfl⟩ := List.mem_map.mp hentry
    obtain ⟨md', hrecorded⟩ := (h.replayed k key).mp (AList.mem_lookup_iff.mpr hmem)
    have hmd : md' = md := by simpa [h.sourceLocation hrecorded] using hsource
    refine ⟨key, ?_, rfl, rfl⟩
    rw [← h.key_eq hrecorded, ← hmd]
    exact hrecorded
  · rintro ⟨key, hrecorded, rfl, rfl⟩
    have hlookup := (h.replayed _ key).mpr ⟨md, hrecorded⟩
    refine ⟨key, List.mem_filter.mpr ⟨?_, ?_⟩, rfl, rfl⟩
    · exact List.mem_map.mpr ⟨⟨_, key⟩, AList.mem_lookup_iff.mp hlookup, rfl⟩
    · simp [h.sourceLocation hrecorded]

/-! ## Steps -/

/-- Where no record changes, and the sources and the broker client are told nothing, all stays. -/
theorem MdInv.of_sessions (h : s.MdInv)
    (hsubscribed : ∀ id, (s'.session id).subscribedKeys = (s.session id).subscribedKeys)
    (hmd : ∀ id, (s'.session id).mdSubscribedKeys = (s.session id).mdSubscribedKeys)
    (hwriters : s.writers ⊆ s'.writers) (hfeed : s'.md = s.md)
    (hgone : ∀ id ∈ s'.cleaned, id ∉ s'.sessions) : s'.MdInv := by
  have hmdKey : ∀ id md k, (s'.session id).mdKey md k = (s.session id).mdKey md k := by
    intro id md k
    rw [ClientSession.mdKey, ClientSession.mdKey, hmd]
  have hrecorded : ∀ md k key, s'.Recorded md k key ↔ s.Recorded md k key := by
    intro md k key
    simp only [Recorded, hmdKey]
  constructor
  · refine ⟨fun id k => ?_, fun md k key hkey => ?_, fun md md' k key key' hkey hkey' => ?_⟩
    · simp only [hsubscribed, hmdKey]
      exact h.keys id k
    · obtain ⟨hk, hof, hwriter⟩ := h.valid md k key ((hrecorded md k key).mp hkey)
      exact ⟨hk, hof, hwriters hwriter⟩
    · exact h.one md md' k key key' ((hrecorded md k key).mp hkey) ((hrecorded md' k key').mp hkey')
  · intro md exchangeId instrumentId
    simp only [hfeed, subscribes_iff, hrecorded]
    rw [h.told, subscribes_iff]
  · intro k key
    simp only [hfeed, hrecorded]
    exact h.replayed k key
  · intro md k key hkey
    rw [hfeed]
    exact h.at_source md k key ((hrecorded md k key).mp hkey)
  · exact hgone

theorem keySeparate_iff : KeySeparate c md exchangeId instrumentId ↔
    ∀ md' key, c.mdKey md' (hashInstrument exchangeId instrumentId) = some key →
      md' = md ∧ key.exchangeId = exchangeId ∧ key.instrumentId = instrumentId := by
  constructor
  · intro h md' key hkey
    exact h _ (ClientSession.mem_records.mpr hkey) rfl
  · rintro h ⟨md', k, key⟩ hmem hk
    subst hk
    exact h md' key (ClientSession.mem_records.mp hmem)

/-- The record of an instrument is the one that is made from its ids. -/
theorem Recording.eq_of_ids (h : s.Recording) {key' : InstrumentKey}
    (hof : instrumentKeyOf exchangeId instrumentId = .ok key) (hrecorded : s.Recorded md k key')
    (hexchange : key'.exchangeId = exchangeId) (hinstrument : key'.instrumentId = instrumentId) :
    key' = key := by
  have hof' := (h.valid md k key' hrecorded).2.1
  rw [hexchange, hinstrument, hof] at hof'
  exact (Except.ok.inj hof').symm

/-- The session is changed by a request, and with it what is recorded. -/
theorem recorded_addKey {md' k' : UInt32} {key' : InstrumentKey}
    (hsession : ∀ id', s'.session id' =
      if id' = id then (s.session id).addKey md key else s.session id')
    (hsep : ∀ md' key', s.Recorded md' key.key key' → md' = md ∧ key' = key) :
    s'.Recorded md' k' key' ↔ s.Recorded md' k' key' ∨ md' = md ∧ k' = key.key ∧ key' = key := by
  constructor
  · rintro ⟨id', hkey⟩
    rw [hsession] at hkey
    split at hkey
    · rw [ClientSession.mdKey_addKey] at hkey
      split at hkey
      · rename_i hnew
        exact .inr ⟨hnew.1, hnew.2, (Option.some.inj hkey).symm⟩
      · exact .inl ⟨id, hkey⟩
    · exact .inl ⟨id', hkey⟩
  · have hnew : s'.Recorded md key.key key := ⟨id, by simp [hsession, ClientSession.mdKey_addKey]⟩
    rintro (⟨id', hkey⟩ | ⟨rfl, rfl, rfl⟩)
    · by_cases hk : k' = key.key
      · subst hk
        obtain ⟨rfl, rfl⟩ := hsep md' key' ⟨id', hkey⟩
        exact hnew
      · refine ⟨id', ?_⟩
        rw [hsession]
        split
        · rename_i hid
          rw [ClientSession.mdKey_addKey, if_neg fun hsame => hk hsame.2, ← hid]
          exact hkey
        · exact hkey
    · exact hnew

theorem Recording.addKey (h : s.Recording)
    (hsession : ∀ id', s'.session id' =
      if id' = id then (s.session id).addKey md key else s.session id')
    (hsep : ∀ md' key', s.Recorded md' key.key key' → md' = md ∧ key' = key)
    (hof : instrumentKeyOf key.exchangeId key.instrumentId = .ok key) (hwriter : md ∈ s.writers)
    (hwriters : s'.writers = s.writers) : s'.Recording := by
  refine ⟨fun id' k => ?_, fun md' k key' hrecorded => ?_, ?_⟩
  · rw [hsession]
    split
    · rw [ClientSession.mem_addKey, h.keys id k]
      simp only [ClientSession.mdKey_addKey]
      constructor
      · rintro (rfl | ⟨md', key', hkey⟩)
        · exact ⟨md, key, by simp⟩
        · by_cases hnew : md' = md ∧ k = key.key
          · exact ⟨md', key, by simp [hnew]⟩
          · exact ⟨md', key', by rwa [if_neg hnew]⟩
      · rintro ⟨md', key', hkey⟩
        split at hkey
        · rename_i hnew
          exact .inl hnew.2
        · exact .inr ⟨md', key', hkey⟩
    · exact h.keys id' k
  · rw [hwriters]
    rcases (recorded_addKey hsession hsep).mp hrecorded with hold | ⟨rfl, rfl, rfl⟩
    · exact h.valid md' k key' hold
    · exact ⟨rfl, hof, hwriter⟩
  · intro md₁ md₂ k key₁ key₂ h₁ h₂
    rcases (recorded_addKey hsession hsep).mp h₁ with hold₁ | ⟨rfl, rfl, rfl⟩
    · rcases (recorded_addKey hsession hsep).mp h₂ with hold₂ | ⟨rfl, rfl, rfl⟩
      · exact h.one md₁ md₂ k key₁ key₂ hold₁ hold₂
      · exact hsep md₁ key₁ hold₁
    · rcases (recorded_addKey hsession hsep).mp h₂ with hold₂ | ⟨rfl, -, rfl⟩
      · obtain ⟨rfl, rfl⟩ := hsep md₂ key₂ hold₂
        exact ⟨rfl, rfl⟩
      · exact ⟨rfl, rfl⟩

theorem Recording.subscribedKey_iff (h : s.Recording) :
    s.SubscribedKey k ↔ ∃ md key, s.Recorded md k key := by
  rw [subscribedKey_iff_session]
  constructor
  · rintro ⟨id, hmem⟩
    obtain ⟨md, key, hkey⟩ := (h.keys id k).mp hmem
    exact ⟨md, key, id, hkey⟩
  · rintro ⟨md, key, id, hkey⟩
    exact ⟨id, (h.keys id k).mpr ⟨md, key, hkey⟩⟩

section Added

variable (h : s.MdInv) (hsep : ∀ md' key', s.Recorded md' key.key key' → md' = md ∧ key' = key)

include h hsep

/-- A source is told of an instrument, unless it is subscribed to. -/
theorem MdInv.told_addKey (hkey : key.key = hashInstrument key.exchangeId key.instrumentId)
    {md' : UInt32} {exchangeId instrumentId : String} :
    Api.told (if s.SubscribedKey key.key then s.md.sent
        else s.md.sent ++ [⟨md, .instrumentKey key⟩]) md' exchangeId instrumentId = true ↔
      ∃ key', (s.Recorded md' (hashInstrument exchangeId instrumentId) key' ∨
          md' = md ∧ hashInstrument exchangeId instrumentId = key.key ∧ key' = key) ∧
        key'.exchangeId = exchangeId ∧ key'.instrumentId = instrumentId := by
  have hold := h.told md' exchangeId instrumentId
  rw [subscribes_iff] at hold
  by_cases hsubscribed : s.SubscribedKey key.key
  · rw [if_pos hsubscribed, hold]
    obtain ⟨md₀, key₀, hrecorded₀⟩ := h.subscribedKey_iff.mp hsubscribed
    obtain ⟨rfl, rfl⟩ := hsep md₀ key₀ hrecorded₀
    constructor
    · rintro ⟨key', hkey', hids⟩
      exact ⟨key', .inl hkey', hids⟩
    · rintro ⟨key', hkey' | ⟨rfl, hk, rfl⟩, hids⟩
      · exact ⟨key', hkey', hids⟩
      · exact ⟨key', hk ▸ hrecorded₀, hids⟩
  · rw [if_neg hsubscribed, told_concat]
    split
    · rename_i habout
      obtain ⟨rfl, rfl, rfl⟩ := habout
      exact iff_of_true rfl ⟨key, .inr ⟨rfl, hkey.symm, rfl⟩, rfl, rfl⟩
    · rename_i habout
      rw [hold]
      constructor
      · rintro ⟨key', hkey', hids⟩
        exact ⟨key', .inl hkey', hids⟩
      · rintro ⟨key', hkey' | ⟨rfl, -, rfl⟩, hids⟩
        · exact ⟨key', hkey', hids⟩
        · exact absurd ⟨rfl, hids⟩ habout

/-- The broker client will ask for an instrument again after a restart of its source. -/
theorem MdInv.replayed_addKey {k : UInt32} {key' : InstrumentKey} :
    (s.md.client.subscribe md key.exchangeId key).instrumentKeys.lookup k = some key' ↔
      ∃ md', s.Recorded md' k key' ∨ md' = md ∧ k = key.key ∧ key' = key := by
  dsimp only [BrokerClient.subscribe]
  rw [Table.lookup_tryEmplace_apply]
  by_cases hk : k = key.key
  · subst hk
    have hnew : (s.md.client.instrumentKeys.lookup key.key).getD key = key := by
      cases hlookup : s.md.client.instrumentKeys.lookup key.key with
      | none => rfl
      | some key₀ =>
          obtain ⟨md₀, hrecorded₀⟩ := (h.replayed _ _).mp hlookup
          exact (hsep md₀ key₀ hrecorded₀).2
    rw [if_pos rfl, hnew]
    constructor
    · intro heq
      exact ⟨md, .inr ⟨rfl, rfl, (Option.some.inj heq).symm⟩⟩
    · rintro ⟨md', hkey' | ⟨-, -, rfl⟩⟩
      · rw [(hsep md' key' hkey').2]
      · rfl
  · rw [if_neg hk, h.replayed]
    simp [hk]

end Added

/-- An instrument is asked for. -/
theorem MdInv.addKey (h : s.MdInv) (id : UInt32)
    (hsession : ∀ id', s'.session id' =
      if id' = id then (s.session id).addKey md key else s.session id')
    (hsep : ∀ md' key', s.Recorded md' key.key key' → md' = md ∧ key' = key)
    (hof : instrumentKeyOf key.exchangeId key.instrumentId = .ok key) (hwriter : md ∈ s.writers)
    (hat : ∀ md' ∈ s.md.client.instrumentMdLocations.lookup key.key, md' = md)
    (hwriters : s'.writers = s.writers)
    (hfeed : s'.md = {
      client := s.md.client.subscribe md key.exchangeId key
      sent := if s.SubscribedKey key.key then s.md.sent
        else s.md.sent ++ [⟨md, .instrumentKey key⟩] })
    (hgone : ∀ id ∈ s'.cleaned, id ∉ s'.sessions) : s'.MdInv := by
  have hrecorded : ∀ md' k' key', s'.Recorded md' k' key' ↔
      s.Recorded md' k' key' ∨ md' = md ∧ k' = key.key ∧ key' = key :=
    fun _ _ _ => recorded_addKey hsession hsep
  have hkey := (key_of_instrumentKeyOf hof).1
  refine ⟨h.toRecording.addKey hsession hsep hof hwriter hwriters,
    fun md' exchangeId instrumentId => ?_, fun k key' => ?_, fun md' k key' hk => ?_, hgone⟩
  · rw [subscribes_iff, hfeed]
    simp only [hrecorded]
    exact h.told_addKey hsep hkey
  · rw [hfeed]
    simp only [hrecorded]
    exact h.replayed_addKey hsep
  · rw [hfeed]
    dsimp only [BrokerClient.subscribe]
    rw [Table.lookup_tryEmplace_apply]
    have hat' : (s.md.client.instrumentMdLocations.lookup key.key).getD md = md := by
      cases hlookup : s.md.client.instrumentMdLocations.lookup key.key with
      | none => rfl
      | some md₀ => exact hat md₀ hlookup
    rw [hat']
    rcases (hrecorded md' k key').mp hk with hold | ⟨rfl, rfl, rfl⟩
    · by_cases hk : k = key.key
      · subst hk
        rw [if_pos rfl, (hsep md' key' hold).1]
      · rw [if_neg hk]
        exact h.at_source md' k key' hold
    · rw [if_pos rfl]

/-- The records of some keys in some sessions are dropped. -/
theorem recorded_of_kept {kept : UInt32 → UInt32 → Prop}
    (hmd : ∀ id md k key, (s'.session id).mdKey md k = some key ↔
      kept id k ∧ (s.session id).mdKey md k = some key) (hrecorded : s'.Recorded md k key) :
    s.Recorded md k key := by
  obtain ⟨id, hkey⟩ := hrecorded
  exact ⟨id, ((hmd id md k key).mp hkey).2⟩

theorem Recording.of_kept (h : s.Recording) (kept : UInt32 → UInt32 → Prop)
    (hkeys : ∀ id k, k ∈ (s'.session id).subscribedKeys ↔
      kept id k ∧ k ∈ (s.session id).subscribedKeys)
    (hmd : ∀ id md k key, (s'.session id).mdKey md k = some key ↔
      kept id k ∧ (s.session id).mdKey md k = some key)
    (hwriters : s'.writers = s.writers) : s'.Recording := by
  refine ⟨fun id k => ?_, fun md k key hkey => ?_, fun md md' k key key' hkey hkey' => ?_⟩
  · simp only [hkeys, hmd, h.keys id k, exists_and_left]
  · rw [hwriters]
    exact h.valid md k key (recorded_of_kept hmd hkey)
  · exact h.one md md' k key key' (recorded_of_kept hmd hkey) (recorded_of_kept hmd hkey')

/-- The sources and the broker client are told of the instruments that no session subscribes to any
more. -/
theorem MdInv.of_recording (h : s.MdInv) (hrecording : s'.Recording)
    (hless : ∀ md k key, s'.Recorded md k key → s.Recorded md k key)
    (htold : ∀ md exchangeId instrumentId,
      Api.told s'.md.sent md exchangeId instrumentId = true ↔
        Api.told s.md.sent md exchangeId instrumentId = true ∧
          s'.SubscribedKey (hashInstrument exchangeId instrumentId))
    (hreplayed : ∀ k key, s'.md.client.instrumentKeys.lookup k = some key ↔
      s.md.client.instrumentKeys.lookup k = some key ∧ s'.SubscribedKey k)
    (hat : ∀ k, s'.SubscribedKey k → s'.md.client.instrumentMdLocations.lookup k =
      s.md.client.instrumentMdLocations.lookup k)
    (hgone : ∀ id ∈ s'.cleaned, id ∉ s'.sessions) : s'.MdInv := by
  refine ⟨hrecording, fun md exchangeId instrumentId => ?_, fun k key => ?_,
    fun md k key hkey => ?_, hgone⟩
  · rw [htold, h.told, subscribes_iff, subscribes_iff, hrecording.subscribedKey_iff]
    constructor
    · rintro ⟨⟨key, hkey, hids⟩, md', key', hkey'⟩
      obtain ⟨rfl, rfl⟩ := h.one _ _ _ _ _ hkey (hless _ _ _ hkey')
      exact ⟨key, hkey', hids⟩
    · rintro ⟨key, hkey, hids⟩
      exact ⟨⟨key, hless _ _ _ hkey, hids⟩, md, key, hkey⟩
  · rw [hreplayed, h.replayed, hrecording.subscribedKey_iff]
    constructor
    · rintro ⟨⟨md, hkey⟩, md', key', hkey'⟩
      obtain ⟨rfl, rfl⟩ := h.one _ _ _ _ _ hkey (hless _ _ _ hkey')
      exact ⟨md, hkey'⟩
    · rintro ⟨md, hkey⟩
      exact ⟨⟨md, hless _ _ _ hkey⟩, md, key, hkey⟩
  · rw [hat k (hrecording.subscribedKey_iff.mpr ⟨md, key, hkey⟩)]
    exact h.at_source md k key (hless md k key hkey)

theorem neededByOthers_iff_session :
    s.NeededByOthers id k ↔ ∃ id', id' ≠ id ∧ k ∈ (s.session id').subscribedKeys := by
  rw [neededByOthers_iff]
  constructor
  · rintro ⟨id', c, hlookup, hne, hmem⟩
    exact ⟨id', hne, by rwa [session_of_lookup hlookup]⟩
  · rintro ⟨id', hne, hmem⟩
    cases hlookup : s.sessions.lookup id' with
    | none => simp [session, hlookup, ClientSession.new] at hmem
    | some c => exact ⟨id', c, hlookup, hne, by rwa [session_of_lookup hlookup] at hmem⟩

/-- Every record is still subscribed to, and nothing is sent. -/
theorem MdInv.of_unsent (h : s.MdInv) (hrecording : s'.Recording)
    (hless : ∀ md k key, s'.Recorded md k key → s.Recorded md k key)
    (hall : ∀ md k key, s.Recorded md k key → s'.SubscribedKey k) (hfeed : s'.md = s.md)
    (hgone : ∀ id ∈ s'.cleaned, id ∉ s'.sessions) : s'.MdInv := by
  refine h.of_recording hrecording hless (fun md exchangeId instrumentId => ?_) (fun k key => ?_)
    (fun k _ => by rw [hfeed]) hgone
  · rw [hfeed, iff_self_and, h.told, subscribes_iff]
    rintro ⟨key, hkey, -⟩
    exact hall _ _ _ hkey
  · rw [hfeed, iff_self_and, h.replayed]
    rintro ⟨md, hkey⟩
    exact hall _ _ _ hkey

/-- The record of one instrument goes, and its source and the broker client are told. -/
theorem MdInv.of_unsubscribeAt (h : s.MdInv) (hrecording : s'.Recording)
    (hless : ∀ md k key, s'.Recorded md k key → s.Recorded md k key)
    (hrest : ∀ md' k key', s.Recorded md' k key' →
      s'.SubscribedKey k ∨ k = key.key ∧ md' = md ∧ key' = key)
    (hdropped : ¬ s'.SubscribedKey key.key)
    (hkey : key.key = hashInstrument key.exchangeId key.instrumentId)
    (hfeed : s'.md = {
      client := s.md.client.unsubscribeAt key.key
      sent := s.md.sent ++ [⟨md, .instrumentUnsubscribe key⟩] })
    (hgone : ∀ id ∈ s'.cleaned, id ∉ s'.sessions) : s'.MdInv := by
  have hall : ∀ md' k key', s.Recorded md' k key' → k ≠ key.key → s'.SubscribedKey k :=
    fun md' k key' hrecorded hk => (hrest md' k key' hrecorded).resolve_right fun hlast => hk hlast.1
  refine h.of_recording hrecording hless (fun md' exchangeId instrumentId => ?_) (fun k key' => ?_)
    (fun k hsubscribed => ?_) hgone
  · rw [hfeed, told_concat]
    split
    · rename_i habout
      obtain ⟨-, rfl, rfl⟩ := habout
      exact iff_of_false (by simp [Sent.subscribes]) fun hboth => hdropped (hkey ▸ hboth.2)
    · rename_i habout
      rw [iff_self_and, h.told, subscribes_iff]
      rintro ⟨key', hrecorded, rfl, rfl⟩
      refine (hrest _ _ _ hrecorded).resolve_right ?_
      rintro ⟨-, rfl, rfl⟩
      exact habout ⟨rfl, rfl, rfl⟩
  · rw [hfeed]
    dsimp only [BrokerClient.unsubscribeAt, BrokerClient.unsubscribe]
    rw [Table.lookup_erase_apply]
    by_cases hk : k = key.key
    · subst hk
      simp [hdropped]
    · rw [if_neg hk, iff_self_and, h.replayed]
      rintro ⟨md', hrecorded⟩
      exact hall _ _ _ hrecorded hk
  · rw [hfeed]
    dsimp only [BrokerClient.unsubscribeAt, BrokerClient.unsubscribe]
    rw [Table.lookup_erase_apply, if_neg]
    rintro rfl
    exact hdropped hsubscribed

section Erased

variable {k₀ : UInt32}
  (hsession : ∀ id', s'.session id' =
    if id' = id then (s.session id).eraseKey md k₀ else s.session id')

include hsession

/-- The session that gives an instrument up keeps its other keys. -/
theorem mem_subscribedKeys_of_eraseKey (id' k : UInt32) :
    k ∈ (s'.session id').subscribedKeys ↔
      (id' = id → k ≠ k₀) ∧ k ∈ (s.session id').subscribedKeys := by
  rw [hsession]
  by_cases hid : id' = id
  · simp [hid, ClientSession.mem_eraseKey]
  · simp [hid]

/-- And its other records, when the instrument was recorded at the one source only. -/
theorem mdKey_of_eraseKey (hsep : ∀ md' key, (s.session id).mdKey md' k₀ = some key → md' = md)
    (id' md' k : UInt32) (key : InstrumentKey) :
    (s'.session id').mdKey md' k = some key ↔
      (id' = id → k ≠ k₀) ∧ (s.session id').mdKey md' k = some key := by
  rw [hsession]
  by_cases hid : id' = id
  · rw [if_pos hid, ClientSession.mdKey_eraseKey, hid]
    by_cases hk : k = k₀
    · subst hk
      have hnone : md' ≠ md → (s.session id).mdKey md' k ≠ some key :=
        fun hne hsome => hne (hsep md' key hsome)
      by_cases hmd' : md' = md <;> simp [hmd'] at hnone ⊢
      exact hnone
    · simp [hk]
  · simp [hid]

theorem subscribedKey_of_eraseKey : s'.SubscribedKey k₀ ↔ s.NeededByOthers id k₀ := by
  rw [subscribedKey_iff_session, neededByOthers_iff_session]
  simp only [mem_subscribedKeys_of_eraseKey hsession, ne_eq, not_true_eq_false, imp_false]

/-- What is recorded and no longer subscribed to was recorded in this session only. -/
theorem Recording.subscribedKey_or (h : s.Recording) {md' k : UInt32} {key : InstrumentKey}
    (hrecorded : s.Recorded md' k key) :
    s'.SubscribedKey k ∨
      ¬ s.NeededByOthers id k₀ ∧ k = k₀ ∧ (s.session id).mdKey md' k₀ = some key := by
  obtain ⟨id', hkey⟩ := hrecorded
  have hmem := (h.keys id' k).mpr ⟨md', key, hkey⟩
  by_cases hboth : id' = id → k ≠ k₀
  · exact .inl (subscribedKey_iff_session.mpr
      ⟨id', (mem_subscribedKeys_of_eraseKey hsession id' k).mpr ⟨hboth, hmem⟩⟩)
  · obtain ⟨rfl, rfl⟩ : id' = id ∧ k = k₀ := by tauto
    by_cases hothers : s.NeededByOthers id' k
    · exact .inl ((subscribedKey_of_eraseKey hsession).mpr hothers)
    · exact .inr ⟨hothers, rfl, hkey⟩

end Erased

/-- An instrument is given up at its source. -/
theorem MdInv.eraseKey (h : s.MdInv)
    (hsession : ∀ id', s'.session id' =
      if id' = id then (s.session id).eraseKey md (hashInstrument exchangeId instrumentId)
      else s.session id')
    (hsep : ∀ md' key, (s.session id).mdKey md' (hashInstrument exchangeId instrumentId) = some key →
      md' = md ∧ key.exchangeId = exchangeId ∧ key.instrumentId = instrumentId)
    (hwriters : s'.writers = s.writers)
    (hkept : s.NeededByOthers id (hashInstrument exchangeId instrumentId) ∨ md ∉ s.writers ∨
      (∀ key, instrumentKeyOf exchangeId instrumentId ≠ .ok key) → s'.md = s.md)
    (hsent : ¬ s.NeededByOthers id (hashInstrument exchangeId instrumentId) → md ∈ s.writers →
      ∀ key, instrumentKeyOf exchangeId instrumentId = .ok key → s'.md = {
        client := s.md.client.unsubscribeAt key.key
        sent := s.md.sent ++ [⟨md, .instrumentUnsubscribe key⟩] })
    (hgone : ∀ id ∈ s'.cleaned, id ∉ s'.sessions) (hfit : IdsFit exchangeId instrumentId) :
    s'.MdInv := by
  let k₀ := hashInstrument exchangeId instrumentId
  have hmd := mdKey_of_eraseKey hsession fun md' key hkey => (hsep md' key hkey).1
  have hrecording := h.toRecording.of_kept _ (mem_subscribedKeys_of_eraseKey hsession) hmd hwriters
  have hless : ∀ md k key, s'.Recorded md k key → s.Recorded md k key :=
    fun _ _ _ => recorded_of_kept hmd
  have hrest : ∀ md' k key, s.Recorded md' k key → s'.SubscribedKey k ∨
      ¬ s.NeededByOthers id k₀ ∧ k = k₀ ∧ md' = md ∧ md ∈ s.writers ∧
        instrumentKeyOf exchangeId instrumentId = .ok key := by
    intro md' k key hrecorded
    refine (h.toRecording.subscribedKey_or hsession hrecorded).imp_right ?_
    rintro ⟨hothers, hk, hkey⟩
    obtain ⟨rfl, rfl, rfl⟩ := hsep md' key hkey
    have hvalid := (h.valid md' _ key ⟨id, hkey⟩).2
    exact ⟨hothers, hk, rfl, hvalid.2, hvalid.1⟩
  by_cases hunsent : s.NeededByOthers id k₀ ∨ md ∉ s.writers ∨
      ∀ key, instrumentKeyOf exchangeId instrumentId ≠ .ok key
  · refine h.of_unsent hrecording hless (fun md' k key hkey => ?_) (hkept hunsent) hgone
    refine (hrest md' k key hkey).resolve_right ?_
    rintro ⟨hothers, -, -, hwriter, hof⟩
    rcases hunsent with hneeds | hno | hno
    · exact hothers hneeds
    · exact hno hwriter
    · exact hno key hof
  · obtain ⟨hothers, hwriter, hof⟩ : ¬ s.NeededByOthers id k₀ ∧ md ∈ s.writers ∧
        ∃ key, instrumentKeyOf exchangeId instrumentId = .ok key := by
      simpa only [not_or, not_not, not_forall, ne_eq] using hunsent
    obtain ⟨key₀, hof⟩ := hof
    obtain ⟨hkey₀, rfl, rfl⟩ := ids_eq hfit hof
    have hdropped : ¬ s'.SubscribedKey key₀.key := by
      rw [hkey₀, subscribedKey_of_eraseKey hsession]
      exact hothers
    refine h.of_unsubscribeAt hrecording hless (fun md' k key hkey => ?_) hdropped hkey₀
      (hsent hothers hwriter key₀ hof) hgone
    refine (hrest md' k key hkey).imp_right ?_
    rintro ⟨-, hk, rfl, -, hof'⟩
    exact ⟨hk.trans hkey₀.symm, rfl, Except.ok.inj (hof'.symm.trans hof)⟩

/-- A record is unsubscribed at its source, unless a session needs it. -/
def unsubscribeRecord (s : ApiService) (feed : MdFeed)
    (record : UInt32 × Sigma fun _ : UInt32 => InstrumentKey) : MdFeed :=
  s.unsubscribeKey record.1 feed record.2

theorem foldl_unsubscribeKeys (feed : MdFeed) (hwriters : ∀ record ∈ c.records, record.1 ∈ s.writers) :
    c.mdSubscribedKeys.entries.foldl s.unsubscribeKeys feed =
      c.records.foldl s.unsubscribeRecord feed := by
  rw [ClientSession.records, List.foldl_flatMap]
  refine List.foldl_ext _ _ _ fun feed entry hentry => ?_
  rw [List.foldl_map, unsubscribeKeys]
  split
  · rfl
  · rename_i hwriter
    cases hempty : entry.2.entries with
    | nil => rfl
    | cons key keys =>
        refine absurd (hwriters (entry.1, key) ?_) hwriter
        exact List.mem_flatMap.mpr ⟨entry, hentry, List.mem_map_of_mem (by simp [hempty])⟩

section Records

variable (s) (records : List (UInt32 × Sigma fun _ : UInt32 => InstrumentKey)) (feed : MdFeed)

theorem told_foldl_unsubscribeRecord :
    told (records.foldl s.unsubscribeRecord feed).sent md exchangeId instrumentId = true ↔
      told feed.sent md exchangeId instrumentId = true ∧ ∀ record ∈ records, record.1 = md →
        record.2.2.exchangeId = exchangeId → record.2.2.instrumentId = instrumentId →
          s.SubscribedKey record.2.1 := by
  induction records generalizing feed with
  | nil => simp
  | cons record records ih =>
      rw [List.foldl_cons, ih, List.forall_mem_cons, ← and_assoc]
      refine and_congr_left fun _ => ?_
      rw [unsubscribeRecord, unsubscribeKey]
      by_cases hneeded : s.SubscribedKey record.2.1
      · simp [hneeded]
      · rw [if_neg hneeded, told_concat]
        split
        · rename_i habout
          obtain ⟨rfl, rfl, rfl⟩ := habout
          exact iff_of_false (by simp [Sent.subscribes]) fun hall => hneeded (hall.2 rfl rfl rfl)
        · rename_i habout
          rw [iff_self_and]
          intro _ hmd hexchange hinstrument
          exact absurd ⟨hmd, hexchange, hinstrument⟩ habout

theorem lookup_foldl_unsubscribeRecord :
    (records.foldl s.unsubscribeRecord feed).client.instrumentKeys.lookup k = some key ↔
      feed.client.instrumentKeys.lookup k = some key ∧ ∀ record ∈ records,
        hashInstrument record.2.2.exchangeId record.2.2.instrumentId = k →
          s.SubscribedKey record.2.1 := by
  induction records generalizing feed with
  | nil => simp
  | cons record records ih =>
      rw [List.foldl_cons, ih, List.forall_mem_cons, ← and_assoc]
      refine and_congr_left fun _ => ?_
      rw [unsubscribeRecord, unsubscribeKey]
      by_cases hneeded : s.SubscribedKey record.2.1
      · simp [hneeded]
      · rw [if_neg hneeded]
        dsimp only [BrokerClient.unsubscribe]
        rw [Table.lookup_erase_apply]
        by_cases hk : k = hashInstrument record.2.2.exchangeId record.2.2.instrumentId
        · simp [hk, hneeded]
        · simp [hk, Ne.symm hk]

theorem locations_foldl_unsubscribeRecord :
    (records.foldl s.unsubscribeRecord feed).client.instrumentMdLocations =
      feed.client.instrumentMdLocations := by
  induction records generalizing feed with
  | nil => rfl
  | cons record records ih =>
      rw [List.foldl_cons, ih, unsubscribeRecord, unsubscribeKey]
      split <;> rfl

end Records

/-- A session is gone, and its records are unsubscribed unless others need them. -/
theorem MdInv.cleanup (h : s.MdInv) (id : UInt32)
    (hsession : ∀ id', s'.session id' = if id' = id then .new else s.session id')
    (hwriters : s'.writers = s.writers)
    (hfeed : s'.md = (s.session id).mdSubscribedKeys.entries.foldl s'.unsubscribeKeys s.md)
    (hgone : ∀ id ∈ s'.cleaned, id ∉ s'.sessions) : s'.MdInv := by
  have hkeys : ∀ id' k, k ∈ (s'.session id').subscribedKeys ↔
      id' ≠ id ∧ k ∈ (s.session id').subscribedKeys := by
    intro id' k
    rw [hsession]
    by_cases hid : id' = id <;> simp [hid, ClientSession.new]
  have hmd : ∀ id' md k key, (s'.session id').mdKey md k = some key ↔
      id' ≠ id ∧ (s.session id').mdKey md k = some key := by
    intro id' md k key
    rw [hsession]
    by_cases hid : id' = id <;> simp [hid]
  have hrecording := h.toRecording.of_kept (fun id' _ => id' ≠ id) hkeys hmd hwriters
  have hof : ∀ record ∈ (s.session id).records, s.Recorded record.1 record.2.1 record.2.2 :=
    fun record hmem => ⟨id, ClientSession.mem_records.mp hmem⟩
  rw [foldl_unsubscribeKeys _ fun record hmem =>
    hwriters ▸ (h.valid _ _ _ (hof record hmem)).2.2] at hfeed
  -- what is recorded is subscribed to by another session, or is one of the records
  have hrest : ∀ md k key, s.Recorded md k key →
      s'.SubscribedKey k ∨ (md, ⟨k, key⟩) ∈ (s.session id).records := by
    rintro md k key ⟨id', hkey⟩
    by_cases hid : id' = id
    · subst hid
      exact .inr (ClientSession.mem_records.mpr hkey)
    · have hmem := (h.keys id' k).mpr ⟨md, key, hkey⟩
      exact .inl (subscribedKey_iff_session.mpr ⟨id', (hkeys id' k).mpr ⟨hid, hmem⟩⟩)
  refine h.of_recording hrecording (fun _ _ _ => recorded_of_kept hmd) ?_ ?_ ?_ hgone
  · intro md exchangeId instrumentId
    rw [hfeed, told_foldl_unsubscribeRecord]
    refine and_congr_right fun htold => ?_
    constructor
    · intro hall
      obtain ⟨key, hkey, hexchange, hinstrument⟩ := subscribes_iff.mp ((h.told _ _ _).mp htold)
      rcases hrest _ _ _ hkey with hsubscribed | hmem
      · exact hsubscribed
      · exact hall _ hmem rfl hexchange hinstrument
    · rintro hsubscribed record hmem - rfl rfl
      rwa [h.toRecording.key_eq (hof record hmem)]
  · intro k key
    rw [hfeed, lookup_foldl_unsubscribeRecord]
    refine and_congr_right fun hlookup => ?_
    constructor
    · intro hall
      obtain ⟨md, hkey⟩ := (h.replayed k key).mp hlookup
      rcases hrest _ _ _ hkey with hsubscribed | hmem
      · exact hsubscribed
      · exact hall _ hmem (h.toRecording.key_eq hkey).symm
    · rintro hsubscribed record hmem rfl
      rwa [h.toRecording.key_eq (hof record hmem)]
  · intro k _
    rw [hfeed, locations_foldl_unsubscribeRecord]

end Sessions

/-! ## Steps -/

section Steps

variable {s : ApiService} {id : UInt32} {op : Op}

theorem MdInv.accept (h : s.MdInv) : s.accept.MdInv := by
  refine h.of_sessions (fun id => ?_) (fun id => ?_) (Finset.Subset.refl _) rfl fun id hid => ?_
  · rw [session_accept]
  · rw [session_accept]
  · obtain ⟨hcleaned, hne⟩ := List.mem_filter.mp hid
    intro hmem
    rcases Table.mem_tryEmplace.mp hmem with heq | hold
    · simp [heq] at hne
    · exact h.gone id hcleaned hold

theorem MdInv.requestMarketData (h : s.MdInv) {md : Option Location}
    {exchangeId instrumentId : String}
    (hsep : s.Separate (.requestMarketData id md exchangeId instrumentId)) :
    (s.handleRequestMarketData id md exchangeId instrumentId).1.MdInv := by
  unfold handleRequestMarketData
  cases md with
  | none => exact h
  | some md =>
      dsimp only
      split
      · exact h
      rename_i hwriter
      split
      · exact h
      rename_i hids
      rw [not_or] at hids
      cases hof : instrumentKeyOf exchangeId instrumentId with
      | error fault => exact h
      | ok key =>
          obtain ⟨hfit, hof'⟩ := hsep (not_not.mp hwriter) hids.1 hids.2
          obtain ⟨hkey, rfl, rfl⟩ := ids_eq hfit hof
          obtain ⟨hcleaned, hsep, hat⟩ := hof' (by rw [hof]; rfl)
          rw [← hkey] at hat
          refine h.addKey id (fun _ => session_setSession) ?_ hof (not_not.mp hwriter) hat
            rfl rfl ?_
          · rintro md' key' ⟨id', hrecorded⟩
            have hids' := keySeparate_iff.mp
              ((forall_entry_iff (P := (KeySeparate · md.uid key.exchangeId key.instrumentId))
                (by simp [KeySeparate])).mp hsep id') md' key' (hkey ▸ hrecorded)
            exact ⟨hids'.1, h.eq_of_ids hof ⟨id', hrecorded⟩ hids'.2.1 hids'.2.2⟩
          · exact notMem_insert_of_cleaned h.gone hcleaned

/-- No session subscribes to the instrument of a key any more but those that need it. -/
theorem MdInv.cancelMarketData (h : s.MdInv) {md : Option Location}
    {exchangeId instrumentId : String}
    (hsep : s.Separate (.cancelMarketData id md exchangeId instrumentId)) :
    (s.handleCancelMarketData id md exchangeId instrumentId).1.MdInv := by
  unfold handleCancelMarketData
  cases md with
  | none => exact h
  | some md =>
      obtain ⟨hcleaned, hfit, hsep⟩ := hsep
      rw [keySeparate_iff] at hsep
      dsimp only
      rw [hfit.cStr_eq.1, hfit.cStr_eq.2]
      have hneeded : (s.setSession id ((s.session id).eraseKey md.uid
            (hashInstrument exchangeId instrumentId))).NeededByOthers id
            (hashInstrument exchangeId instrumentId) ↔
          s.NeededByOthers id (hashInstrument exchangeId instrumentId) := by
        simp only [neededByOthers_iff_session, session_setSession]
        refine exists_congr fun id' => and_congr_right fun hne => ?_
        rw [if_neg hne]
      have hgone := notMem_insert_of_cleaned (c := (s.session id).eraseKey md.uid
        (hashInstrument exchangeId instrumentId)) h.gone hcleaned
      split
      · rename_i hunsent
        refine h.eraseKey (fun _ => session_setSession) hsep rfl (fun _ => rfl) ?_ hgone hfit
        intro hothers hwriter key hof
        rcases hunsent with hneeds | hno
        · exact absurd (hneeded.mp hneeds) hothers
        · exact absurd hwriter hno
      · rename_i hsent
        rw [hneeded, not_or, not_not] at hsent
        cases hof : instrumentKeyOf exchangeId instrumentId with
        | error fault =>
            refine h.eraseKey (fun _ => session_setSession) hsep rfl (fun _ => rfl) ?_ hgone hfit
            intro _ _ key hof'
            rw [hof] at hof'
            cases hof'
        | ok key =>
            refine h.eraseKey (fun _ => session_setSession) hsep rfl ?_ ?_ hgone hfit
            · rintro (hneeds | hno | hno)
              · exact absurd hneeds hsent.1
              · exact absurd hsent.2 hno
              · exact absurd hof (hno key)
            · intro _ _ key' hof'
              rw [hof] at hof'
              cases hof'
              rfl

/-- Tables that do not matter here may change. -/
theorem MdInv.of_tables (h : s.MdInv) (s' : ApiService) (hsessions : s'.sessions = s.sessions)
    (hwriters : s.writers ⊆ s'.writers) (hfeed : s'.md = s.md) (hcleaned : s'.cleaned = s.cleaned) :
    s'.MdInv := by
  have hsession : ∀ id, s'.session id = s.session id := fun id => by
    rw [session, session, hsessions]
  refine h.of_sessions (fun id => by rw [hsession]) (fun id => by rw [hsession]) hwriters hfeed ?_
  rw [hcleaned, hsessions]
  exact h.gone

/-- A session is changed, but for its records. -/
theorem MdInv.setSession (h : s.MdInv) {c : ClientSession}
    (hlookup : s.sessions.lookup id = some c) (c' : ClientSession) (hkeys : c'.subscribedKeys = c.subscribedKeys)
    (hmd : c'.mdSubscribedKeys = c.mdSubscribedKeys) : (s.setSession id c').MdInv := by
  rw [← session_of_lookup hlookup] at hkeys hmd
  refine h.of_sessions (fun id' => ?_) (fun id' => ?_) (Finset.Subset.refl _) rfl ?_
  · rw [session_setSession]
    split
    · rename_i hid
      rw [hid, hkeys]
    · rfl
  · rw [session_setSession]
    split
    · rename_i hid
      rw [hid, hmd]
    · rfl
  · refine notMem_insert_of_cleaned h.gone fun hcleaned => ?_
    exact h.gone id hcleaned (AList.lookup_isSome.mp (by rw [hlookup]; rfl))

theorem MdInv.pushStrategyEvent (h : s.MdInv) (source dest : UInt32) (orderId : UInt64) :
    (s.pushStrategyEvent source dest orderId).MdInv := by
  unfold ApiService.pushStrategyEvent
  cases s.manualOrderSessions.lookup orderId with
  | some id =>
      dsimp only
      cases hlookup : s.sessions.lookup id with
      | none => exact h
      | some c => exact h.setSession hlookup _ rfl rfl
  | none =>
      have hsame : ∀ c : ClientSession, ∀ message : Outgoing,
          (if dest ∈ c.subscribedStrategies then c.queue message else c).subscribedKeys =
            c.subscribedKeys ∧
          (if dest ∈ c.subscribedStrategies then c.queue message else c).mdSubscribedKeys =
            c.mdSubscribedKeys := by
        intro c message
        split <;> exact ⟨rfl, rfl⟩
      refine h.of_sessions (fun id => ?_) (fun id => ?_) (Finset.Subset.refl _) rfl ?_
      · cases hlookup : s.sessions.lookup id <;> simp [session, hlookup, hsame]
      · cases hlookup : s.sessions.lookup id <;> simp [session, hlookup, hsame]
      · intro id hcleaned hmem
        refine h.gone id hcleaned (AList.lookup_isSome.mp ?_)
        simpa using AList.lookup_isSome.mpr hmem

theorem MdInv.subscribeStrategy (h : s.MdInv) (strat : Option Location) :
    (s.handleSubscribeStrategy id strat).1.MdInv := by
  unfold handleSubscribeStrategy
  cases strat with
  | none => exact h
  | some strat =>
      dsimp only
      split
      · exact h
      cases hlookup : s.sessions.lookup id with
      | none => exact h
      | some c =>
          dsimp only
          split
          · exact h
          · let c' := { c with subscribedStrategies := strat.uid :: c.subscribedStrategies }
            obtain ⟨joins, hanging, hjoins⟩ := exists_joinTraders strat.uid
              (s.setSession id c').locations.keys (s.setSession id c')
            rw [joinStrategy, hjoins]
            exact (h.setSession hlookup c' rfl rfl).of_tables _ rfl (Finset.Subset.refl _) rfl rfl

theorem MdInv.unsubscribeStrategy (h : s.MdInv) (strat : Option Location) :
    (s.handleUnsubscribeStrategy id strat).1.MdInv := by
  unfold handleUnsubscribeStrategy
  cases strat with
  | none => exact h
  | some strat =>
      dsimp only
      split
      · exact h
      cases hlookup : s.sessions.lookup id with
      | none => exact h
      | some c =>
          dsimp only
          let c' := { c with
            subscribedStrategies := c.subscribedStrategies.filter (· ≠ strat.uid) }
          have hset := h.setSession hlookup c' rfl rfl
          unfold dropStrategy
          split
          · exact hset
          · exact hset.of_tables _ rfl (Finset.Subset.refl _) rfl rfl

theorem MdInv.cleanupSession (h : s.MdInv) (id : UInt32) : (s.cleanupSession id).MdInv := by
  unfold ApiService.cleanupSession
  dsimp only
  cases hlookup : s.sessions.lookup id with
  | none =>
      refine h.of_sessions (fun _ => rfl) (fun _ => rfl) (Finset.Subset.refl _) rfl ?_
      intro id' hid'
      rcases List.mem_cons.mp hid' with rfl | hcleaned
      · exact AList.lookup_eq_none.mp hlookup
      · exact h.gone id' hcleaned
  | some c =>
      dsimp only
      rw [foldl_dropStrategy]
      refine h.cleanup id (fun _ => session_eraseSession) rfl ?_ ?_
      · rw [session_of_lookup hlookup]
        rfl
      · intro id' hid' hmem
        obtain ⟨hne, hold⟩ := AList.mem_erase.mp hmem
        rcases List.mem_cons.mp hid' with rfl | hcleaned
        · exact hne rfl
        · exact h.gone id' hcleaned hold

/-- What a step does to the sessions' records, the sources and the broker client. -/
theorem MdInv.step (h : s.MdInv) (hsep : s.Separate op) : (s.step op).MdInv := by
  cases op with
  | accept => exact h.accept
  | onWriteTo dest => exact h.of_tables _ rfl (Finset.subset_insert _ _) rfl rfl
  | addLocation location => exact h.of_tables _ rfl (Finset.Subset.refl _) rfl rfl
  | page k => exact h.of_tables _ rfl (Finset.Subset.refl _) rfl rfl
  | register uid => exact h.of_tables _ rfl (Finset.Subset.refl _) rfl rfl
  | deregister uid =>
      unfold ApiService.step onDeregister
      dsimp only
      split
      · exact h
      · exact h.of_tables _ rfl (Finset.Subset.refl _) rfl rfl
  | readFrom source dest =>
      unfold ApiService.step onReadFrom
      dsimp only
      split
      · obtain ⟨joins, hanging, hjoins⟩ := exists_join s ⟨source, dest⟩
        rw [hjoins]
        exact h.of_tables _ rfl (Finset.Subset.refl _) rfl rfl
      · exact h
  | requestMarketData id md exchangeId instrumentId => exact h.requestMarketData hsep
  | cancelMarketData id md exchangeId instrumentId => exact h.cancelMarketData hsep
  | subscribeStrategy id strat => exact h.subscribeStrategy strat
  | unsubscribeStrategy id strat => exact h.unsubscribeStrategy strat
  | issueOrder id orderId => exact h.of_tables _ rfl (Finset.Subset.refl _) rfl rfl
  | strategyEvent source dest orderId => exact h.pushStrategyEvent source dest orderId
  | cleanup id => exact h.cleanupSession id

theorem mdInv_start (homeUid : UInt32) : (start homeUid).MdInv := by
  have hnone : ∀ md k key, ¬ (start homeUid).Recorded md k key := by
    rintro md k key ⟨id, hkey⟩
    simp [session, start] at hkey
  refine ⟨⟨fun id k => ?_, fun md k key hkey => absurd hkey (hnone md k key),
    fun md md' k key key' hkey => absurd hkey (hnone md k key)⟩, fun md exchangeId instrumentId => ?_,
    fun k key => ?_, fun md k key hkey => absurd hkey (hnone md k key), by simp [start]⟩
  · refine iff_of_false (by simp [session, start, ClientSession.new]) ?_
    rintro ⟨md, key, hkey⟩
    exact hnone md k key ⟨id, hkey⟩
  · rw [subscribes_iff]
    refine iff_of_false (by simp [start]) ?_
    rintro ⟨key, hkey, -⟩
    exact hnone _ _ _ hkey
  · refine iff_of_false (by simp [start]) ?_
    rintro ⟨md, hkey⟩
    exact hnone _ _ _ hkey

end Steps

/-- In every run in which no instrument is asked for or given up at one source while it is known of
at another, and no request is handled for a client that is gone, the sources were told, and would be
told again, exactly what sessions subscribe to, in every state. -/
theorem mdAgrees_of_run (homeUid : UInt32) (ops : List Op)
    (h : Along step Separate (start homeUid) ops) :
    Along step (fun s op => (s.step op).MdAgrees) (start homeUid) ops ∧
      ((start homeUid).run ops).MdAgrees :=
  ⟨h.along (P := MdInv) (fun _ _ hs hsep => hs.step hsep) (fun _ _ hs hsep => (hs.step hsep).mdAgrees)
    (mdInv_start homeUid),
    (h.foldl (P := MdInv) (fun _ _ hs hsep => hs.step hsep) (mdInv_start homeUid)).mdAgrees⟩

def exampleMd : Location := ⟨5, .MD, .LIVE, "ctp", "ctp"⟩

def exampleMd' : Location := ⟨6, .MD, .LIVE, "sim", "sim"⟩

theorem mdAgrees_of_run_example :
    ((start 1).run [.accept, .onWriteTo 5, .requestMarketData 1 (some exampleMd) "SHFE" "rb2505",
      .cancelMarketData 1 (some exampleMd) "SHFE" "rb2505", .cleanup 1]).MdAgrees :=
  (mdAgrees_of_run 1 _ (by decide +kernel)).2

/-- A client asks for an instrument at two sources. -/
theorem not_mdAgrees_of_two_sources :
    ¬ ((start 1).run [.accept, .onWriteTo 5, .onWriteTo 6,
      .requestMarketData 1 (some exampleMd) "SHFE" "rb2505",
      .requestMarketData 1 (some exampleMd') "SHFE" "rb2505"]).MdAgrees := by
  intro h
  have hkey : ((start 1).run [.accept, .onWriteTo 5, .onWriteTo 6,
      .requestMarketData 1 (some exampleMd) "SHFE" "rb2505",
      .requestMarketData 1 (some exampleMd') "SHFE" "rb2505"]).Recorded 6
        (hashInstrument "SHFE" "rb2505")
        ⟨hashInstrument "SHFE" "rb2505", "rb2505", "SHFE", .Future⟩ :=
    ⟨1, by decide +kernel⟩
  have htold := (h.told 6 "SHFE" "rb2505").mpr (subscribes_iff.mpr ⟨_, hkey, rfl, rfl⟩)
  revert htold
  decide +kernel

end ApiService

end Kungfu.Api
