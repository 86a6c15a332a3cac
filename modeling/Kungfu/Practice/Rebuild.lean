import Kungfu.Practice.Master
import Kungfu.Yijinjing.Assemble

/-!
# Rebuilding the sessions

The sessions can be rebuilt from the journals of all locations.  A frame belongs to the location
that is found under the name of the one whose journal it is in: the commands of the master to an
application are in a journal that is named by the application's uid, and the journals of the
application itself are not.
-/

namespace Kungfu.Practice

open Longfist Yijinjing Index Merge

/-! ## Uids as names -/

/-- The value of a digit up to `f`. -/
def hexDigitValue (c : Char) : ℕ := if c.toNat < 97 then c.toNat - 48 else c.toNat - 87

/-- The value of digits, the highest of which comes first. -/
def hexValue (digits : List Char) : ℕ := digits.foldl (fun n c => n * 16 + hexDigitValue c) 0

theorem hexDigitValue_digitChar {n : ℕ} (h : n < 16) : hexDigitValue n.digitChar = n := by
  revert n
  decide

theorem hexValue_concat (digits : List Char) (c : Char) :
    hexValue (digits ++ [c]) = hexValue digits * 16 + hexDigitValue c := by
  simp [hexValue]

theorem hexValue_toDigits (n : ℕ) : hexValue (Nat.toDigits 16 n) = n := by
  induction n using Nat.strongRecOn with
  | ind n ih =>
    rcases Nat.lt_or_ge n 16 with hlt | hge
    · rw [Nat.toDigits_of_lt_base hlt, ← List.nil_append [_], hexValue_concat,
        hexDigitValue_digitChar hlt]
      exact Nat.zero_add n
    · rw [Nat.toDigits_of_base_le (by omega) hge, hexValue_concat, ih (n / 16) (by omega),
        hexDigitValue_digitChar (Nat.mod_lt n (by omega))]
      omega

theorem hexValue_replicate_append (n : ℕ) (digits : List Char) :
    hexValue (List.replicate n '0' ++ digits) = hexValue digits := by
  induction n with
  | zero => rfl
  | succ n ih => rwa [List.replicate_succ, List.cons_append]

theorem hexValue_hex (uid : UInt32) : hexValue (hex uid).toList = uid.toNat := by
  rw [hex, String.toList_ofList, hexValue_replicate_append, hexValue_toDigits]

theorem hex_injective {uid uid' : UInt32} (h : hex uid = hex uid') : uid = uid' := by
  apply UInt32.toNat_inj.mp
  rw [← hexValue_hex, h, hexValue_hex]

theorem hex_ne_master (uid : UInt32) : hex uid ≠ "master" := by
  intro h
  have hlength := congrArg (fun name => name.toList.length) h
  simp only [hex, String.toList_ofList, List.length_append, List.length_replicate] at hlength
  have hmaster : "master".toList.length = 6 := by decide
  omega

/-! ## Frames and the locations they belong to -/

namespace Mark

/-- The message type of a frame. -/
def tag : Mark → Int32
  | SessionStart => 10001
  | SessionEnd => 10002
  | Time => 10003
  | RequestStart => 10025
  | CachedReadyToRead => 10060

end Mark

/-- A frame in the journal of a location to a destination. -/
structure Entry where
  location : Location
  dest : UInt32
  frame : Frame
  deriving DecidableEq, Repr

namespace Entry

/-- The session of a location starts or ends. -/
def IsMark (e : Entry) : Prop :=
  e.frame.msgType = Mark.SessionStart.tag ∨ e.frame.msgType = Mark.SessionEnd.tag

instance (e : Entry) : Decidable e.IsMark := inferInstanceAs (Decidable (_ ∨ _))

end Entry

/-- A location from which the master writes. -/
def IsMasters (location : Location) : Prop :=
  location.category = .SYSTEM ∧ location.group = "master"

instance (location : Location) : Decidable (IsMasters location) :=
  inferInstanceAs (Decidable (_ ∧ _))

/-- The name under which a location is found, if it is. -/
def formatKey (location : Location) : Option String :=
  if ¬ IsMasters location then some (hex location.uid)
  else if location.name = "master" then some location.name
  else none

/-- `formatstr_to_locations`, where the first location of a name stays. -/
def locationOf (listed : List Location) (name : String) : Option Location :=
  listed.find? fun location => formatKey location = some name

/-- One round of the loop of `rebuild_index_db`. -/
def rebuildFrame (listed : List Location) (b : SessionBuilder) (e : Entry) : SessionBuilder :=
  match locationOf listed e.location.name with
  | none => b
  | some location =>
      if e.frame.msgType = Mark.SessionStart.tag then b.openSession location e.frame.genTime
      else if e.frame.msgType = Mark.SessionEnd.tag then
        b.closeSession location.uid e.frame.genTime
      else if ¬ IsMasters e.location then
        b.updateSession e.frame.source e.frame.genTime (.ofNat e.frame.length)
      else if IsMasters e.location ∧ e.location.name = "master" then
        b.updateSession e.frame.source e.frame.genTime (.ofNat e.frame.length)
      else b

/-- Every live session is stored. -/
def storeLive (b : SessionBuilder) : Sessions := fun uid =>
  match b.live uid with
  | none => b.sessions uid
  | some session => b.sessions.replace session uid

/-- A builder that has no session. -/
def noSessions : SessionBuilder where
  sessions _ := ∅
  live _ := none

/-- What the frames come to, in the order in which the reader delivers them. -/
def rebuild (listed : List Location) (entries : List Entry) : Sessions :=
  storeLive (entries.foldl (rebuildFrame listed) noSessions)

/-- A frame of a journal that was joined for a location. -/
def located (joined : Key → Location) (p : Key × Frame) : Entry := ⟨joined p.1, p.1.dest, p.2⟩

/-- `rebuild_index_db`, by the locator that it reads, the locations for which its journals are
joined, and the locations that are listed. -/
def rebuildIndexDb (clock : ℕ → Int64) (fuel : ℕ) (l : Locator) (joined : Key → Location)
    (listed : List Location) : Except Yijinjing.Fault Sessions := do
  let r ← (Reader.joinAll l.joins (l.dirs, Reader.make true false)).mapError Prod.fst
  let (frames, _) ← (Reader.readAll clock fuel r).mapError Prod.fst
  .ok (rebuild listed (frames.map (located joined)))

/-- The frames of a journal. -/
def journal (log : List Entry) (location : Location) (dest : UInt32) : List Frame :=
  (log.filter fun e => e.location = location ∧ e.dest = dest).map Entry.frame

/-- All frames are delivered, those of each journal in their order. -/
def Delivers (log out : List Entry) : Prop :=
  ∀ location dest, (out.filter fun e => e.location = location ∧ e.dest = dest) =
    log.filter fun e => e.location = location ∧ e.dest = dest

/-- The frame is counted for the location that wrote it. -/
def IsCounted (e : Entry) : Prop :=
  ¬ e.IsMark ∧ (e.location.name = "master" ∨ ∃ uid, e.location.name = hex uid) ∧
    (IsMasters e.location → e.location.name = "master")

/-! ## What a builder keeps of a location -/

/-- The live session of a location, and the stored ones by begin time. -/
structure Ledger where
  live : Option Index.Session
  stored : AList fun _ : Int64 => Index.Session

namespace Ledger

/-- No session. -/
def empty : Ledger := ⟨none, ∅⟩

/-- A live session is changed and stored. -/
def put (session : Index.Session) (l : Ledger) : Ledger :=
  ⟨some session, l.stored.insert session.beginTime session⟩

/-- A session is opened. -/
def openSession (location : Location) (time : Int64) (l : Ledger) : Ledger :=
  l.put { l.live.getD (.ofLocation location) with
    beginTime := time, endTime := 0, updateTime := time }

/-- The session is closed. -/
def closeSession (time : Int64) (l : Ledger) : Ledger :=
  match l.live with
  | none => l
  | some session => l.put (session.closed time)

/-- A session that is closed again is closed at the later time only. -/
theorem closeSession_closeSession (l : Ledger) (time time' : Int64) :
    (l.closeSession time).closeSession time' = l.closeSession time' := by
  cases hlive : l.live with
  | none => simp [closeSession, hlive]
  | some session => simp [closeSession, hlive, put, Index.Session.closed, AList.insert_insert]

/-- A mark opens or closes the session. -/
def follow (location : Location) (l : Ledger) (e : Entry) : Ledger :=
  if e.frame.msgType = Mark.SessionStart.tag then l.openSession location e.frame.genTime
  else if e.frame.msgType = Mark.SessionEnd.tag then l.closeSession e.frame.genTime
  else l

end Ledger

/-- What a builder keeps of a location. -/
def view (uid : UInt32) (b : SessionBuilder) : Ledger := ⟨b.live uid, b.sessions uid⟩

/-- Every live session is under the uid of its location. -/
def Keyed (b : SessionBuilder) : Prop :=
  ∀ uid session, b.live uid = some session → session.locationUid = uid

variable {b : SessionBuilder} {uid : UInt32} {session : Index.Session} {location : Location}

theorem keyed_noSessions : Keyed noSessions := nofun

theorem Keyed.put (h : Keyed b) (huid : session.locationUid = uid) : Keyed (b.put uid session) := by
  intro uid' session' hsession
  by_cases hne : uid' = uid
  · subst hne
    simp only [SessionBuilder.put, Function.update_self] at hsession
    cases hsession
    exact huid
  · simp only [SessionBuilder.put, Function.update_of_ne hne] at hsession
    exact h uid' session' hsession

theorem view_put (huid : session.locationUid = uid) (uid' : UInt32) :
    view uid' (b.put uid session) =
      if uid' = uid then (view uid' b).put session else view uid' b := by
  subst huid
  split
  · rename_i h
    subst h
    simp [view, SessionBuilder.put, Sessions.replace, Ledger.put]
  · rename_i h
    simp [view, SessionBuilder.put, Sessions.replace, h]

/-- The session that is opened for a location. -/
theorem locationUid_openSession (h : Keyed b) :
    ((b.live location.uid).getD (.ofLocation location)).locationUid = location.uid := by
  cases hsession : b.live location.uid with
  | none => rfl
  | some session => exact h _ session hsession

theorem Keyed.openSession (h : Keyed b) (location : Location) (time : Int64) :
    Keyed (b.openSession location time) :=
  h.put (locationUid_openSession h)

theorem view_openSession (h : Keyed b) (location : Location) (time : Int64) (uid : UInt32) :
    view uid (b.openSession location time) =
      if uid = location.uid then (view uid b).openSession location time else view uid b := by
  unfold SessionBuilder.openSession
  simp only
  rw [view_put (by exact locationUid_openSession h)]
  split
  · rename_i huid
    subst huid
    rfl
  · rfl

theorem Keyed.closeSession (h : Keyed b) (uid : UInt32) (time : Int64) :
    Keyed (b.closeSession uid time) := by
  unfold SessionBuilder.closeSession
  cases hsession : b.live uid with
  | none => exact h
  | some session => exact h.put (h uid session hsession)

theorem view_closeSession (h : Keyed b) (uid : UInt32) (time : Int64) (uid' : UInt32) :
    view uid' (b.closeSession uid time) =
      if uid' = uid then (view uid' b).closeSession time else view uid' b := by
  unfold SessionBuilder.closeSession
  cases hsession : b.live uid with
  | none =>
    by_cases huid : uid' = uid
    · subst huid
      simp [view, hsession, Ledger.closeSession]
    · rw [if_neg huid]
  | some session =>
    have hlocation : (session.closed time).locationUid = uid := h uid session hsession
    simp only [view_put hlocation]
    split
    · rename_i huid
      subst huid
      simp [view, hsession, Ledger.closeSession]
    · rfl

theorem view_closeAllSessions (h : Keyed b) (uid : UInt32) (time : Int64) :
    view uid (b.closeAllSessions time) = (view uid b).closeSession time :=
  (view_closeSession h uid time uid).trans (if_pos rfl)

theorem Keyed.closeAllSessions (h : Keyed b) (time : Int64) : Keyed (b.closeAllSessions time) :=
  fun uid session hsession => h.closeSession uid time uid session hsession

theorem Keyed.updateSession (h : Keyed b) (source : UInt32) (genTime : Int64)
    (frameLength : UInt32) : Keyed (b.updateSession source genTime frameLength) := by
  unfold SessionBuilder.updateSession
  cases hsession : b.live source with
  | none => exact h
  | some session =>
    intro uid session' hlive
    by_cases huid : uid = source
    · subst huid
      simp only [Function.update_self] at hlive
      cases hlive
      exact h uid session hsession
    · simp only [Function.update_of_ne huid] at hlive
      exact h uid session' hlive

theorem view_updateSession_of_ne {source : UInt32} (h : uid ≠ source) (genTime : Int64)
    (frameLength : UInt32) :
    view uid (b.updateSession source genTime frameLength) = view uid b := by
  obtain ⟨hlive, hsessions⟩ := SessionBuilder.sameAt_updateSession (b := b) h genTime frameLength
  rw [view, hlive, hsessions, view]

/-- A live session that is stored is found as before. -/
theorem lookup_storeLive (h : Keyed b)
    (hstored : ∀ session, b.live uid = some session →
      (b.sessions uid).lookup session.beginTime = some session) (begins : Int64) :
    (storeLive b uid).lookup begins = (b.sessions uid).lookup begins := by
  unfold storeLive
  cases hsession : b.live uid with
  | none => rfl
  | some session =>
    have huid : session.locationUid = uid := h uid session hsession
    subst huid
    simp only [Sessions.replace, Function.update_self]
    by_cases heq : begins = session.beginTime
    · rw [heq, AList.lookup_insert, hstored session hsession]
    · rw [AList.lookup_insert_ne heq]

/-! ## What the reader delivers -/

theorem Delivers.mem {log out : List Entry} (h : Delivers log out) {e : Entry} (he : e ∈ out) :
    e ∈ log := by
  have hmem : e ∈ log.filter fun e' => e'.location = e.location ∧ e'.dest = e.dest := by
    rw [← h e.location e.dest]
    simpa using he
  exact (List.mem_filter.mp hmem).1

theorem map_journal (log : List Entry) (location : Location) (dest : UInt32) :
    (journal log location dest).map (Entry.mk location dest) =
      log.filter fun e => e.location = location ∧ e.dest = dest := by
  rw [journal, List.map_map]
  refine (List.map_congr_left fun e he => ?_).trans (List.map_id _)
  obtain ⟨rfl, rfl⟩ : e.location = location ∧ e.dest = dest := by
    simpa using (List.mem_filter.mp he).2
  rfl

/-- The page files hold the frames of a log, and they were written before the clock is read. -/
structure Held (clock : ℕ → Int64) (l : Locator) (joined : Key → Location) (P : Key → UInt32)
    (log : List Entry) : Prop where
  nodup : l.keys.Nodup
  inj : ∀ k ∈ l.keys, ∀ k' ∈ l.keys, joined k = joined k' → k.dest = k'.dest → k = k'
  listed : ∀ e ∈ log, ∃ k ∈ l.keys, joined k = e.location ∧ k.dest = e.dest
  holds : ∀ k ∈ l.keys, (l.dirs k).Holds (P k) (journal log (joined k) k.dest)
  frame : ∀ e ∈ log, e.frame.hasData = true ∧ 0 < e.frame.genTime
  shown : ∀ i, ∀ e ∈ log, e.frame.genTime ≤ clock i

/-- Frames that are read from each journal in their order are delivered. -/
theorem delivers_of_filter_eq {log : List Entry} {keys : List Key} {joined : Key → Location}
    (hinj : ∀ k ∈ keys, ∀ k' ∈ keys, joined k = joined k' → k.dest = k'.dest → k = k')
    (hlisted : ∀ e ∈ log, ∃ k ∈ keys, joined k = e.location ∧ k.dest = e.dest)
    {out : List (Key × Frame)} (hkey : ∀ p ∈ out, p.1 ∈ keys)
    (hout : ∀ k ∈ keys,
      (out.filter fun p => p.1 = k).map Prod.snd = journal log (joined k) k.dest) :
    Delivers log (out.map (located joined)) := by
  intro location dest
  rw [List.filter_map]
  by_cases hjournal : ∃ k ∈ keys, joined k = location ∧ k.dest = dest
  · obtain ⟨k, hk, rfl, rfl⟩ := hjournal
    have hsame : ∀ p ∈ out, (joined p.1 = joined k ∧ p.1.dest = k.dest) ↔ p.1 = k :=
      fun p hp => ⟨fun h => hinj p.1 (hkey p hp) k hk h.1 h.2, fun h => h ▸ ⟨rfl, rfl⟩⟩
    have hfilter : out.filter ((fun e : Entry => decide (e.location = joined k ∧ e.dest = k.dest)) ∘
        located joined) = out.filter fun p => p.1 = k :=
      List.filter_congr fun p hp => decide_eq_decide.mpr (hsame p hp)
    rw [hfilter, ← map_journal, ← hout k hk, List.map_map]
    apply List.map_congr_left
    intro p hp
    have hpk : p.1 = k := by simpa using (List.mem_filter.mp hp).2
    simp [located, hpk]
  · rw [List.filter_eq_nil_iff.mpr, List.filter_eq_nil_iff.mpr, List.map_nil]
    · intro e he hjoined
      obtain ⟨hlocation, hdest⟩ : e.location = location ∧ e.dest = dest := by simpa using hjoined
      obtain ⟨k, hk, hk'⟩ := hlisted e he
      exact hjournal ⟨k, hk, hk'.1.trans hlocation, hk'.2.trans hdest⟩
    · intro p hp hjoined
      exact hjournal ⟨p.1, hkey p hp, of_decide_eq_true hjoined⟩

/-- What the reader delivers is rebuilt. -/
theorem rebuildIndexDb_eq {clock : ℕ → Int64} {l : Locator} {joined : Key → Location}
    {P : Key → UInt32} {log : List Entry} (h : Held clock l joined P log) (listed : List Location)
    {fuel : ℕ} (hfuel : (l.keys.map fun k => (journal log (joined k) k.dest).length).sum < fuel) :
    ∃ out, rebuildIndexDb clock fuel l joined listed = .ok (rebuild listed out) ∧
      Delivers log out := by
  have hmem : ∀ k, ∀ f ∈ journal log (joined k) k.dest, ∃ e ∈ log, e.frame = f := by
    intro k f hf
    obtain ⟨e, he, rfl⟩ := List.mem_map.mp hf
    exact ⟨e, (List.mem_filter.mp he).1, rfl⟩
  obtain ⟨r, hjoin, H, hperm⟩ := Assemble.joinAll_spec h.nodup h.holds fun k _ f hf => by
    obtain ⟨e, he, rfl⟩ := hmem k f hf
    exact (h.frame e he).2
  have hremaining : remaining (fun k => journal log (joined k) k.dest) (fun _ => 0) r.2.keys =
      (l.keys.map fun k => (journal log (joined k) k.dest).length).sum := (hperm.map _).sum_eq
  have hvisible : ∀ i, ∀ k ∈ r.2.keys, ∀ f ∈ journal log (joined k) k.dest,
      f.hasData = true ∧ (false = true ∨ f.genTime ≤ clock i) := by
    intro i k _ f hf
    obtain ⟨e, he, rfl⟩ := hmem k f hf
    exact ⟨(h.frame e he).1, .inr (h.shown i e he)⟩
  obtain ⟨out, r', n, hread, hreads, hend⟩ := H.readAll_visible hvisible (hremaining ▸ hfuel)
  refine ⟨out.map (located joined), ?_, delivers_of_filter_eq h.inj h.listed ?_ ?_⟩
  · rw [rebuildIndexDb, hjoin]
    simp [hread, Except.mapError, bind, Except.bind]
  · intro p hp
    obtain ⟨-, -, -, m, hrule⟩ := hreads.exists_of_mem (k := p.1) (x := p.2) hp
    exact hperm.mem_iff.mp hrule.joined
  · intro k hk
    rw [hreads.filter_eq, hend k (hperm.mem_iff.mpr hk)]
    simp

/-! ## What is rebuilt for a location -/

section Rebuilding

variable {listed : List Location} {app : Location}

theorem locationOf_eq_some {name : String} (h : locationOf listed name = some location) :
    location ∈ listed ∧ formatKey location = some name := by
  refine ⟨List.mem_of_find?_eq_some h, ?_⟩
  simpa using List.find?_some h

/-- What is found under the name of a location that is listed, if nothing else is. -/
theorem locationOf_of_unique (hlisted : app ∈ listed) {name : String}
    (hname : formatKey app = some name)
    (hunique : ∀ location ∈ listed, formatKey location = some name → location = app) :
    locationOf listed name = some app := by
  cases h : locationOf listed name with
  | none =>
    have hnone := List.find?_eq_none.mp h app hlisted
    simp [hname] at hnone
  | some location =>
    obtain ⟨hmem, hkey⟩ := locationOf_eq_some h
    rw [hunique location hmem hkey]

/-- A location is found under its uid or, for the master itself, under its name. -/
theorem formatKey_eq_some {name : String} (h : formatKey location = some name) :
    (¬ IsMasters location ∧ name = hex location.uid) ∨
      (IsMasters location ∧ location.name = "master" ∧ name = "master") := by
  unfold formatKey at h
  split at h
  · rename_i hmasters
    exact .inl ⟨hmasters, (Option.some.inj h).symm⟩
  · rename_i hmasters
    split at h
    · rename_i hname
      exact .inr ⟨not_not.mp hmasters, hname, by rw [← hname]; exact (Option.some.inj h).symm⟩
    · cases h

theorem Keyed.rebuildFrame (h : Keyed b) (listed : List Location) (e : Entry) :
    Keyed (rebuildFrame listed b e) := by
  unfold Practice.rebuildFrame
  cases locationOf listed e.location.name with
  | none => exact h
  | some location =>
    simp only
    split
    · exact h.openSession _ _
    · split
      · exact h.closeSession _ _
      · split
        · exact h.updateSession _ _ _
        · split
          · exact h.updateSession _ _ _
          · exact h

theorem keyed_foldl_rebuildFrame (listed : List Location) (entries : List Entry) :
    Keyed (entries.foldl (rebuildFrame listed) noSessions) := by
  suffices hall : ∀ b, Keyed b → Keyed (entries.foldl (rebuildFrame listed) b) from
    hall noSessions keyed_noSessions
  intro b hb
  induction entries generalizing b with
  | nil => exact hb
  | cons e entries ih => exact ih _ (hb.rebuildFrame listed e)

/-- A frame that is not counted for a location changes what is rebuilt for it just when the
location is found under its name. -/
theorem view_rebuildFrame (h : Keyed b)
    (hunique : ∀ location ∈ listed, location.uid = app.uid → location = app) {e : Entry}
    (hcounted : e.frame.source = app.uid → ¬ IsCounted e) :
    view app.uid (rebuildFrame listed b e) =
      if locationOf listed e.location.name = some app then (view app.uid b).follow app e
      else view app.uid b := by
  unfold rebuildFrame
  cases hlocation : locationOf listed e.location.name with
  | none => simp
  | some location =>
    obtain ⟨hmem, hkey⟩ := locationOf_eq_some hlocation
    have hfound : app.uid = location.uid ↔ location = app :=
      ⟨fun huid => hunique location hmem huid.symm, fun heq => heq ▸ rfl⟩
    have hnamed : e.location.name = "master" ∨ ∃ uid, e.location.name = hex uid := by
      rcases formatKey_eq_some hkey with ⟨-, hname⟩ | ⟨-, -, hname⟩
      · exact .inr ⟨location.uid, hname⟩
      · exact .inl hname
    simp only [Option.some.injEq, Ledger.follow]
    by_cases hstart : e.frame.msgType = Mark.SessionStart.tag
    · rw [if_pos hstart, if_pos hstart, view_openSession h]
      by_cases heq : location = app
      · rw [if_pos heq, heq, if_pos rfl]
      · rw [if_neg heq, if_neg (mt hfound.mp heq)]
    · rw [if_neg hstart, if_neg hstart]
      by_cases hend : e.frame.msgType = Mark.SessionEnd.tag
      · rw [if_pos hend, if_pos hend, view_closeSession h]
        by_cases heq : location = app
        · rw [if_pos heq, heq, if_pos rfl]
        · rw [if_neg heq, if_neg (mt hfound.mp heq)]
      · rw [if_neg hend, if_neg hend, ite_self]
        have hmark : ¬ e.IsMark := not_or.mpr ⟨hstart, hend⟩
        by_cases hmaster : IsMasters e.location → e.location.name = "master"
        · have hne : app.uid ≠ e.frame.source := fun hsource =>
            hcounted hsource.symm ⟨hmark, hnamed, hmaster⟩
          split
          · exact view_updateSession_of_ne hne ..
          · split
            · exact view_updateSession_of_ne hne ..
            · rfl
        · have hmasters : IsMasters e.location ∧ e.location.name ≠ "master" := by
            simpa using hmaster
          rw [if_neg (not_not.mpr hmasters.1), if_neg fun h' => hmasters.2 h'.2]

/-- What the frames come to for a location: what the marks do that are found to be its own. -/
theorem view_foldl_rebuildFrame (h : Keyed b)
    (hunique : ∀ location ∈ listed, location.uid = app.uid → location = app) {entries : List Entry}
    (hcounted : ∀ e ∈ entries, e.frame.source = app.uid → ¬ IsCounted e) :
    view app.uid (entries.foldl (rebuildFrame listed) b) =
      (entries.filter fun e => e.IsMark ∧ locationOf listed e.location.name = some app).foldl
        (Ledger.follow app) (view app.uid b) := by
  induction entries generalizing b with
  | nil => rfl
  | cons e entries ih =>
    rw [List.foldl_cons, ih (h.rebuildFrame listed e) fun e' he' =>
        hcounted e' (List.mem_cons_of_mem e he'),
      view_rebuildFrame h hunique (hcounted e List.mem_cons_self)]
    by_cases hmark : e.IsMark
    · by_cases hlocation : locationOf listed e.location.name = some app
      · rw [List.filter_cons_of_pos (by simp [hmark, hlocation]), if_pos hlocation, List.foldl_cons]
      · rw [List.filter_cons_of_neg (by simp [hlocation]), if_neg hlocation]
    · obtain ⟨hstart, hend⟩ := not_or.mp hmark
      rw [List.filter_cons_of_neg (by simp [hmark]), Ledger.follow, if_neg hstart, if_neg hend,
        ite_self]

end Rebuilding

end Kungfu.Practice
