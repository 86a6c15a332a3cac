import Kungfu.Cache.Cached
import Kungfu.Logic.Run

/-!
# What a location is restored to

A location that asks for its cache is sent the rows of its databases, and what the profile holds.
Its rows are behind what was fed by the states that wait in the bank; the profile is of all
locations.  While every step keeps bank and databases together in agreement with what was fed, a
location is restored to what was fed just when no row of it waits to be replaced, what waits for
it is sent from the profile, and nothing else is.
-/

namespace Kungfu.Cache

open Longfist Logic

variable {δ : Type}

namespace Cached

variable {c c' : Cached δ}

/-- The datum that waits in the bank for a channel and a primary key. -/
def pending (c : Cached δ) (source dest : UInt32) (t : StateDataType) (key : PrimaryKey t) :
    Option (Data (Stamped δ) t) :=
  ((c.bank t).lookup key.uid).bind fun s =>
    if s.identity = (source, dest, key) then some s.data else none

theorem pending_eq_some {source dest : UInt32} {t : StateDataType} {key : PrimaryKey t}
    {data : Data (Stamped δ) t} :
    c.pending source dest t key = some data ↔
      ∃ s, (c.bank t).lookup key.uid = some s ∧ s.identity = (source, dest, key) ∧
        s.data = data := by
  simp [pending, Option.bind_eq_some_iff]

theorem key_of_pending {source dest : UInt32} {t : StateDataType} {key : PrimaryKey t}
    {data : Data (Stamped δ) t} (h : c.pending source dest t key = some data) : data.key = key := by
  obtain ⟨s, -, hidentity, rfl⟩ := pending_eq_some.mp h
  exact congrArg (·.2.2) hidentity

theorem pending_of_identity {t : StateDataType} {key : PrimaryKey t} {s : State (Stamped δ) t}
    (hs : (c.bank t).lookup key.uid = some s) {source dest : UInt32}
    (h : s.identity = (source, dest, key)) : c.pending source dest t key = some s.data :=
  pending_eq_some.mpr ⟨s, hs, h, rfl⟩

theorem pending_of_identity_ne {t : StateDataType} {key : PrimaryKey t} {s : State (Stamped δ) t}
    (hs : (c.bank t).lookup key.uid = some s) {source dest : UInt32}
    (h : s.identity ≠ (source, dest, key)) : c.pending source dest t key = none := by
  simp [pending, hs, h]

theorem pending_of_none {t : StateDataType} {key : PrimaryKey t}
    (hs : (c.bank t).lookup key.uid = none) (source dest : UInt32) :
    c.pending source dest t key = none := by
  simp [pending, hs]

/-- What is pending depends on what is filed under the uid of the primary key. -/
theorem pending_congr {source dest : UInt32} {t : StateDataType} {key : PrimaryKey t}
    (h : (c'.bank t).lookup key.uid = (c.bank t).lookup key.uid) :
    c'.pending source dest t key = c.pending source dest t key := by
  rw [pending, pending, h]

/-- States are filed under their own uids, and what was fed waits in the bank or else is a
row. -/
structure Faithful (c : Cached δ) : Prop where
  filed : ∀ t uid s, (c.bank t).lookup uid = some s → s.uid = uid
  image : ∀ source dest t (key : PrimaryKey t), c.image source dest t key =
    (c.pending source dest t key).or (c.rowAt source dest t key)

theorem faithful_start (home : UInt32) : (start home : Cached δ).Faithful where
  filed _ _ _ h := by cases h
  image _ _ _ _ := rfl

theorem Faithful.of_agrees (hagrees : c.Agrees c') (h : c.Faithful) : c'.Faithful := by
  constructor
  · rw [hagrees.bank]
    exact h.filed
  · intro source dest t key
    have hpending : c'.pending source dest t key = c.pending source dest t key :=
      pending_congr (by rw [hagrees.bank])
    rw [hagrees.image, hagrees.rowAt, hpending]
    exact h.image source dest t key

/-! ## Steps that lose nothing -/

/-- A step keeps what was fed: a state that is fed meets in the bank at most one of its own
identity, none of whose texts is longer; a reset reaches everything that it is about; nothing
waits at a restart. -/
def KeepsImage (c : Cached δ) : Step δ → Prop
  | .feed source dest _ s => (s.1 = .Instrument ∨ c.locations source ≠ some .MD) →
      ∀ old ∈ (c.bank s.1).lookup s.2.uid, old.identity = (source, dest, s.2.key) ∧
        ∀ i, (old.data.texts i).length ≤ (s.2.texts i).length
  | .cacheReset source dest t => c.ResetReaches source dest t
  | .restart => ∀ t ∈ StateDataTypes, (c.bank t).entries = []
  | .location _ _ | .register _ | .deregister _ | .channel _ _ | .requestCached _ _
  | .handleCachedFeeds _ _ _ | .handleProfileFeeds _ _ _ => True

instance (c : Cached δ) : DecidablePred c.KeepsImage
  | .feed _ _ _ _ => inferInstanceAs (Decidable (_ → _))
  | .cacheReset source dest t => inferInstanceAs (Decidable (c.ResetReaches source dest t))
  | .restart => inferInstanceAs (Decidable (∀ t ∈ StateDataTypes, _))
  | .location _ _ | .register _ | .deregister _ | .channel _ _ | .requestCached _ _
  | .handleCachedFeeds _ _ _ | .handleProfileFeeds _ _ _ => inferInstanceAs (Decidable True)

theorem bank_feedData (source dest : UInt32) (genTime : Int64) {t : StateDataType}
    (data : Data δ t) : (c.feedData source dest genTime data).bank =
      c.bank.feed ⟨source, dest, genTime, stamp c.clock data⟩ := rfl

theorem lookup_feedData_self (source dest : UInt32) (genTime : Int64) {t : StateDataType}
    (data : Data δ t) :
    ((c.feedData source dest genTime data).bank t).lookup data.uid =
      some (.assignTo ((c.bank t).lookup data.uid)
        ⟨source, dest, genTime, stamp c.clock data⟩) := by
  rw [bank_feedData, Bank.feed, Function.update_self]
  exact AList.lookup_insert ..

/-- A state that meets none of another identity in the bank, and no longer texts, is filed as
it is. -/
theorem lookup_feedData {source dest : UInt32} (genTime : Int64) {t : StateDataType}
    {data : Data δ t}
    (hold : ∀ old ∈ (c.bank t).lookup data.uid, old.identity = (source, dest, data.key) ∧
      ∀ i, (old.data.texts i).length ≤ (data.texts i).length) :
    ((c.feedData source dest genTime data).bank t).lookup data.uid =
      some ⟨source, dest, genTime, stamp c.clock data⟩ := by
  rw [lookup_feedData_self]
  cases hlookup : (c.bank t).lookup data.uid with
  | none => rfl
  | some old =>
    obtain ⟨hidentity, htexts⟩ := hold old hlookup
    have hkey : old.data.key = (stamp c.clock data).key := congrArg (·.2.2) hidentity
    exact congrArg some ((State.assign_eq_right hkey).mpr htexts)

theorem lookup_feedData_of_ne {source dest : UInt32} {genTime : Int64} {t t' : StateDataType}
    {data : Data δ t} {uid : UInt64} (h : t' = t → uid ≠ data.uid) :
    ((c.feedData source dest genTime data).bank t').lookup uid = (c.bank t').lookup uid := by
  rcases eq_or_ne t' t with rfl | htype
  · rw [bank_feedData, Bank.feed, Function.update_self]
    exact AList.lookup_insert_ne (h rfl)
  · rw [bank_feedData, Bank.feed, Function.update_of_ne htype]

theorem Faithful.feedData {source dest : UInt32} (genTime : Int64) {t : StateDataType}
    {data : Data δ t} (h : c.Faithful)
    (hold : ∀ old ∈ (c.bank t).lookup data.uid, old.identity = (source, dest, data.key) ∧
      ∀ i, (old.data.texts i).length ≤ (data.texts i).length) :
    (c.feedData source dest genTime data).Faithful := by
  have hself := lookup_feedData genTime hold
  constructor
  · intro t' uid s hs
    by_cases hne : t' = t → uid ≠ data.uid
    · rw [lookup_feedData_of_ne hne] at hs
      exact h.filed t' uid s hs
    · obtain ⟨rfl, rfl⟩ : t' = t ∧ uid = data.uid := by simpa using hne
      cases hself.symm.trans hs
      rfl
  · intro source' dest' t' key
    have hrow : (c.feedData source dest genTime data).rowAt source' dest' t' key =
        c.rowAt source' dest' t' key := rfl
    rw [hrow]
    by_cases hplace : ((source', dest', ⟨t', key⟩) : Place) = (source, dest, ⟨t, data.key⟩)
    · -- the state itself waits now
      obtain ⟨rfl, rfl, htype⟩ : source' = source ∧ dest' = dest ∧
          (⟨t', key⟩ : Σ t, PrimaryKey t) = ⟨t, data.key⟩ := by simpa using hplace
      cases htype
      rw [image_feedData_self, pending_of_identity hself rfl]
      rfl
    · rw [image_feedData_of_ne c genTime hplace, h.image]
      by_cases hne : t' = t → key.uid ≠ data.uid
      · rw [pending_congr (lookup_feedData_of_ne hne)]
      · -- a state of the same uid waited for no other identity, and waits for none now
        obtain ⟨rfl, huid⟩ : t' = t ∧ key.uid = data.uid := by simpa using hne
        have hother : (source, dest, data.key) ≠ (source', dest', key) := by
          intro heq
          cases heq
          exact hplace rfl
        have hnow : (c.feedData source dest genTime data).pending source' dest' t' key = none :=
          pending_of_identity_ne (s := ⟨source, dest, genTime, stamp c.clock data⟩)
            (huid ▸ hself) hother
        rw [hnow]
        cases hlookup : (c.bank t').lookup data.uid with
        | none => rw [pending_of_none (huid ▸ hlookup)]
        | some old =>
          rw [pending_of_identity_ne (huid ▸ hlookup) ((hold old hlookup).1 ▸ hother)]

theorem Faithful.stores {t : StateDataType} {uid : UInt64} {s : State (Stamped δ) t}
    (h : c.Faithful) (hs : (c.bank t).lookup uid = some s) (hstores : Stores uid s c c') :
    c'.Faithful := by
  have hlookup : ∀ t' uid', (t' = t → uid' ≠ uid) →
      (c'.bank t').lookup uid' = (c.bank t').lookup uid' := by
    intro t' uid' hne
    rw [hstores.bank]
    rcases eq_or_ne t' t with rfl | htype
    · rw [Function.update_self, AList.lookup_erase_ne (hne rfl)]
    · rw [Function.update_of_ne htype]
  have hgone : (c'.bank t).lookup uid = none := by
    rw [hstores.bank, Function.update_self, AList.lookup_erase]
  have huid : s.data.key.uid = uid := h.filed t uid s hs
  constructor
  · intro t' uid' s' hs'
    by_cases hne : t' = t → uid' ≠ uid
    · rw [hlookup t' uid' hne] at hs'
      exact h.filed t' uid' s' hs'
    · obtain ⟨rfl, rfl⟩ : t' = t ∧ uid' = uid := by simpa using hne
      rw [hgone] at hs'
      cases hs'
  · intro source dest t' key
    rw [hstores.image, h.image]
    by_cases hplace : ((source, dest, ⟨t', key⟩) : Place) = (s.source, s.dest, ⟨t, s.data.key⟩)
    · -- the state that waited is the row now
      obtain ⟨rfl, rfl, htype⟩ : source = s.source ∧ dest = s.dest ∧
          (⟨t', key⟩ : Σ t, PrimaryKey t) = ⟨t, s.data.key⟩ := by simpa using hplace
      cases htype
      have hwaited : c.pending s.source s.dest t s.data.key = some s.data :=
        pending_of_identity (by rw [huid]; exact hs) rfl
      have hnow : c'.pending s.source s.dest t s.data.key = none :=
        pending_of_none (by rw [huid]; exact hgone) _ _
      rw [hwaited, hnow, hstores.row]
      rfl
    · rw [hstores.other source dest t' key hplace]
      by_cases hne : t' = t → key.uid ≠ uid
      · rw [pending_congr (hlookup t' key.uid hne)]
      · obtain ⟨rfl, rfl⟩ : t' = t ∧ key.uid = uid := by simpa using hne
        have hother : s.identity ≠ (source, dest, key) := by
          rintro heq
          cases heq
          exact hplace rfl
        rw [pending_of_identity_ne hs hother, pending_of_none hgone]

theorem Faithful.resets {source dest : UInt32} {t : StateDataType} (h : c.Faithful)
    (hsafe : c.KeepsImage (.cacheReset source dest t)) (hresets : Resets source dest t c c') :
    c'.Faithful := by
  constructor
  · rw [hresets.bank]
    exact h.filed
  · intro source' dest' t' key
    have hpending : c'.pending source' dest' t' key = c.pending source' dest' t' key :=
      pending_congr (by rw [hresets.bank])
    rw [hresets.image, hpending, h.image]
    by_cases hconcerns : t' = t ∧ Concerns source dest source' dest'
    · rw [if_pos hconcerns]
      obtain ⟨rfl, hchannel⟩ := hconcerns
      have hnone : c.pending source' dest' t' key = none := by
        apply Option.eq_none_iff_forall_ne_some.mpr
        intro data hdata
        obtain ⟨s, hs, hidentity, -⟩ := pending_eq_some.mp hdata
        apply hsafe.not_concerns hs
        cases hidentity
        exact hchannel
      rw [hnone, hresets.rowAt_eq_none hsafe hchannel]
      rfl
    · rw [if_neg hconcerns, hresets.rowAt_of_not_concerns hconcerns]

/-- A step that loses nothing keeps bank and databases together in agreement with what was
fed. -/
theorem Faithful.step {s : Step δ} (h : c.Faithful) (hsafe : c.KeepsImage s)
    (hstep : c.step s = .ok c') : c'.Faithful := by
  by_cases hquiet : Step.quiet s
  · exact h.of_agrees (agrees_of_quiet hquiet hstep)
  cases s with
  | feed source dest genTime s =>
    by_cases hcached : s.1 = .Instrument ∨ c.locations source ≠ some .MD
    · rcases eq_or_eq_of_feed hstep with rfl | rfl
      · exact h
      · exact h.feedData genTime (hsafe hcached)
    · obtain ⟨htype, hcategory⟩ := not_or.mp hcached
      simp only [Cached.step, feed, if_neg htype, not_not.mp hcategory, if_true] at hstep
      cases hstep
      exact h
  | handleCachedFeeds volume visited fails =>
    exact handleCachedFeeds_induction (fun _ _ hagrees h => h.of_agrees hagrees)
      (fun _ _ _ _ _ hs hstores h => h.stores hs hstores) hstep h
  | cacheReset source dest t => exact h.resets hsafe (resets_onCacheReset hstep)
  | restart =>
    cases hstep
    have hempty : ∀ t, c.bank t = ∅ := fun t => AList.ext (hsafe t (mem_stateDataTypes t))
    constructor
    · intro t uid s hs
      cases hs
    · intro source dest t key
      have hpending : c.pending source dest t key = none :=
        pending_of_none (by rw [hempty]; rfl) source dest
      refine (h.image source dest t key).trans ?_
      rw [hpending]
      rfl
  | location | register | deregister | channel | requestCached | handleProfileFeeds =>
    exact absurd rfl hquiet

/-! ## Restoring -/

/-- At a request the rows of the profile are fed to its bank. -/
theorem profileBank_of_requestCached {source : UInt32} (h : c.requestCached source = .ok c')
    (hlocated : (c.locations source).isSome) :
    c'.profileBank = c.profileBank.profileGetAll c.profile := by
  have hsome : ¬ (c.locations source).isNone := by
    rw [Option.isNone_iff_eq_none]
    exact Option.isSome_iff_ne_none.mp hlocated
  have hemplace : (c.emplaceShift source).2.profile = c.profile ∧
      (c.emplaceShift source).2.profileBank = c.profileBank := by
    unfold emplaceShift
    split <;> exact ⟨rfl, rfl⟩
  simp only [requestCached, if_neg hsome, openAll] at h
  split at h
  · cases h
  · cases h
    simp only [profileGetAll, hemplace]

/-- At a request all databases of the location are opened. -/
theorem opened_of_requestCached {source : UInt32} (h : c.requestCached source = .ok c')
    (hlocated : (c.locations source).isSome) : ∀ dest ∈ c.disk source, dest ∈ c'.openedBy source := by
  have hsome : ¬ (c.locations source).isNone := by
    rw [Option.isNone_iff_eq_none]
    exact Option.isSome_iff_ne_none.mp hlocated
  have hdisk : (c.emplaceShift source).2.disk = c.disk := by
    unfold emplaceShift
    split <;> rfl
  simp only [requestCached, if_neg hsome, openAll, hdisk] at h
  split at h
  · cases h
  · cases h
    intro dest hdest
    by_cases hopened : dest ∈ (c.emplaceShift source).1.opened
    · simp [openedBy, profileGetAll, hopened]
    · simp [openedBy, profileGetAll, hopened, show dest ∈ (c.disk source).keys from hdest]

/-- What a location is restored to are its rows. -/
theorem of_mem_restored {source dest : UInt32} {todayStart : Int64} {s : Σ t, Data (Stamped δ) t}
    (h : (dest, s) ∈ c.restored source todayStart) :
    c.rowAt source dest s.1 s.2.key = some s.2 ∧ Fresh todayStart s.2 := by
  simp only [restored, List.mem_flatMap, List.mem_map] at h
  obtain ⟨t, -, dest', -, data, hdata, heq⟩ := h
  cases heq
  exact mem_getAll.mp hdata

/-- A location is restored to its rows that are fresh. -/
theorem mem_restored {source dest : UInt32} {todayStart : Int64} {s : Σ t, Data (Stamped δ) t}
    (h : c.requestCached source = .ok c') (hlocated : (c.locations source).isSome) :
    (dest, s) ∈ c'.restored source todayStart ↔
      c.rowAt source dest s.1 s.2.key = some s.2 ∧ Fresh todayStart s.2 := by
  obtain ⟨t, data⟩ := s
  have hrow : c'.rowAt source dest t data.key = c.rowAt source dest t data.key :=
    (agrees_requestCached h).rowAt source dest t data.key
  rw [← hrow]
  constructor
  · exact of_mem_restored
  · intro hfresh
    have hdata := mem_getAll.mpr hfresh
    simp only [restored, List.mem_flatMap, List.mem_map]
    refine ⟨t, mem_stateDataTypes t, dest, ?_, data, hdata, rfl⟩
    apply opened_of_requestCached h hlocated
    -- a database without a file has no rows
    by_contra hfile
    cases (rowAt_of_notMem hfile t data.key).symm.trans (hrow.symm.trans hfresh.1)

/-- What a request writes to the location is exactly what was fed from it last and not reset
since: every row of its databases, every datum of the profile, and nothing is left out. -/
structure WritesLatest (c c' : Cached δ) (source : UInt32) (todayStart : Int64) : Prop where
  rows : ∀ dest (s : Σ t, Data (Stamped δ) t), (dest, s) ∈ c'.restored source todayStart →
    c.image source dest s.1 s.2.key = some s.2
  profile : ∀ s ∈ c'.profileBank.written, ∃ dest, c.image source dest s.1 s.2.key = some s.2
  all : ∀ dest (s : Σ t, Data (Stamped δ) t), c.image source dest s.1 s.2.key = some s.2 →
    Fresh todayStart s.2 →
      (dest, s) ∈ c'.restored source todayStart ∨ s ∈ c'.profileBank.written

/-- No fresh row waits to be replaced by another datum; what waits and is fresh is a row already or
in the profile; and what is in the profile waits for the location, or is a row of it over which
nothing waits. -/
structure UpToDate (c : Cached δ) (source : UInt32) (todayStart : Int64) : Prop where
  rows : ∀ dest t (key : PrimaryKey t) data row, c.pending source dest t key = some data →
    c.rowAt source dest t key = some row → Fresh todayStart row → row = data
  waiting : ∀ dest t (key : PrimaryKey t) data, c.pending source dest t key = some data →
    Fresh todayStart data →
      c.rowAt source dest t key = some data ∨ c.profileBank.Shows c.profile t data
  profile : ∀ t data, c.profileBank.Shows c.profile t data →
    ∃ dest, c.pending source dest t data.key = some data ∨
      c.pending source dest t data.key = none ∧ c.rowAt source dest t data.key = some data

/-- The asset of account 10, with what is available. -/
def exampleAsset (avail : ℕ) : Σ t, Data ℕ t := ⟨.Asset, ⟨((10 : UInt32), ()), fun _ => [], 0, avail⟩⟩

/-- The account registers, and its asset is fed and stored. -/
def exampleSteps : List (Step ℕ) :=
  [.location 10 .TD, .register 10, .feed 10 77 1 (exampleAsset 100),
    .handleCachedFeeds 100 (fun _ => []) fun _ _ => false]

/-- An instrument. -/
def exampleInstrument : Σ t, Data ℕ t :=
  ⟨.Instrument, ⟨((([54, 48] : Text), ([83] : Text), ()) : PrimaryKey .Instrument), fun _ => [], 0, 0⟩⟩

/-- The account feeds an instrument as well, and it is stored for the account and in the profile. -/
def exampleProfileSteps : List (Step ℕ) :=
  exampleSteps ++ [.feed 10 77 2 exampleInstrument,
    .handleCachedFeeds 100 (fun _ => []) fun _ _ => false,
    .handleProfileFeeds 100 (fun _ => []) fun _ _ => false]

/-- Nothing was fed from a location that no step feeds from. -/
theorem image_eq_none_of_step {s : Step δ} (hstep : c.step s = .ok c') {source : UInt32}
    (hfeed : ∀ dest genTime data, s ≠ .feed source dest genTime data)
    (h : ∀ dest t (key : PrimaryKey t), c.image source dest t key = none) (dest : UInt32)
    (t : StateDataType) (key : PrimaryKey t) : c'.image source dest t key = none := by
  by_cases hquiet : Step.quiet s
  · rw [(agrees_of_quiet hquiet hstep).image]
    exact h dest t key
  cases s with
  | feed source' dest' genTime s =>
    rcases eq_or_eq_of_feed hstep with rfl | rfl
    · exact h dest t key
    · rw [image_feedData_of_ne]
      · exact h dest t key
      · intro heq
        obtain rfl : source = source' := congrArg (·.1) heq
        exact hfeed dest' genTime s rfl
  | handleCachedFeeds volume visited fails =>
    exact handleCachedFeeds_induction (P := fun c => c.image source dest t key = none)
      (fun _ _ hagrees h => by rwa [hagrees.image])
      (fun _ _ _ _ _ _ hstores h => by rwa [hstores.image]) hstep (h dest t key)
  | cacheReset source' dest' t' =>
    rw [(resets_onCacheReset hstep).image]
    split
    · rfl
    · exact h dest t key
  | restart =>
    cases hstep
    exact h dest t key
  | location | register | deregister | channel | requestCached | handleProfileFeeds =>
    exact absurd rfl hquiet

theorem image_eq_none {home source : UInt32} {steps : List (Step δ)}
    (hrun : (start home).run steps = .ok c)
    (hfeed : ∀ s ∈ steps, ∀ dest genTime data, s ≠ .feed source dest genTime data) (dest : UInt32)
    (t : StateDataType) (key : PrimaryKey t) : c.image source dest t key = none := by
  have hnone := Outcome.foldlM_invariant
    (I := fun _ c => ∀ dest t key, c.image source dest t key = none) (fun _ _ _ => rfl)
    (fun done s todo c c' hsteps h hstep =>
      image_eq_none_of_step hstep (hfeed s (by rw [hsteps]; simp)) h) hrun
  exact hnone dest t key

/-- What is fed after the last batch is not restored: the account is sent the asset from
before. -/
theorem sends_stale :
    ∃ c c', (start 1).run (exampleSteps ++ [.feed 10 77 2 (exampleAsset 60)]) = .ok c ∧
      (c.locations 10).isSome ∧ c.requestCached 10 = .ok c' ∧ ¬ WritesLatest c c' 10 0 := by
  let key : PrimaryKey .Asset := ((10 : UInt32), ())
  obtain ⟨c, hrun, hafter⟩ := Outcome.exists_of_any
    (show ((start 1).run (exampleSteps ++ [.feed 10 77 2 (exampleAsset 60)])).toOption.any
      (fun c => (c.locations 10).isSome && (c.requestCached 10).isOk &&
        ((c.rowAt 10 77 .Asset key).any fun row => row.details.serial = 0) &&
        (c.image 10 77 .Asset key).any fun latest => latest.details.serial = 1) = true by
        decide +kernel)
  simp only [Bool.and_eq_true, Option.any_eq_true, decide_eq_true_eq] at hafter
  obtain ⟨⟨⟨hlocated, hok⟩, row, hrow, hserial⟩, latest, hlatest, hserial'⟩ := hafter
  obtain ⟨c', hrequest⟩ := Outcome.exists_of_isOk hok
  refine ⟨c, c', hrun, hlocated, hrequest, fun hrestored => ?_⟩
  have hkey := key_of_rowAt hrow
  have hmem : (77, ⟨.Asset, row⟩) ∈ c'.restored 10 0 :=
    (mem_restored hrequest hlocated).mpr ⟨by rw [hkey]; exact hrow, fun h => by cases h⟩
  have himage := hrestored.rows 77 ⟨.Asset, row⟩ hmem
  rw [hkey, hlatest] at himage
  cases himage
  cases hserial.symm.trans hserial'

/-- The account registers, and the market data location 20 feeds an instrument. -/
def exampleForeign : List (Step ℕ) :=
  [.location 10 .TD, .location 20 .MD, .register 10, .feed 20 0 1 exampleInstrument]

/-- The account is sent the instrument of the other location. -/
theorem sends_foreign :
    ∃ c c', (start 1).run exampleForeign = .ok c ∧ (c.locations 10).isSome ∧
      c.requestCached 10 = .ok c' ∧ ¬ WritesLatest c c' 10 0 := by
  obtain ⟨c, hrun, hafter⟩ := Outcome.exists_of_any
    (show ((start 1).run exampleForeign).toOption.any (fun c => (c.locations 10).isSome &&
      (c.requestCached 10).toOption.any fun c' => c'.profileBank.written.length = 1) = true by
        decide +kernel)
  obtain ⟨hlocated, hrequest⟩ := Bool.and_eq_true_iff.mp hafter
  obtain ⟨c', hrequest, hwritten⟩ := Outcome.exists_of_any hrequest
  refine ⟨c, c', hrun, hlocated, hrequest, fun hrestored => ?_⟩
  obtain ⟨s, hs⟩ : ∃ s, s ∈ c'.profileBank.written :=
    List.exists_mem_of_length_pos (Nat.lt_of_lt_of_eq Nat.one_pos (of_decide_eq_true hwritten).symm)
  obtain ⟨dest, hlatest⟩ := hrestored.profile s hs
  have hnone : c.image 10 dest s.1 s.2.key = none := by
    apply image_eq_none hrun
    rintro _ hmem dest genTime data rfl
    simp [exampleForeign] at hmem
  cases hnone.symm.trans hlatest

end Cached

end Kungfu.Cache
