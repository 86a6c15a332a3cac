import Kungfu.Cache.Profile
import Kungfu.Logic.Outcome

/-!
# The cache service

The service feeds the states it reads into a bank.  From time to time it stores some of them
in the databases of the locations they came from, one database for each dest, and takes them
out of the bank.  A location that asks for its cache is sent what its databases hold, and after
it what the bank of the profile holds, from whatever location that came.  Which databases are
open is kept in the shift of the location, which is dropped when the location registers anew.
-/

namespace Kungfu.Cache

open Longfist

variable {δ : Type}

/-- The databases on disk, by location and dest. -/
abbrev Disk (δ : Type) := UInt32 → AList fun _ : UInt32 => Storage δ

/-! ## The service -/

/-- `shift`: the dests whose databases are open.  A shift that `operator[]` made has no
location. -/
structure Shift where
  located : Bool
  opened : List UInt32

/-- A datum as it was fed: `serial` counts the states fed before it.  The service does not
know it. -/
structure Stamped (δ : Type) where
  serial : ℕ
  details : δ
  deriving DecidableEq

/-- What a cache without delay would hold, by channel, type and primary key. -/
abbrev Image (δ : Type) :=
  (source dest : UInt32) → (t : StateDataType) → PrimaryKey t → Option (Data (Stamped δ) t)

/-- The service.  `clock` counts the states fed so far, `image` is what a cache without delay
would hold, and `resetAt` says when a type was last reset in a channel; no step depends on
them. -/
structure Cached (δ : Type) where
  home : UInt32
  locations : UInt32 → Option Category
  live : UInt32 → Bool
  shifts : UInt32 → Option Shift
  bank : Bank (Stamped δ)
  profile : Profile (Stamped δ)
  profileBank : ProfileBank (Stamped δ)
  disk : Disk (Stamped δ)
  clock : ℕ
  image : Image δ
  resetAt : UInt32 → UInt32 → StateDataType → ℕ

/-- How a handler fails: `at` finds no location, or a shift has none. -/
inductive Failure
  | outOfRange
  | nullLocation
  deriving DecidableEq, Repr

/-- An event that the service handles, a batch that it stores, or a restart of its process. -/
inductive Step (δ : Type)
  | location (uid : UInt32) (category : Category)
  | register (uid : UInt32)
  | deregister (uid : UInt32)
  | channel (source dest : UInt32)
  | requestCached (source : UInt32) (todayStart : Int64)
  | cacheReset (source dest : UInt32) (t : StateDataType)
  /-- A state is read in the channel from `source` to `dest`. -/
  | feed (source dest : UInt32) (genTime : Int64) (s : Σ t, Data δ t)
  /-- `handle_cached_feeds`; the bank's states are visited as `visited` says, and those in
  `fails` cannot be stored. -/
  | handleCachedFeeds (volume : ℕ) (visited : StateDataType → List UInt64)
      (fails : StateDataType → UInt64 → Bool)
  /-- `handle_profile_feeds`, likewise. -/
  | handleProfileFeeds (volume : ℕ) (visited : ProfileDataType → List UInt64)
      (fails : ProfileDataType → UInt64 → Bool)
  | restart

namespace Cached

/-- The service on its first day. -/
def start (home : UInt32) : Cached δ where
  home := home
  locations _ := none
  live _ := false
  shifts _ := none
  bank := Bank.empty
  profile := Profile.empty
  profileBank := ProfileBank.empty
  disk _ := ∅
  clock := 0
  image _ _ _ _ := none
  resetAt _ _ _ := 0

/-- A file for the database is made if there is none. -/
def createFile (source dest : UInt32) (disk : Disk δ) : Disk δ :=
  if dest ∈ disk source then disk
  else Function.update disk source ((disk source).insert dest Storage.empty)

/-- `shift::ensure_storage` of the shift of `source`. -/
def ensureStorage (source dest : UInt32) (shift : Shift) (c : Cached δ) :
    Except Failure (Cached δ) :=
  if dest ∈ shift.opened then .ok c
  else if ¬ shift.located then .error .nullLocation
  else
    let shift := { shift with opened := dest :: shift.opened }
    .ok { c with
      shifts := Function.update c.shifts source (some shift)
      disk := createFile source dest c.disk }

/-- The database of a channel; without a file it has no rows. -/
def storageAt (disk : Disk δ) (source dest : UInt32) : Storage δ :=
  ((disk source).lookup dest).getD Storage.empty

/-- A change to the database of a channel. -/
def updateStorage (source dest : UInt32) (f : Storage (Stamped δ) → Storage (Stamped δ))
    (c : Cached δ) : Cached δ :=
  let storages := (c.disk source).insert dest (f (storageAt c.disk source dest))
  { c with disk := Function.update c.disk source storages }

/-- The shift of a location, made by `try_emplace` if there is none. -/
def emplaceShift (source : UInt32) (c : Cached δ) : Shift × Cached δ :=
  match c.shifts source with
  | some shift => (shift, c)
  | none => (⟨true, []⟩, { c with shifts := Function.update c.shifts source (some ⟨true, []⟩) })

/-- The shift of a location, made by `operator[]` if there is none. -/
def indexShift (source : UInt32) (c : Cached δ) : Shift × Cached δ :=
  match c.shifts source with
  | some shift => (shift, c)
  | none => (⟨false, []⟩, { c with shifts := Function.update c.shifts source (some ⟨false, []⟩) })

/-- `make_cache_shift`. -/
def makeCacheShift (source dest : UInt32) (c : Cached δ) : Except Failure (Cached δ) :=
  if (c.locations source).isNone then .ok c
  else if ¬ c.live source then .ok c
  else
    (c.emplaceShift source).2.ensureStorage source dest (c.emplaceShift source).1

/-- `inspect_channel`. -/
def inspectChannel (source dest : UInt32) (c : Cached δ) : Except Failure (Cached δ) :=
  if source ≠ c.home ∧ dest ≠ c.home then
    if (c.locations source).isNone then .error .outOfRange else c.makeCacheShift source dest
  else .ok c

/-- `on_register`, `register_triggger_clear_cache_shift` and `register_trigger_listen_public`. -/
def register (uid : UInt32) (c : Cached δ) : Except Failure (Cached δ) :=
  let c := { c with
    live := Function.update c.live uid true
    shifts := Function.update c.shifts uid none }
  match c.locations uid with
  | none => .error .outOfRange
  | some .TD => c.makeCacheShift uid PUBLIC
  | some _ => .ok c

/-- The databases of a location are opened before they are restored from. -/
def openAll (source : UInt32) (shift : Shift) (c : Cached δ) : Except Failure (Cached δ) :=
  if ¬ shift.located then .error .nullLocation
  else
    let closed := (c.disk source).keys.filter fun dest => dest ∉ shift.opened
    let shift := { shift with opened := closed ++ shift.opened }
    .ok { c with shifts := Function.update c.shifts source (some shift) }

/-- The dests whose databases are open in the shift of a location. -/
def openedBy (c : Cached δ) (source : UInt32) : List UInt32 :=
  (c.shifts source).elim [] Shift.opened

/-- What `shift::operator>>` writes to a location, with the dest of the database it comes from. -/
def restored (source : UInt32) (todayStart : Int64) (c : Cached δ) :
    List (UInt32 × Σ t, Data (Stamped δ) t) :=
  StateDataTypes.flatMap fun t => (c.openedBy source).flatMap fun dest =>
    ((storageAt c.disk source dest).getAll t todayStart).map fun data => (dest, ⟨t, data⟩)

/-- `profile_get_all`. -/
def profileGetAll (c : Cached δ) : Cached δ :=
  { c with profileBank := c.profileBank.profileGetAll c.profile }

/-- The request of a location for its cache. -/
def requestCached (source : UInt32) (c : Cached δ) : Except Failure (Cached δ) :=
  if (c.locations source).isNone then .ok c
  else do
    let c ← (c.emplaceShift source).2.openAll source (c.emplaceShift source).1
    pure c.profileGetAll

/-- `on_cache_reset`. -/
def onCacheReset (source dest : UInt32) (t : StateDataType) (c : Cached δ) :
    Except Failure (Cached δ) := do
  let (shift, c) := c.indexShift source
  let c ← c.ensureStorage source dest shift
  let c := c.updateStorage source dest (Storage.removeAll t)
  let (shift, c) := c.indexShift dest
  let c := shift.opened.foldl (fun c dest' => c.updateStorage dest dest' (Storage.removeAll t)) c
  pure { c with
    image := fun source' dest' t' key =>
      if t' = t ∧ (source' = source ∧ dest' = dest ∨ source' = dest) then none
      else c.image source' dest' t' key
    resetAt := fun source' dest' t' =>
      if t' = t ∧ (source' = source ∧ dest' = dest ∨ source' = dest) then c.clock
      else c.resetAt source' dest' t' }

/-- The datum gets its serial. -/
def stamp {t : StateDataType} (serial : ℕ) (data : Data δ t) : Data (Stamped δ) t :=
  { data with details := ⟨serial, data.details⟩ }

/-- A datum is fed into the bank, and into that of the profile if its type is one of these. -/
def feedData (source dest : UInt32) (genTime : Int64) {t : StateDataType} (data : Data δ t)
    (c : Cached δ) : Cached δ :=
  let data := stamp c.clock data
  let images := Function.update (c.image source dest t) data.key (some data)
  { c with
    bank := c.bank.feed ⟨source, dest, genTime, data⟩
    profileBank := c.profileBank.feed ⟨source, dest, genTime, data⟩
    clock := c.clock + 1
    image := Function.update c.image source (Function.update (c.image source) dest
      (Function.update (c.image source dest) t images)) }

/-- `feed`: market data is not cached, instruments apart. -/
def feed (source dest : UInt32) (genTime : Int64) (s : Σ t, Data δ t) (c : Cached δ) :
    Except Failure (Cached δ) :=
  if s.1 = .Instrument then .ok (c.feedData source dest genTime s.2)
  else
    match c.locations source with
    | none => .error .outOfRange
    | some category =>
        .ok (if category = .MD then c else c.feedData source dest genTime s.2)

/-- A state of the bank is stored, and taken out of it. -/
def store {t : StateDataType} (uid : UInt64) (s : State (Stamped δ) t) (shift : Shift)
    (c : Cached δ) : Except Failure (Cached δ) := do
  let c ← c.ensureStorage s.source s.dest shift
  let c := c.updateStorage s.source s.dest (Storage.replace s.data)
  pure { c with bank := Function.update c.bank t ((c.bank t).erase uid) }

/-- `handle_cached_feeds` for one type: the loop over its states. -/
def storeType (volume : ℕ) (fails : StateDataType → UInt64 → Bool) (t : StateDataType) :
    List UInt64 → Cached δ → ℕ → Except Failure (Cached δ × ℕ)
  | [], c, stored => .ok (c, stored)
  | uid :: uids, c, stored =>
      if volume < stored then .ok (c, stored)
      else
        match (c.bank t).lookup uid with
        | none => storeType volume fails t uids c stored
        | some s =>
            match c.shifts s.source with
            | none => storeType volume fails t uids c stored
            | some shift =>
                if fails t uid then do
                  let c ← c.ensureStorage s.source s.dest shift
                  pure (c, stored + 1)
                else do
                  let c ← c.store uid s shift
                  storeType volume fails t uids c (stored + 1)

/-- `handle_cached_feeds`. -/
def handleCachedFeeds (volume : ℕ) (visited : StateDataType → List UInt64)
    (fails : StateDataType → UInt64 → Bool) (c : Cached δ) : Except Failure (Cached δ) := do
  let (c, _) ← StateDataTypes.foldlM (fun (c, stored) t =>
    storeType volume fails t (visited t ++ (c.bank t).keys) c stored) (c, 0)
  pure c

/-- `add_location` and `on_location`. -/
def onLocation (uid : UInt32) (category : Category) (c : Cached δ) : Cached δ :=
  { c with
    locations := Function.update c.locations uid ((c.locations uid).getD category)
    profileBank := c.profileBank.feedLocation uid.toUInt64 }

/-- `handle_profile_feeds`. -/
def handleProfileFeeds (volume : ℕ) (visited : ProfileDataType → List UInt64)
    (fails : ProfileDataType → UInt64 → Bool) (c : Cached δ) : Cached δ :=
  let profile := Cache.handleProfileFeeds volume visited fails (c.profile, c.profileBank)
  { c with profile := profile.1, profileBank := profile.2 }

def step (c : Cached δ) : Step δ → Except Failure (Cached δ)
  | .location uid category => .ok (c.onLocation uid category)
  | .register uid => c.register uid
  | .deregister uid =>
      .ok (if uid = c.home then c else { c with live := Function.update c.live uid false })
  | .channel source dest => c.inspectChannel source dest
  | .requestCached source _ => c.requestCached source
  | .cacheReset source dest t => c.onCacheReset source dest t
  | .feed source dest genTime s => c.feed source dest genTime s
  | .handleCachedFeeds volume visited fails => c.handleCachedFeeds volume visited fails
  | .handleProfileFeeds volume visited fails => .ok (c.handleProfileFeeds volume visited fails)
  | .restart =>
      .ok { c with
        locations := fun _ => none
        live := fun _ => false
        shifts := fun _ => none
        bank := Bank.empty
        profileBank := ProfileBank.empty.profileGetAll c.profile }

/-- Steps one after another, until one fails. -/
def run (c : Cached δ) (steps : List (Step δ)) : Except Failure (Cached δ) := steps.foldlM step c

/-! ## What the steps do to banks and rows -/

/-- The row of a channel, type and primary key. -/
def rowAt (c : Cached δ) (source dest : UInt32) (t : StateDataType) (key : PrimaryKey t) :
    Option (Data (Stamped δ) t) :=
  ((storageAt c.disk source dest t).lookup key).map (·.1)

theorem key_of_rowAt {c : Cached δ} {source dest : UInt32} {t : StateDataType} {key : PrimaryKey t}
    {data : Data (Stamped δ) t} (h : c.rowAt source dest t key = some data) : data.key = key := by
  obtain ⟨row, -, rfl⟩ := Option.map_eq_some_iff.mp h
  exact row.2

/-- Nothing that is cached has changed. -/
structure Agrees (c c' : Cached δ) : Prop where
  bank : c'.bank = c.bank
  clock : c'.clock = c.clock
  image : c'.image = c.image
  resetAt : c'.resetAt = c.resetAt
  storageAt : ∀ source dest, storageAt c'.disk source dest = Cached.storageAt c.disk source dest

variable {c c' c'' : Cached δ}

theorem Agrees.refl (c : Cached δ) : c.Agrees c := ⟨rfl, rfl, rfl, rfl, fun _ _ => rfl⟩

theorem Agrees.trans (h : c.Agrees c') (h' : c'.Agrees c'') : c.Agrees c'' :=
  ⟨h'.bank.trans h.bank, h'.clock.trans h.clock, h'.image.trans h.image,
    h'.resetAt.trans h.resetAt, fun source dest =>
      (h'.storageAt source dest).trans (h.storageAt source dest)⟩

theorem Agrees.rowAt (h : c.Agrees c') (source dest : UInt32) (t : StateDataType)
    (key : PrimaryKey t) : c'.rowAt source dest t key = c.rowAt source dest t key := by
  rw [Cached.rowAt, Cached.rowAt, h.storageAt]

theorem storageAt_createFile (disk : Disk δ) (source dest source' dest' : UInt32) :
    storageAt (createFile source dest disk) source' dest' = storageAt disk source' dest' := by
  unfold createFile
  split
  · rfl
  · rename_i hnew
    rcases eq_or_ne source' source with rfl | hsource
    · rcases eq_or_ne dest' dest with rfl | hdest
      · have hnone : (disk source').lookup dest' = none := AList.lookup_eq_none.mpr hnew
        simp [storageAt, hnone]
      · simp [storageAt, AList.lookup_insert_ne hdest]
    · simp [storageAt, Function.update_of_ne hsource]

theorem agrees_ensureStorage {source dest : UInt32} {shift : Shift}
    (h : c.ensureStorage source dest shift = .ok c') : c.Agrees c' := by
  unfold ensureStorage at h
  split_ifs at h
  · cases h
    exact .refl c
  · cases h
    exact ⟨rfl, rfl, rfl, rfl, storageAt_createFile c.disk source dest⟩

theorem agrees_emplaceShift (source : UInt32) : c.Agrees (c.emplaceShift source).2 := by
  unfold emplaceShift
  split
  · exact .refl c
  · exact ⟨rfl, rfl, rfl, rfl, fun _ _ => rfl⟩

theorem agrees_indexShift (source : UInt32) : c.Agrees (c.indexShift source).2 := by
  unfold indexShift
  split
  · exact .refl c
  · exact ⟨rfl, rfl, rfl, rfl, fun _ _ => rfl⟩

theorem agrees_makeCacheShift {source dest : UInt32} (h : c.makeCacheShift source dest = .ok c') :
    c.Agrees c' := by
  unfold makeCacheShift at h
  by_cases hlocation : (c.locations source).isNone
  · rw [if_pos hlocation] at h
    cases h
    exact .refl c
  · rw [if_neg hlocation] at h
    by_cases hlive : ¬ c.live source
    · rw [if_pos hlive] at h
      cases h
      exact .refl c
    · rw [if_neg hlive] at h
      exact (agrees_emplaceShift source).trans (agrees_ensureStorage h)

theorem agrees_openAll {source : UInt32} {shift : Shift} (h : c.openAll source shift = .ok c') :
    c.Agrees c' := by
  unfold openAll at h
  split_ifs at h
  cases h
  exact ⟨rfl, rfl, rfl, rfl, fun _ _ => rfl⟩

theorem agrees_requestCached {source : UInt32} (h : c.requestCached source = .ok c') :
    c.Agrees c' := by
  unfold requestCached at h
  split_ifs at h
  · cases h
    exact .refl c
  · obtain ⟨c₁, hopen, hget⟩ := Outcome.exists_of_bind h
    cases hget
    have hagrees := (agrees_emplaceShift source).trans (agrees_openAll hopen)
    exact ⟨hagrees.bank, hagrees.clock, hagrees.image, hagrees.resetAt, hagrees.storageAt⟩

/-- The events that bring no state and reset none. -/
def Step.quiet : Step δ → Bool
  | .location _ _ | .register _ | .deregister _ | .channel _ _ | .requestCached _ _
  | .handleProfileFeeds _ _ _ => true
  | .cacheReset _ _ _ | .feed _ _ _ _ | .handleCachedFeeds _ _ _ | .restart => false

/-- They leave alone what is cached. -/
theorem agrees_of_quiet {s : Step δ} (hquiet : Step.quiet s) (h : c.step s = .ok c') :
    c.Agrees c' := by
  cases s with
  | location uid category =>
    cases h
    exact ⟨rfl, rfl, rfl, rfl, fun _ _ => rfl⟩
  | register uid =>
    simp only [step, register] at h
    split at h
    · cases h
    · have hc : c.Agrees { c with
          live := Function.update c.live uid true
          shifts := Function.update c.shifts uid none } := ⟨rfl, rfl, rfl, rfl, fun _ _ => rfl⟩
      exact hc.trans (agrees_makeCacheShift h)
    · cases h
      exact ⟨rfl, rfl, rfl, rfl, fun _ _ => rfl⟩
  | deregister uid =>
    cases h
    split
    · exact .refl c
    · exact ⟨rfl, rfl, rfl, rfl, fun _ _ => rfl⟩
  | channel source dest =>
    simp only [step, inspectChannel] at h
    split_ifs at h
    · exact agrees_makeCacheShift h
    · cases h
      exact .refl c
  | requestCached source todayStart => exact agrees_requestCached h
  | handleProfileFeeds volume visited fails =>
    cases h
    exact ⟨rfl, rfl, rfl, rfl, fun _ _ => rfl⟩
  | cacheReset _ _ _ | feed _ _ _ _ | handleCachedFeeds _ _ _ | restart => cases hquiet

/-! ### Stores and resets -/

theorem storageAt_updateStorage (c : Cached δ) (source dest : UInt32)
    (f : Storage (Stamped δ) → Storage (Stamped δ)) (source' dest' : UInt32) :
    storageAt (c.updateStorage source dest f).disk source' dest' =
      if source' = source ∧ dest' = dest then f (storageAt c.disk source dest)
      else storageAt c.disk source' dest' := by
  rcases eq_or_ne source' source with rfl | hsource
  · rcases eq_or_ne dest' dest with rfl | hdest
    · simp [storageAt, updateStorage]
    · simp [storageAt, updateStorage, hdest]
  · simp [storageAt, updateStorage, hsource]

/-- A channel, a type and a primary key. -/
abbrev Place := UInt32 × UInt32 × Σ t, PrimaryKey t

@[simp] theorem rowAt_replace_self (c : Cached δ) (source dest : UInt32) {t : StateDataType}
    (data : Data (Stamped δ) t) :
    (c.updateStorage source dest (Storage.replace data)).rowAt source dest t data.key =
      some data := by
  simp [rowAt, storageAt_updateStorage, Storage.replace]

theorem rowAt_replace_of_ne (c : Cached δ) {source dest source' dest' : UInt32}
    {t t' : StateDataType} {data : Data (Stamped δ) t} {key : PrimaryKey t'}
    (h : ((source', dest', ⟨t', key⟩) : Place) ≠ (source, dest, ⟨t, data.key⟩)) :
    (c.updateStorage source dest (Storage.replace data)).rowAt source' dest' t' key =
      c.rowAt source' dest' t' key := by
  rw [rowAt, rowAt, storageAt_updateStorage]
  split
  · rename_i hchannel
    obtain ⟨rfl, rfl⟩ := hchannel
    rcases eq_or_ne t' t with rfl | htype
    · have hkey : key ≠ data.key := by
        rintro rfl
        exact h rfl
      simp [Storage.replace, AList.lookup_insert_ne hkey]
    · simp [Storage.replace, htype]
  · rfl

theorem rowAt_removeAll (c : Cached δ) (source dest : UInt32) (t : StateDataType)
    (source' dest' : UInt32) (t' : StateDataType) (key : PrimaryKey t') :
    (c.updateStorage source dest (Storage.removeAll t)).rowAt source' dest' t' key =
      if t' = t ∧ source' = source ∧ dest' = dest then none else c.rowAt source' dest' t' key := by
  rw [rowAt, rowAt, storageAt_updateStorage]
  by_cases hchannel : source' = source ∧ dest' = dest
  · obtain ⟨rfl, rfl⟩ := hchannel
    rcases eq_or_ne t' t with rfl | htype
    · simp [Storage.removeAll]
    · simp [Storage.removeAll, htype]
  · rw [if_neg hchannel, if_neg fun h => hchannel h.2]

/-- What a database of a location holds of a type is removed from one after another. -/
theorem foldl_removeAll (source : UInt32) (t : StateDataType) (dests : List UInt32) (c : Cached δ) :
    let c' := dests.foldl (fun c dest => c.updateStorage source dest (Storage.removeAll t)) c
    (c'.bank = c.bank ∧ c'.clock = c.clock ∧ c'.image = c.image ∧ c'.resetAt = c.resetAt) ∧
      ∀ source' dest' t' (key : PrimaryKey t'), c'.rowAt source' dest' t' key =
        if t' = t ∧ source' = source ∧ dest' ∈ dests then none else c.rowAt source' dest' t' key := by
  induction dests generalizing c with
  | nil => simp
  | cons dest dests ih =>
    obtain ⟨hrest, hrows⟩ := ih (c.updateStorage source dest (Storage.removeAll t))
    refine ⟨hrest, fun source' dest' t' key => ?_⟩
    rw [List.foldl_cons, hrows, rowAt_removeAll]
    by_cases h : t' = t ∧ source' = source
    · obtain ⟨rfl, rfl⟩ := h
      by_cases hdest : dest' = dest <;> simp [hdest]
    · rw [if_neg fun h' => h ⟨h'.1, h'.2.1⟩, if_neg fun h' => h ⟨h'.1, h'.2.1⟩,
        if_neg fun h' => h ⟨h'.1, h'.2.1⟩]

/-- A reset of a type in the channel from `source` to `dest` is about the channel from
`source'` to `dest'`: it is the same one, or one of the location `dest`. -/
def Concerns (source dest source' dest' : UInt32) : Prop :=
  source' = source ∧ dest' = dest ∨ source' = dest

instance (source dest source' dest' : UInt32) : Decidable (Concerns source dest source' dest') :=
  inferInstanceAs (Decidable (_ ∨ _))

/-- A reset empties the tables of the type in the database of the channel and in those of the
dest that are open; the bank is left alone. -/
structure Resets (source dest : UInt32) (t : StateDataType) (c c' : Cached δ) : Prop where
  bank : c'.bank = c.bank
  clock : c'.clock = c.clock
  image : ∀ source' dest' t' (key : PrimaryKey t'), c'.image source' dest' t' key =
    if t' = t ∧ Concerns source dest source' dest' then none else c.image source' dest' t' key
  resetAt : ∀ source' dest' t', c'.resetAt source' dest' t' =
    if t' = t ∧ Concerns source dest source' dest' then c.clock else c.resetAt source' dest' t'
  rowAt : ∀ source' dest' t' (key : PrimaryKey t'), c'.rowAt source' dest' t' key =
    if t' = t ∧ (source' = source ∧ dest' = dest ∨ source' = dest ∧ dest' ∈ c.openedBy dest) then
      none
    else c.rowAt source' dest' t' key

theorem opened_indexShift (c : Cached δ) (source : UInt32) :
    (c.indexShift source).1.opened = c.openedBy source := by
  unfold indexShift openedBy
  cases c.shifts source <;> rfl

theorem openedBy_indexShift (c : Cached δ) (source uid : UInt32) :
    (c.indexShift source).2.openedBy uid = c.openedBy uid := by
  unfold indexShift openedBy
  cases hshift : c.shifts source with
  | some shift => rfl
  | none => rcases eq_or_ne uid source with rfl | hne <;> simp [*]

/-- The database of the channel is open afterwards, and no other one is opened. -/
theorem mem_openedBy_ensureStorage {source dest : UInt32} {shift : Shift}
    (hshift : shift.opened = c.openedBy source) (h : c.ensureStorage source dest shift = .ok c')
    (uid dest' : UInt32) :
    dest' ∈ c'.openedBy uid ↔ dest' ∈ c.openedBy uid ∨ uid = source ∧ dest' = dest := by
  unfold ensureStorage at h
  split_ifs at h with hopened
  · cases h
    refine ⟨.inl, fun h => h.elim id ?_⟩
    rintro ⟨rfl, rfl⟩
    rwa [← hshift]
  · cases h
    rcases eq_or_ne uid source with rfl | hne
    · simp [openedBy, hshift, or_comm]
    · simp [openedBy, hne]

theorem resets_onCacheReset {source dest : UInt32} {t : StateDataType}
    (h : c.onCacheReset source dest t = .ok c') : Resets source dest t c c' := by
  simp only [onCacheReset] at h
  cases hensure : (c.indexShift source).2.ensureStorage source dest (c.indexShift source).1 with
  | error e =>
    rw [hensure] at h
    cases h
  | ok c₁ =>
    rw [hensure, Outcome.ok_bind] at h
    have hagrees := (agrees_indexShift (c := c) source).trans (agrees_ensureStorage hensure)
    have hopened := fun dest' => mem_openedBy_ensureStorage
      ((opened_indexShift c source).trans (openedBy_indexShift c source source).symm) hensure dest dest'
    set c₂ := c₁.updateStorage source dest (Storage.removeAll t) with hc₂
    have hagrees' := agrees_indexShift (c := c₂) dest
    obtain ⟨⟨hbank, hclock, himage, hresetAt⟩, hrows⟩ :=
      foldl_removeAll dest t (c₂.indexShift dest).1.opened (c₂.indexShift dest).2
    cases h
    refine ⟨?_, ?_, ?_, ?_, ?_⟩
    · rw [hbank, hagrees'.bank]
      exact hagrees.bank
    · rw [hclock, hagrees'.clock]
      exact hagrees.clock
    · intro source' dest' t' key
      rw [himage, hagrees'.image]
      change (if _ then none else c₁.image source' dest' t' key) = _
      rw [hagrees.image]
      rfl
    · intro source' dest' t'
      rw [hclock, hagrees'.clock, hresetAt, hagrees'.resetAt]
      change (if _ then c₁.clock else c₁.resetAt source' dest' t') = _
      rw [hagrees.clock, hagrees.resetAt]
      rfl
    · intro source' dest' t' key
      have hmem : dest' ∈ (c₂.indexShift dest).1.opened ↔
          dest' ∈ c.openedBy dest ∨ dest = source ∧ dest' = dest := by
        rw [opened_indexShift]
        refine Iff.trans (hopened dest') ?_
        rw [openedBy_indexShift]
      change rowAt _ source' dest' t' key = _
      refine (hrows source' dest' t' key).trans ?_
      rw [hagrees'.rowAt, hc₂, rowAt_removeAll, hagrees.rowAt, ← ite_or]
      apply if_congr ?_ rfl rfl
      rw [hmem]
      constructor
      · rintro (⟨htype, hsource, hdest | ⟨hsame, hdest⟩⟩ | ⟨htype, hsource, hdest⟩)
        · exact ⟨htype, .inr ⟨hsource, hdest⟩⟩
        · exact ⟨htype, .inl ⟨hsource.trans hsame, hdest⟩⟩
        · exact ⟨htype, .inl ⟨hsource, hdest⟩⟩
      · rintro ⟨htype, ⟨hsource, hdest⟩ | ⟨hsource, hdest⟩⟩
        · exact .inr ⟨htype, hsource, hdest⟩
        · exact .inl ⟨htype, hsource, .inl hdest⟩

/-- A reset reaches everything that it is about: none of it waits, and the databases of the
dest that are not open have no rows of the type. -/
def ResetReaches (c : Cached δ) (source dest : UInt32) (t : StateDataType) : Prop :=
  (∀ entry ∈ (c.bank t).entries, ¬ Concerns source dest entry.2.source entry.2.dest) ∧
    ∀ dest' ∈ (c.disk dest).keys, dest' ∉ c.openedBy dest → ¬ (dest = source ∧ dest' = dest) →
      (storageAt c.disk dest dest' t).entries = []

-- the files are looked at one by one, not all possible dests
instance (c : Cached δ) (source dest : UInt32) (t : StateDataType) :
    Decidable (c.ResetReaches source dest t) :=
  have : Decidable (∀ dest' ∈ (c.disk dest).keys, dest' ∉ c.openedBy dest →
      ¬ (dest = source ∧ dest' = dest) → (storageAt c.disk dest dest' t).entries = []) :=
    List.decidableBAll _ _
  inferInstanceAs (Decidable (_ ∧ _))

theorem ResetReaches.not_concerns {source dest : UInt32} {t : StateDataType}
    (h : c.ResetReaches source dest t) {uid : UInt64} {s : State (Stamped δ) t}
    (hs : (c.bank t).lookup uid = some s) : ¬ Concerns source dest s.source s.dest :=
  h.1 ⟨uid, s⟩ (AList.mem_lookup_iff.mp hs)

/-- A database without a file has no rows. -/
theorem rowAt_of_notMem {source dest : UInt32} (h : dest ∉ c.disk source) (t : StateDataType)
    (key : PrimaryKey t) : c.rowAt source dest t key = none := by
  rw [rowAt, storageAt, AList.lookup_eq_none.mpr h]
  rfl

/-- A reset that reaches everything it is about leaves no row of it. -/
theorem Resets.rowAt_eq_none {source dest source' dest' : UInt32} {t : StateDataType}
    (h : Resets source dest t c c') (hreaches : c.ResetReaches source dest t)
    (hconcerns : Concerns source dest source' dest') (key : PrimaryKey t) :
    c'.rowAt source' dest' t key = none := by
  rw [h.rowAt]
  split
  · rfl
  · rename_i hnot
    obtain ⟨hsource, hopened⟩ := not_or.mp fun h => hnot ⟨rfl, h⟩
    obtain rfl : source' = dest := hconcerns.resolve_left hsource
    by_cases hfile : dest' ∈ c.disk source'
    · have hempty := hreaches.2 dest' hfile (fun hmem => hopened ⟨rfl, hmem⟩) hsource
      have htable : storageAt c.disk source' dest' t = ∅ := AList.ext hempty
      rw [Cached.rowAt, htable]
      rfl
    · exact rowAt_of_notMem hfile t key

theorem Resets.rowAt_of_not_concerns {source dest source' dest' : UInt32} {t t' : StateDataType}
    (h : Resets source dest t c c') (hconcerns : ¬ (t' = t ∧ Concerns source dest source' dest'))
    (key : PrimaryKey t') : c'.rowAt source' dest' t' key = c.rowAt source' dest' t' key := by
  rw [h.rowAt, if_neg]
  rintro ⟨htype, hchannel⟩
  exact hconcerns ⟨htype, hchannel.imp_right And.left⟩

/-! ### Feeds and stores -/

/-- A state is fed into the bank or is none that is cached. -/
theorem eq_or_eq_of_feed {source dest : UInt32} {genTime : Int64} {s : Σ t, Data δ t}
    (h : c.feed source dest genTime s = .ok c') :
    c' = c ∨ c' = c.feedData source dest genTime s.2 := by
  unfold feed at h
  split at h
  · cases h
    exact .inr rfl
  · split at h
    · cases h
    · cases h
      split
      · exact .inl rfl
      · exact .inr rfl

theorem image_feedData_self (c : Cached δ) (source dest : UInt32) (genTime : Int64)
    {t : StateDataType} (data : Data δ t) :
    (c.feedData source dest genTime data).image source dest t data.key =
      some (stamp c.clock data) := by
  have hkey : (stamp c.clock data).key = data.key := rfl
  simp [feedData, hkey]

theorem image_feedData_of_ne (c : Cached δ) {source dest source' dest' : UInt32} (genTime : Int64)
    {t t' : StateDataType} {data : Data δ t} {key : PrimaryKey t'}
    (h : ((source', dest', ⟨t', key⟩) : Place) ≠ (source, dest, ⟨t, data.key⟩)) :
    (c.feedData source dest genTime data).image source' dest' t' key =
      c.image source' dest' t' key := by
  have hkey : (stamp c.clock data).key = data.key := rfl
  rcases eq_or_ne source' source with rfl | hsource
  · rcases eq_or_ne dest' dest with rfl | hdest
    · rcases eq_or_ne t' t with rfl | htype
      · have hne : key ≠ data.key := by
          rintro rfl
          exact h rfl
        simp [feedData, hkey, hne]
      · simp [feedData, htype]
    · simp [feedData, hdest]
  · simp [feedData, hsource]

/-- A state that is stored leaves the bank and becomes a row. -/
structure Stores {t : StateDataType} (uid : UInt64) (s : State (Stamped δ) t) (c c' : Cached δ) :
    Prop where
  bank : c'.bank = Function.update c.bank t ((c.bank t).erase uid)
  clock : c'.clock = c.clock
  image : c'.image = c.image
  resetAt : c'.resetAt = c.resetAt
  row : c'.rowAt s.source s.dest t s.data.key = some s.data
  other : ∀ source dest t' (key : PrimaryKey t'),
    ((source, dest, ⟨t', key⟩) : Place) ≠ (s.source, s.dest, ⟨t, s.data.key⟩) →
      c'.rowAt source dest t' key = c.rowAt source dest t' key

theorem stores_store {t : StateDataType} {uid : UInt64} {s : State (Stamped δ) t} {shift : Shift}
    (h : c.store uid s shift = .ok c') : Stores uid s c c' := by
  simp only [store] at h
  cases hensure : c.ensureStorage s.source s.dest shift with
  | error e =>
    rw [hensure] at h
    cases h
  | ok c₁ =>
    rw [hensure, Outcome.ok_bind] at h
    have hagrees := agrees_ensureStorage hensure
    cases h
    refine ⟨?_, hagrees.clock, hagrees.image, hagrees.resetAt, rowAt_replace_self c₁ .., ?_⟩
    · change Function.update c₁.bank t ((c₁.bank t).erase uid) = _
      rw [hagrees.bank]
    · intro source dest t' key hne
      exact (rowAt_replace_of_ne c₁ hne).trans (hagrees.rowAt ..)

/-- What `store_type` preserves: whatever depends on the cached data only and is preserved when
a waiting state is stored. -/
theorem storeType_induction {P : Cached δ → Prop}
    (hagrees : ∀ c c', c.Agrees c' → P c → P c')
    (hstores : ∀ c c' t uid (s : State (Stamped δ) t), (c.bank t).lookup uid = some s →
      Stores uid s c c' → P c → P c')
    {volume : ℕ} {fails : StateDataType → UInt64 → Bool} {t : StateDataType} {uids : List UInt64}
    {stored : ℕ} (H : P c) :
    Outcome.Post (storeType volume fails t uids c stored) (fun result => P result.1)
      fun _ => True := by
  induction uids generalizing c stored with
  | nil => exact H
  | cons uid uids ih =>
    rw [storeType]
    refine Outcome.post_ite (fun _ => H) fun _ => ?_
    cases hs : (c.bank t).lookup uid with
    | none => exact ih H
    | some s =>
      cases hshift : c.shifts s.source with
      | none =>
        simp only [hshift]
        exact ih H
      | some shift =>
        simp only [hshift]
        refine Outcome.post_ite (fun _ => ?_) fun _ => ?_
        · cases hensure : c.ensureStorage s.source s.dest shift with
          | error e => trivial
          | ok c₁ => exact hagrees c c₁ (agrees_ensureStorage hensure) H
        · cases hstore : c.store uid s shift with
          | error e => trivial
          | ok c₁ => exact ih (hstores c c₁ t uid s hs (stores_store hstore) H)

theorem handleCachedFeeds_induction {P : Cached δ → Prop}
    (hagrees : ∀ c c', c.Agrees c' → P c → P c')
    (hstores : ∀ c c' t uid (s : State (Stamped δ) t), (c.bank t).lookup uid = some s →
      Stores uid s c c' → P c → P c')
    {volume : ℕ} {visited : StateDataType → List UInt64} {fails : StateDataType → UInt64 → Bool}
    (h : c.handleCachedFeeds volume visited fails = .ok c') (H : P c) : P c' := by
  have hpost : Outcome.Post (c.handleCachedFeeds volume visited fails) P fun _ => True := by
    unfold handleCachedFeeds
    apply Outcome.Post.bind (Q := fun result => P result.1)
    · apply Outcome.post_foldlM (I := fun result : Cached δ × ℕ => P result.1) H
      intro result t _ hP
      exact storeType_induction hagrees hstores hP
    · intro result hP
      exact hP
  exact hpost.of_ok h

end Cached

end Kungfu.Cache
