import Kungfu.Cache.Storage

/-!
# The profile

Besides the databases of the locations there is one for all of them, the profile.  What is fed of
its types waits in a bank of its own until it is stored, and on each request the rows are fed to
that bank again, over what waits there.
-/

namespace Kungfu.Cache

open Longfist

variable {δ : Type}

/-- The types in `ProfileDataTypes`: some of those that are cached, and `Location`. -/
inductive ProfileDataType
  | state (t : StateDataType)
  | Location
  deriving DecidableEq

/-- `ProfileDataTypes`, in its order. -/
def ProfileDataTypes : List ProfileDataType :=
  [.state .Config, .state .RiskSetting, .state .Commission, .state .Instrument, .Location,
    .state .Basket, .state .BasketInstrument]

/-- The database.  Of a location nothing but its uid is kept. -/
structure Profile (δ : Type) where
  storage : Storage δ
  locations : List UInt64

/-- `ProfileStateBank`: the states that wait, and the uids of the locations that do. -/
structure ProfileBank (δ : Type) where
  states : Bank δ
  locations : List UInt64

namespace Profile

def empty : Profile δ := ⟨Storage.empty, []⟩

/-- `get_all`. -/
def getAll (t : StateDataType) (profile : Profile δ) : List (Data δ t) :=
  (profile.storage t).entries.map (·.2.1)

end Profile

/-- Rows are fed to the states of their type, without channel and time. -/
def StateMap.feedRows {t : StateDataType} (rows : List (Data δ t)) (states : StateMap δ t) :
    StateMap δ t :=
  rows.foldl (fun states data => states.insertOrAssign ⟨0, 0, 0, data⟩) states

namespace ProfileBank

def empty : ProfileBank δ := ⟨Bank.empty, []⟩

/-- `typed_bank::operator<<`, if the type is one of the profile. -/
def feed {t : StateDataType} (bank : ProfileBank δ) (s : State δ t) : ProfileBank δ :=
  if .state t ∈ ProfileDataTypes then { bank with states := bank.states.feed s } else bank

/-- `typed_bank::operator<<` for a location. -/
def feedLocation (bank : ProfileBank δ) (uid : UInt64) : ProfileBank δ :=
  { bank with locations := bank.locations.insert uid }

/-- `profile_get_all`: every row is fed to the bank. -/
def profileGetAll (profile : Profile δ) (bank : ProfileBank δ) : ProfileBank δ where
  states t :=
    if .state t ∈ ProfileDataTypes then (bank.states t).feedRows (profile.getAll t)
    else bank.states t
  locations := profile.locations.union bank.locations

/-- What `typed_bank::operator>>` writes, locations apart. -/
def written (bank : ProfileBank δ) : List (Σ t, Data δ t) :=
  ProfileDataTypes.flatMap fun
    | .state t => (bank.states t).entries.map fun entry => ⟨t, entry.2.data⟩
    | .Location => []

/-- The uids under which data of a type wait. -/
def uids (bank : ProfileBank δ) : ProfileDataType → List UInt64
  | .state t => (bank.states t).keys
  | .Location => bank.locations

end ProfileBank

/-! ## Storing -/

/-- What waits under a uid is stored, and taken out of the bank. -/
def storeProfile (uid : UInt64) :
    ProfileDataType → Profile δ × ProfileBank δ → Profile δ × ProfileBank δ
  | .state t, (profile, bank) =>
      ((bank.states t).lookup uid).elim (profile, bank) fun s =>
        ({ profile with storage := profile.storage.replace s.data },
          { bank with states := Function.update bank.states t ((bank.states t).erase uid) })
  | .Location, (profile, bank) =>
      ({ profile with locations := profile.locations.insert uid },
        { bank with locations := bank.locations.erase uid })

/-- `handle_profile_feeds` for one type: the loop over its states. -/
def storeProfileType (volume : ℕ) (fails : ProfileDataType → UInt64 → Bool) (t : ProfileDataType) :
    List UInt64 → Profile δ × ProfileBank δ → ℕ → (Profile δ × ProfileBank δ) × ℕ
  | [], profile, stored => (profile, stored)
  | uid :: uids, profile, stored =>
      if volume < stored then (profile, stored)
      else if uid ∉ profile.2.uids t then storeProfileType volume fails t uids profile stored
      else if fails t uid then (profile, stored + 1)
      else storeProfileType volume fails t uids (storeProfile uid t profile) (stored + 1)

/-- `handle_profile_feeds`. -/
def handleProfileFeeds (volume : ℕ) (visited : ProfileDataType → List UInt64)
    (fails : ProfileDataType → UInt64 → Bool) (profile : Profile δ × ProfileBank δ) :
    Profile δ × ProfileBank δ :=
  (ProfileDataTypes.foldl (fun (profile, stored) t =>
    storeProfileType volume fails t (visited t ++ profile.2.uids t) profile stored)
    (profile, 0)).1

/-! ## What is written -/

section Rows

variable {t : StateDataType} {rows : List (Data δ t)} {states : StateMap δ t}

theorem StateMap.lookup_feedRows_of_ne {uid : UInt64} (h : ∀ row ∈ rows, row.uid ≠ uid) :
    (states.feedRows rows).lookup uid = states.lookup uid := by
  induction rows generalizing states with
  | nil => rfl
  | cons row rows ih =>
    have hrow : uid ≠ row.uid := (h row (by simp)).symm
    exact (ih fun row' hrow' => h row' (by simp [hrow'])).trans (AList.lookup_insert_ne hrow)

/-- A row is filed as it is when no other row has its uid and it meets only a state of its own key
with no longer texts. -/
theorem StateMap.lookup_feedRows {row : Data δ t} (hnodup : (rows.map Data.uid).Nodup)
    (hrow : row ∈ rows)
    (hold : ∀ old ∈ states.lookup row.uid, old.data.key = row.key ∧
      ∀ i, (old.data.texts i).length ≤ (row.texts i).length) :
    (states.feedRows rows).lookup row.uid = some ⟨0, 0, 0, row⟩ := by
  induction rows generalizing states with
  | nil => cases hrow
  | cons first rows ih =>
    rw [List.map_cons, List.nodup_cons] at hnodup
    obtain ⟨hfirst, hnodup⟩ := hnodup
    change ((states.insertOrAssign ⟨0, 0, 0, first⟩).feedRows rows).lookup row.uid = _
    rcases List.mem_cons.mp hrow with rfl | hrow
    · have hne : ∀ row' ∈ rows, row'.uid ≠ row.uid := by
        intro row' hrow' huid
        exact hfirst (List.mem_map.mpr ⟨row', hrow', huid⟩)
      rw [lookup_feedRows_of_ne hne]
      refine (AList.lookup_insert states).trans ?_
      change some (State.assignTo (states.lookup row.uid) ⟨0, 0, 0, row⟩) = _
      cases hlookup : states.lookup row.uid with
      | none => rfl
      | some old =>
        obtain ⟨hkey, htexts⟩ := hold old hlookup
        exact congrArg some ((State.assign_eq_right hkey).mpr htexts)
    · have hne : row.uid ≠ first.uid := by
        intro huid
        exact hfirst (List.mem_map.mpr ⟨row, hrow, huid⟩)
      have hother : (states.insertOrAssign ⟨0, 0, 0, first⟩).lookup row.uid =
          states.lookup row.uid := AList.lookup_insert_ne hne
      apply ih hnodup hrow
      rwa [hother]

end Rows

namespace ProfileBank

variable {profile : Profile δ} {bank : ProfileBank δ}

/-- No two rows of a type share a uid, and a row meets under its uid at most a state of its own key
with no longer texts. -/
def Clear (profile : Profile δ) (bank : ProfileBank δ) : Prop :=
  ∀ t ∈ StateDataTypes, .state t ∈ ProfileDataTypes →
    ((profile.getAll t).map Data.uid).Nodup ∧
      ∀ row ∈ profile.getAll t, ∀ old ∈ (bank.states t).lookup row.uid,
        old.data.key = row.key ∧ ∀ i, (old.data.texts i).length ≤ (row.texts i).length

instance : Decidable (Clear profile bank) :=
  inferInstanceAs (Decidable (∀ t ∈ StateDataTypes, _))

/-- The datum is a row, or it waits under a uid that no row has. -/
def Shows (profile : Profile δ) (bank : ProfileBank δ) (t : StateDataType) (data : Data δ t) :
    Prop :=
  .state t ∈ ProfileDataTypes ∧
    (data ∈ profile.getAll t ∨
      ∃ uid s, (bank.states t).lookup uid = some s ∧ s.data = data ∧
        ∀ row ∈ profile.getAll t, row.uid ≠ uid)

theorem mem_written {t : StateDataType} {data : Data δ t} :
    ⟨t, data⟩ ∈ bank.written ↔
      .state t ∈ ProfileDataTypes ∧ ∃ uid s, (bank.states t).lookup uid = some s ∧ s.data = data := by
  rw [written, List.mem_flatMap]
  constructor
  · rintro ⟨t', ht, hdata⟩
    cases t' with
    | Location => cases hdata
    | state t' =>
      obtain ⟨entry, hentry, heq⟩ := List.mem_map.mp hdata
      cases heq
      exact ⟨ht, entry.1, entry.2, AList.mem_lookup_iff.mpr hentry, rfl⟩
  · rintro ⟨ht, uid, s, hs, rfl⟩
    exact ⟨_, ht, List.mem_map.mpr ⟨⟨uid, s⟩, AList.mem_lookup_iff.mp hs, rfl⟩⟩

/-- After the rows were fed to a bank that is clear for them, it holds them, and else what waited
under other uids. -/
theorem mem_written_profileGetAll (hclear : Clear profile bank) {t : StateDataType}
    {data : Data δ t} :
    ⟨t, data⟩ ∈ (bank.profileGetAll profile).written ↔ bank.Shows profile t data := by
  rw [mem_written, Shows]
  refine and_congr_right fun ht => ?_
  obtain ⟨hnodup, hold⟩ := hclear t (mem_stateDataTypes t) ht
  have hstates : (bank.profileGetAll profile).states t =
      (bank.states t).feedRows (profile.getAll t) := if_pos ht
  rw [hstates]
  constructor
  · rintro ⟨uid, s, hs, rfl⟩
    by_cases hrow : ∃ row ∈ profile.getAll t, row.uid = uid
    · obtain ⟨row, hrow, rfl⟩ := hrow
      rw [StateMap.lookup_feedRows hnodup hrow (hold row hrow)] at hs
      cases hs
      exact .inl hrow
    · have hne : ∀ row ∈ profile.getAll t, row.uid ≠ uid := by
        intro row hmem huid
        exact hrow ⟨row, hmem, huid⟩
      rw [StateMap.lookup_feedRows_of_ne hne] at hs
      exact .inr ⟨uid, s, hs, rfl, hne⟩
  · rintro (hrow | ⟨uid, s, hs, rfl, hne⟩)
    · exact ⟨data.uid, _, StateMap.lookup_feedRows hnodup hrow (hold data hrow), rfl⟩
    · exact ⟨uid, s, (StateMap.lookup_feedRows_of_ne hne).trans hs, rfl⟩

end ProfileBank

end Kungfu.Cache
