import Kungfu.Cache.Restore

/-!
# Resets of cached types

A reset of a type in a channel empties tables, but leaves the bank alone, where older states
may still wait to be stored.  While every reset reaches all that it is about, no row is older
than the last reset of its type in its channel.
-/

namespace Kungfu.Cache

open Longfist Logic

variable {δ : Type}

namespace Cached

variable {c c' : Cached δ}

/-- Neither a state that waits nor a row was fed before the last reset of its type in its
channel. -/
structure NoneOlder (c : Cached δ) : Prop where
  clock : ∀ source dest t, c.resetAt source dest t ≤ c.clock
  waiting : ∀ t uid s, (c.bank t).lookup uid = some s →
    c.resetAt s.source s.dest t ≤ s.data.details.serial
  row : ∀ source dest t (key : PrimaryKey t) data, c.rowAt source dest t key = some data →
    c.resetAt source dest t ≤ data.details.serial

/-- Every reset reaches what it is about. -/
def ResetsReach (c : Cached δ) : Step δ → Prop
  | .cacheReset source dest t => c.ResetReaches source dest t
  | .location _ _ | .register _ | .deregister _ | .channel _ _ | .requestCached _ _
  | .feed _ _ _ _ | .handleCachedFeeds _ _ _ | .handleProfileFeeds _ _ _ | .restart => True

instance (c : Cached δ) : DecidablePred c.ResetsReach
  | .cacheReset source dest t => inferInstanceAs (Decidable (c.ResetReaches source dest t))
  | .location _ _ | .register _ | .deregister _ | .channel _ _ | .requestCached _ _
  | .feed _ _ _ _ | .handleCachedFeeds _ _ _ | .handleProfileFeeds _ _ _ | .restart =>
      inferInstanceAs (Decidable True)

theorem noneOlder_start (home : UInt32) : (start home : Cached δ).NoneOlder where
  clock _ _ _ := le_rfl
  waiting _ _ _ h := by cases h
  row _ _ _ _ _ h := by cases h

theorem NoneOlder.of_agrees (hagrees : c.Agrees c') (h : c.NoneOlder) : c'.NoneOlder := by
  constructor
  · rw [hagrees.resetAt, hagrees.clock]
    exact h.clock
  · rw [hagrees.resetAt, hagrees.bank]
    exact h.waiting
  · intro source dest t key data hrow
    rw [hagrees.rowAt] at hrow
    rw [hagrees.resetAt]
    exact h.row source dest t key data hrow

/-- An assigned state comes from the channel of the new one, and with its details. -/
theorem channel_assignTo {t : StateDataType} (old : Option (State (Stamped δ) t))
    (new : State (Stamped δ) t) :
    (State.assignTo old new).source = new.source ∧ (State.assignTo old new).dest = new.dest ∧
      (State.assignTo old new).data.details = new.data.details := by
  cases old <;> exact ⟨rfl, rfl, rfl⟩

/-- What is fed is not older than any reset. -/
theorem NoneOlder.feedData {source dest : UInt32} {genTime : Int64} {t : StateDataType}
    {data : Data δ t} (h : c.NoneOlder) : (c.feedData source dest genTime data).NoneOlder := by
  constructor
  · intro source' dest' t'
    exact (h.clock source' dest' t').trans (Nat.le_succ _)
  · intro t' uid s hs
    by_cases hne : t' = t → uid ≠ data.uid
    · rw [lookup_feedData_of_ne hne] at hs
      exact h.waiting t' uid s hs
    · obtain ⟨rfl, rfl⟩ : t' = t ∧ uid = data.uid := by simpa using hne
      obtain rfl := Option.some.inj ((lookup_feedData_self ..).symm.trans hs)
      obtain ⟨hsource, hdest, hdetails⟩ := channel_assignTo ((c.bank t').lookup data.uid)
        ⟨source, dest, genTime, stamp c.clock data⟩
      rw [hsource, hdest, hdetails]
      exact h.clock source dest t'
  · exact h.row

theorem NoneOlder.stores {t : StateDataType} {uid : UInt64} {s : State (Stamped δ) t}
    (h : c.NoneOlder) (hs : (c.bank t).lookup uid = some s) (hstores : Stores uid s c c') :
    c'.NoneOlder := by
  constructor
  · rw [hstores.resetAt, hstores.clock]
    exact h.clock
  · intro t' uid' s' hs'
    rw [hstores.resetAt]
    rw [hstores.bank] at hs'
    rcases eq_or_ne t' t with rfl | htype
    · rw [Function.update_self] at hs'
      rcases eq_or_ne uid' uid with rfl | huid
      · rw [AList.lookup_erase] at hs'
        cases hs'
      · rw [AList.lookup_erase_ne huid] at hs'
        exact h.waiting t' uid' s' hs'
    · rw [Function.update_of_ne htype] at hs'
      exact h.waiting t' uid' s' hs'
  · intro source dest t' key data hrow
    rw [hstores.resetAt]
    by_cases hplace : ((source, dest, ⟨t', key⟩) : Place) = (s.source, s.dest, ⟨t, s.data.key⟩)
    · -- the row is the state that waited
      obtain ⟨rfl, rfl, htype⟩ : source = s.source ∧ dest = s.dest ∧
          (⟨t', key⟩ : Σ t, PrimaryKey t) = ⟨t, s.data.key⟩ := by simpa using hplace
      cases htype
      cases hstores.row.symm.trans hrow
      exact h.waiting t uid s hs
    · rw [hstores.other source dest t' key hplace] at hrow
      exact h.row source dest t' key data hrow

theorem NoneOlder.resets {source dest : UInt32} {t : StateDataType} (h : c.NoneOlder)
    (hreaches : c.ResetReaches source dest t) (hresets : Resets source dest t c c') :
    c'.NoneOlder := by
  constructor
  · intro source' dest' t'
    rw [hresets.resetAt, hresets.clock]
    split
    · exact le_rfl
    · exact h.clock source' dest' t'
  · intro t' uid s hs
    rw [hresets.bank] at hs
    rw [hresets.resetAt, if_neg]
    · exact h.waiting t' uid s hs
    · rintro ⟨rfl, hconcerns⟩
      exact hreaches.not_concerns hs hconcerns
  · intro source' dest' t' key data hrow
    by_cases hconcerns : t' = t ∧ Concerns source dest source' dest'
    · obtain ⟨rfl, hchannel⟩ := hconcerns
      rw [hresets.rowAt_eq_none hreaches hchannel] at hrow
      cases hrow
    · rw [hresets.rowAt_of_not_concerns hconcerns] at hrow
      rw [hresets.resetAt, if_neg hconcerns]
      exact h.row source' dest' t' key data hrow

/-- While resets reach what they are about, nothing older than a reset is left. -/
theorem NoneOlder.step {s : Step δ} (h : c.NoneOlder) (hsafe : c.ResetsReach s)
    (hstep : c.step s = .ok c') : c'.NoneOlder := by
  by_cases hquiet : Step.quiet s
  · exact h.of_agrees (agrees_of_quiet hquiet hstep)
  cases s with
  | feed source dest genTime s =>
    rcases eq_or_eq_of_feed hstep with rfl | rfl
    · exact h
    · exact h.feedData
  | handleCachedFeeds volume visited fails =>
    exact handleCachedFeeds_induction (fun _ _ hagrees h => h.of_agrees hagrees)
      (fun _ _ _ _ _ hs hstores h => h.stores hs hstores) hstep h
  | cacheReset source dest t => exact h.resets hsafe (resets_onCacheReset hstep)
  | restart =>
    cases hstep
    exact ⟨h.clock, fun _ _ _ hs => (by cases hs), h.row⟩
  | location | register | deregister | channel | requestCached | handleProfileFeeds =>
    exact absurd rfl hquiet

/-! ## What is fed after a reset -/

/-- A batch replaces rows, but takes none away. -/
theorem isSome_rowAt_stores {t : StateDataType} {uid : UInt64} {s : State (Stamped δ) t}
    (hstores : Stores uid s c c') {source dest : UInt32} {t' : StateDataType}
    {key : PrimaryKey t'} (h : (c.rowAt source dest t' key).isSome) :
    (c'.rowAt source dest t' key).isSome := by
  by_cases hplace : ((source, dest, ⟨t', key⟩) : Place) = (s.source, s.dest, ⟨t, s.data.key⟩)
  · obtain ⟨rfl, rfl, htype⟩ : source = s.source ∧ dest = s.dest ∧
        (⟨t', key⟩ : Σ t, PrimaryKey t) = ⟨t, s.data.key⟩ := by simpa using hplace
    cases htype
    rw [hstores.row]
    rfl
  · rwa [hstores.other source dest t' key hplace]

/-- A row stays, or another one takes its place, until its type is reset in its channel. -/
theorem isSome_rowAt_step {s : Step δ} (hstep : c.step s = .ok c') {source dest : UInt32}
    {t : StateDataType} {key : PrimaryKey t} (h : (c.rowAt source dest t key).isSome)
    (hreset : ∀ source' dest', s = .cacheReset source' dest' t →
      ¬ Concerns source' dest' source dest) : (c'.rowAt source dest t key).isSome := by
  by_cases hquiet : Step.quiet s
  · rwa [(agrees_of_quiet hquiet hstep).rowAt]
  cases s with
  | feed source' dest' genTime s =>
    rcases eq_or_eq_of_feed hstep with rfl | rfl
    · exact h
    · exact h
  | handleCachedFeeds volume visited fails =>
    exact handleCachedFeeds_induction
      (P := fun c => (c.rowAt source dest t key).isSome)
      (fun _ _ hagrees h => by rwa [hagrees.rowAt])
      (fun _ _ _ _ _ _ hstores h => isSome_rowAt_stores hstores h) hstep h
  | cacheReset source' dest' t' =>
    rwa [(resets_onCacheReset hstep).rowAt_of_not_concerns]
    rintro ⟨rfl, hconcerns⟩
    exact hreset source' dest' rfl hconcerns
  | restart =>
    cases hstep
    exact h
  | location | register | deregister | channel | requestCached | handleProfileFeeds =>
    exact absurd rfl hquiet

/-- After a run whose resets reach what they are about, no row was fed before a reset of its
type in its channel, and no location is restored to such a state.  A reset leaves the bank as it
is; and what is stored stays or is replaced until the next reset. -/
theorem cache_reset_final {home : UInt32} {steps : List (Step δ)}
    (hrun : (start home).run steps = .ok c)
    (hsafe : AlongM step ResetsReach (start home) steps) :
    (∀ source dest t (key : PrimaryKey t) data, c.rowAt source dest t key = some data →
      c.resetAt source dest t ≤ data.details.serial) ∧
    (∀ source todayStart c', c.requestCached source = .ok c' →
      ∀ dest (s : Σ t, Data (Stamped δ) t), (dest, s) ∈ c'.restored source todayStart →
        c.resetAt source dest s.1 ≤ s.2.details.serial) ∧
    (∀ source dest t c', c.onCacheReset source dest t = .ok c' → c'.bank = c.bank) ∧
    (∀ s c', c.step s = .ok c' → ∀ source dest t (key : PrimaryKey t),
      (c.rowAt source dest t key).isSome →
      (∀ source' dest', s = .cacheReset source' dest' t → ¬ Concerns source' dest' source dest) →
        (c'.rowAt source dest t key).isSome) := by
  have h : c.NoneOlder :=
    AlongM.foldlM (fun _ _ _ h hsafe hstep => NoneOlder.step h hsafe hstep) hsafe hrun
      (noneOlder_start home)
  refine ⟨h.row, ?_, ?_, ?_⟩
  · intro source todayStart c' hrequest dest s hs
    obtain ⟨hrow, -⟩ := of_mem_restored hs
    rw [(agrees_requestCached hrequest).rowAt] at hrow
    exact h.row source dest s.1 s.2.key s.2 hrow
  · intro source dest t c' hreset
    exact (resets_onCacheReset hreset).bank
  · intro s c' hstep source dest t key hrow hreset
    exact isSome_rowAt_step hstep hrow hreset

/-- The asset is stored, reset, and fed again. -/
def exampleReset : List (Step ℕ) :=
  exampleSteps ++ [.cacheReset 10 77 .Asset, .feed 10 77 2 (exampleAsset 60),
    .handleCachedFeeds 100 (fun _ => []) fun _ _ => false]

/-- The row that is there was fed after the reset. -/
theorem cache_reset_final_example :
    ∃ c data, (start 1).run exampleReset = .ok c ∧
      c.rowAt 10 77 .Asset ((10 : UInt32), ()) = some data ∧ c.resetAt 10 77 .Asset = 1 ∧
      1 ≤ data.details.serial := by
  let key : PrimaryKey .Asset := ((10 : UInt32), ())
  obtain ⟨c, hrun, hafter⟩ := Outcome.exists_of_any
    (show ((start 1).run exampleReset).toOption.any (fun c =>
      (c.rowAt 10 77 .Asset key).isSome && c.resetAt 10 77 .Asset = 1) = true by decide +kernel)
  simp only [Bool.and_eq_true, decide_eq_true_eq] at hafter
  obtain ⟨hrow, hreset⟩ := hafter
  obtain ⟨data, hdata⟩ := Option.isSome_iff_exists.mp hrow
  obtain ⟨hfinal, -⟩ := cache_reset_final hrun (by decide +kernel)
  exact ⟨c, data, hrun, hdata, hreset, hreset ▸ hfinal 10 77 .Asset key data hdata⟩

/-- The asset waits in the bank while it is reset, and is stored afterwards. -/
theorem reset_undone :
    ∃ c data, (start 1).run [.location 10 .TD, .register 10, .feed 10 77 1 (exampleAsset 100),
        .cacheReset 10 77 .Asset, .handleCachedFeeds 100 (fun _ => []) fun _ _ => false] = .ok c ∧
      c.rowAt 10 77 .Asset ((10 : UInt32), ()) = some data ∧
      data.details.serial < c.resetAt 10 77 .Asset := by
  obtain ⟨c, hrun, hafter⟩ := Outcome.exists_of_any
    (show ((start 1).run [.location 10 .TD, .register 10, .feed 10 77 1 (exampleAsset 100),
        .cacheReset 10 77 .Asset,
        .handleCachedFeeds 100 (fun _ => []) fun _ _ => false]).toOption.any (fun c =>
      (c.rowAt 10 77 .Asset ((10 : UInt32), ())).any fun data =>
        data.details.serial < c.resetAt 10 77 .Asset) = true by decide +kernel)
  obtain ⟨data, hdata, hserial⟩ := (Option.any_eq_true ..).mp hafter
  exact ⟨c, data, hrun, hdata, of_decide_eq_true hserial⟩

end Cached

end Kungfu.Cache
