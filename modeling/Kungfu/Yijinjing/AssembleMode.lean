import Kungfu.Yijinjing.Assemble
import Kungfu.Yijinjing.Joins

/-!
# The modes of an assemble

An assemble of one source location joins the journals that its mode selects: each bit of the
mode denotes some of them.  The scan over all locations serves the bits `Read`, `Public`,
`Sync` and `All`, but it runs only if `Read`, `Public` or `All` is set.  So `Sync` joins its
journals in their company and has no effect without them.
-/

namespace Kungfu.Yijinjing

open Outcome

/-- `location::PUBLIC`. -/
def PUBLIC : UInt32 := 0

/-- `location::SYNC`. -/
def SYNC : UInt32 := 1

/-- What a locator lists: the page files, the locations of `list_locations` with wildcards
only, and the dests that `list_location_dest` finds for a location. -/
structure Catalog where
  dirs : Key → Dir
  locations : List UInt32
  dests : UInt32 → List UInt32

/-- A journal that is found in a scan over all locations. -/
def Catalog.Lists (l : Catalog) (k : Key) : Prop :=
  k.location ∈ l.locations ∧ k.dest ∈ l.dests k.location

/-- The bits of `AssembleMode`. -/
inductive AssembleMode
  | channel | write | read | toPublic | sync | all
  deriving DecidableEq, Repr

namespace AssembleMode

def bit : AssembleMode → UInt32
  | channel => 0b00000001
  | write => 0b00000010
  | read => 0b00000100
  | toPublic => 0b00001000
  | sync => 0b00010000
  | all => 0b00100000

/-- `assemble_mode & bit`. -/
def isSet (mode : UInt32) (b : AssembleMode) : Bool := mode &&& b.bit != 0

/-- The journals that a bit denotes, for a source location and a dest. -/
def Denotes (l : Catalog) (source dest : UInt32) (k : Key) : AssembleMode → Prop
  | channel => k = ⟨source, dest⟩
  | write => k.location = source ∧ k.dest ∈ l.dests source
  | read => l.Lists k ∧ k.dest = dest
  | toPublic => l.Lists k ∧ k.dest = PUBLIC
  | sync => l.Lists k ∧ k.dest = SYNC
  | all => l.Lists k

end AssembleMode

namespace Assemble

open AssembleMode

/-! ## The constructor -/

/-- The journal that the scan joins when it comes to dest `d` of a location. -/
def scanned (mode dest location d : UInt32) : Option Key :=
  if all.isSet mode then some ⟨location, d⟩
  else if read.isSet mode ∧ d = dest then some ⟨location, dest⟩
  else if toPublic.isSet mode ∧ d = PUBLIC then some ⟨location, PUBLIC⟩
  else if sync.isSet mode ∧ d = SYNC then some ⟨location, SYNC⟩
  else none

/-- The guard of the scan. -/
def scans (mode : UInt32) : Bool := read.isSet mode || toPublic.isSet mode || all.isSet mode

/-- The journals that the constructor joins, in the order of its calls. -/
def joined (l : Catalog) (source dest mode : UInt32) : List Key :=
  (if channel.isSet mode then [⟨source, dest⟩] else []) ++
  (if write.isSet mode then (l.dests source).map fun d => ⟨source, d⟩ else []) ++
  if scans mode then
    l.locations.flatMap fun location => (l.dests location).filterMap (scanned mode dest location)
  else []

/-- The constructor from a source location, a dest and a mode. -/
def ofMode (env : ℕ → HashOrder × Int64) (now : ℕ → Int64) (l : Catalog)
    (source dest mode : UInt32) (fromTime : Int64) : Except Fault Assemble := do
  let reader ← (Reader.joinKeys env fromTime (joined l source dest mode)
    (l.dirs, Reader.make true false)).mapError Prod.fst
  sort now ⟨[reader], none⟩

/-- A journal that some reader has joined. -/
def Joins (a : Assemble) (k : Key) : Prop := ∃ r ∈ a.readers, k ∈ r.2.keys

/-- The assemble joins exactly what the bits of its mode denote. -/
def Composes (env : ℕ → HashOrder × Int64) (now : ℕ → Int64) (l : Catalog)
    (source dest mode : UInt32) (fromTime : Int64) : Prop :=
  ∃ a, ofMode env now l source dest mode fromTime = .ok a ∧
    ∀ k, a.Joins k ↔ ∃ b : AssembleMode, b.isSet mode ∧ b.Denotes l source dest k

/-! ## What is joined -/

variable {l : Catalog} {source dest mode : UInt32} {k : Key}

/-- The scan joins what its four bits denote, `Sync` included. -/
theorem scanned_eq_some_iff {location d : UInt32} :
    scanned mode dest location d = some k ↔ k = ⟨location, d⟩ ∧
      (all.isSet mode ∨ read.isSet mode ∧ d = dest ∨ toPublic.isSet mode ∧ d = PUBLIC ∨
        sync.isSet mode ∧ d = SYNC) := by
  rw [scanned]
  split_ifs with hall hread hpublic hsync
  · exact ⟨fun h => ⟨(Option.some.inj h).symm, Or.inl hall⟩, fun h => h.1 ▸ rfl⟩
  · obtain ⟨hread, rfl⟩ := hread
    exact ⟨fun h => ⟨(Option.some.inj h).symm, by simp [hread]⟩, fun h => h.1 ▸ rfl⟩
  · obtain ⟨hpublic, rfl⟩ := hpublic
    exact ⟨fun h => ⟨(Option.some.inj h).symm, by simp [hpublic]⟩, fun h => h.1 ▸ rfl⟩
  · obtain ⟨hsync, rfl⟩ := hsync
    exact ⟨fun h => ⟨(Option.some.inj h).symm, by simp [hsync]⟩, fun h => h.1 ▸ rfl⟩
  · exact ⟨(nomatch ·), fun h => by tauto⟩

theorem mem_scan_iff :
    (k ∈ l.locations.flatMap fun location =>
      (l.dests location).filterMap (scanned mode dest location)) ↔
    l.Lists k ∧ (all.isSet mode ∨ read.isSet mode ∧ k.dest = dest ∨
      toPublic.isSet mode ∧ k.dest = PUBLIC ∨ sync.isSet mode ∧ k.dest = SYNC) := by
  simp only [List.mem_flatMap, List.mem_filterMap, scanned_eq_some_iff]
  constructor
  · rintro ⟨location, hlocation, d, hd, rfl, hbit⟩
    exact ⟨⟨hlocation, hd⟩, hbit⟩
  · rintro ⟨⟨hlocation, hd⟩, hbit⟩
    exact ⟨k.location, hlocation, k.dest, hd, rfl, hbit⟩

/-- Every bit has its effect, except that `Sync` needs the company of `Read`, `Public` or
`All`. -/
theorem mem_joined_iff : k ∈ joined l source dest mode ↔
    ∃ b : AssembleMode, b.isSet mode ∧ b.Denotes l source dest k ∧
      (b = sync → scans mode = true) := by
  simp only [joined, List.mem_append]
  constructor
  · rintro ((h | h) | h)
    · split at h
      · exact ⟨channel, ‹_›, List.mem_singleton.mp h, by simp⟩
      · exact absurd h List.not_mem_nil
    · split at h
      · obtain ⟨d, hd, rfl⟩ := List.mem_map.mp h
        exact ⟨write, ‹_›, ⟨rfl, hd⟩, by simp⟩
      · exact absurd h List.not_mem_nil
    · split at h
      · obtain ⟨hlists, hall | ⟨hread, hd⟩ | ⟨hpublic, hd⟩ | ⟨hsync, hd⟩⟩ := mem_scan_iff.mp h
        · exact ⟨all, hall, hlists, by simp⟩
        · exact ⟨read, hread, ⟨hlists, hd⟩, by simp⟩
        · exact ⟨toPublic, hpublic, ⟨hlists, hd⟩, by simp⟩
        · exact ⟨sync, hsync, ⟨hlists, hd⟩, fun _ => ‹_›⟩
      · exact absurd h List.not_mem_nil
  · rintro ⟨b, hset, hdenotes, hsync⟩
    cases b with
    | channel => simp [hset, show k = ⟨source, dest⟩ from hdenotes]
    | write =>
        obtain ⟨rfl, hd⟩ := hdenotes
        exact Or.inl (Or.inr (by rw [if_pos hset]; exact List.mem_map_of_mem hd))
    | read =>
        rw [if_pos (c := scans mode = true) (by simp [scans, hset]), mem_scan_iff]
        exact Or.inr ⟨hdenotes.1, by simp [hset, hdenotes.2]⟩
    | toPublic =>
        rw [if_pos (c := scans mode = true) (by simp [scans, hset]), mem_scan_iff]
        exact Or.inr ⟨hdenotes.1, by simp [hset, hdenotes.2]⟩
    | sync =>
        rw [if_pos (c := scans mode = true) (hsync rfl), mem_scan_iff]
        exact Or.inr ⟨hdenotes.1, by simp [hset, hdenotes.2]⟩
    | all =>
        rw [if_pos (c := scans mode = true) (by simp [scans, hset]), mem_scan_iff]
        exact Or.inr ⟨hdenotes, by simp [hset]⟩

/-- A further bit takes no journal away. -/
theorem joined_mono {mode' : UInt32} (h : ∀ b : AssembleMode, b.isSet mode → b.isSet mode')
    (hk : k ∈ joined l source dest mode) : k ∈ joined l source dest mode' := by
  obtain ⟨b, hset, hdenotes, hsync⟩ := mem_joined_iff.mp hk
  refine mem_joined_iff.mpr ⟨b, h b hset, hdenotes, fun hb => ?_⟩
  have hscans := hsync hb
  simp only [scans, Bool.or_eq_true] at hscans ⊢
  exact hscans.imp (Or.imp (h read) (h toPublic)) (h all)

/-! ## When the bits compose -/

theorem sortFrom_ready {readers : List Reader.State} (H : ∀ r ∈ readers, Reader.Ready r.2)
    (now : ℕ → Int64) (i : ℕ) (bound : Int64 × Option ℕ) :
    ∃ readers' current, sortFrom now i readers bound = .ok (readers', current) ∧
      readers'.map (fun r => r.2.keys) = readers.map fun r => r.2.keys := by
  induction readers generalizing i bound with
  | nil => exact ⟨[], bound.2, rfl, rfl⟩
  | cons r readers ih =>
      obtain ⟨available, r', havail, -, hjournals⟩ := (H r List.mem_cons_self).dataAvailable (now i)
      have hask : (Reader.dataAvailable (now i) r).mapError Prod.fst = .ok (available, r') :=
        mapError_eq_ok.mpr havail
      obtain ⟨readers', current, hloop, hkeys⟩ :=
        ih (fun r hr => H r (List.mem_cons_of_mem _ hr)) (i + 1) (earlier i
          (if available then (Reader.currentFrame r').map fun f => f.2.genTime else none) bound)
      refine ⟨r' :: readers', current, ?_, ?_⟩
      · simp only [sortFrom, headTime, hask, ok_bind, hloop]
      · rw [List.map_cons, List.map_cons, hkeys, Reader.keys, hjournals, Reader.keys]

/-- The constructor completes if all that it joins opens, and nothing else is joined. -/
theorem ofMode_spec (env : ℕ → HashOrder × Int64) (now : ℕ → Int64) {fromTime : Int64}
    (hopen : ∀ k ∈ joined l source dest mode, Opens (l.dirs k) k fromTime) :
    ∃ a, ofMode env now l source dest mode fromTime = .ok a ∧
      ∀ k, a.Joins k ↔ k ∈ joined l source dest mode := by
  obtain ⟨r, hjoin, H, -, hkeys⟩ := Reader.Ready.make.joinKeys
    (s := (l.dirs, Reader.make true false)) env fun k hk => Or.inr (hopen k hk)
  have hask := mapError_eq_ok (g := Prod.fst).mpr hjoin
  have Hall : ∀ r' ∈ [r], Reader.Ready r'.2 := by simpa using H
  obtain ⟨readers, current, hsort, hmap⟩ := sortFrom_ready Hall now 0 (Int64.maxValue, none)
  obtain ⟨r', rfl, hr'⟩ := List.map_eq_singleton_iff.mp hmap
  refine ⟨⟨[r'], current⟩, by rw [ofMode, hask, ok_bind, sort, hsort]; rfl, fun k => ?_⟩
  have hone : Joins ⟨[r'], current⟩ k ↔ k ∈ r'.2.keys := by simp [Joins]
  rw [hone, hr', hkeys]
  simp [Reader.make, Reader.keys]

/-- The bits compose exactly when all that they denote can be opened, and `Sync` is not the
only bit to denote a journal while no scan is made. -/
theorem composes_iff (env : ℕ → HashOrder × Int64) (now : ℕ → Int64) (l : Catalog)
    (source dest mode : UInt32) (fromTime : Int64) :
    Composes env now l source dest mode fromTime ↔
      (∀ b : AssembleMode, b.isSet mode → ∀ k, b.Denotes l source dest k →
        Opens (l.dirs k) k fromTime) ∧
      (sync.isSet mode → scans mode = true ∨ ∀ k, sync.Denotes l source dest k →
        ∃ b : AssembleMode, b ≠ sync ∧ b.isSet mode ∧ b.Denotes l source dest k) := by
  have hall : (∀ k, k ∈ joined l source dest mode ↔
      ∃ b : AssembleMode, b.isSet mode ∧ b.Denotes l source dest k) ↔
      (sync.isSet mode → scans mode = true ∨ ∀ k, sync.Denotes l source dest k →
        ∃ b : AssembleMode, b ≠ sync ∧ b.isSet mode ∧ b.Denotes l source dest k) := by
    constructor
    · intro h hset
      by_cases hscans : scans mode = true
      · exact Or.inl hscans
      refine Or.inr fun k hk => ?_
      obtain ⟨b, hb, hdenotes, hsync⟩ := mem_joined_iff.mp ((h k).mpr ⟨sync, hset, hk⟩)
      exact ⟨b, fun heq => hscans (hsync heq), hb, hdenotes⟩
    · intro h k
      refine mem_joined_iff.trans ⟨fun ⟨b, hb, hdenotes, _⟩ => ⟨b, hb, hdenotes⟩, ?_⟩
      rintro ⟨b, hb, hdenotes⟩
      by_cases hsync : b = sync
      · subst hsync
        rcases h hb with hscans | hother
        · exact ⟨sync, hb, hdenotes, fun _ => hscans⟩
        · obtain ⟨b, hne, hb, hdenotes⟩ := hother k hdenotes
          exact ⟨b, hb, hdenotes, fun heq => absurd heq hne⟩
      · exact ⟨b, hb, hdenotes, fun heq => absurd heq hsync⟩
  rw [← hall]
  constructor
  · rintro ⟨a, hmake, hjoins⟩
    obtain ⟨r, hjoin, -⟩ := exists_of_bind hmake
    have hopen : ∀ k ∈ joined l source dest mode, Opens (l.dirs k) k fromTime := fun k hk =>
      (Reader.Ready.make.opens_of_joinKeys (mapError_eq_ok.mp hjoin) k hk).resolve_left
        (by simp [Reader.make, Reader.keys])
    obtain ⟨a', hmake', hjoins'⟩ := ofMode_spec env now hopen
    obtain rfl : a' = a := Except.ok.inj (hmake'.symm.trans hmake)
    have hmem := fun k => (hjoins' k).symm.trans (hjoins k)
    exact ⟨fun b hb k hk => hopen k ((hmem k).mpr ⟨b, hb, hk⟩), hmem⟩
  · rintro ⟨hopen, hmem⟩
    obtain ⟨a, hmake, hjoins⟩ := ofMode_spec env now fun k hk => by
      obtain ⟨b, hb, hdenotes⟩ := (hmem k).mp hk
      exact hopen b hb k hdenotes
    exact ⟨a, hmake, fun k => (hjoins k).trans (hmem k)⟩

/-- Location 5 has a journal to `SYNC` that opens, and `Sync` alone does not join it. -/
theorem not_composes_sync :
    ∃ d, Incarnation.run (fun _ => 0) .checked 5 SYNC (Dir.empty 200) (.single 10 10 [1]) = .ok d ∧
      Opens d ⟨5, SYNC⟩ 0 ∧
      ¬ Composes (fun _ => (.front, 30)) (fun _ => 30) ⟨fun _ => d, [5], fun _ => [SYNC]⟩
        7 3 sync.bit 0 := by
  have hrun : okAnd (Incarnation.run (fun _ => 0) .checked 5 SYNC (Dir.empty 200)
      (.single 10 10 [1])) (fun d =>
        okAnd (Journal.seekToTime (d, Reader.fresh true ⟨5, SYNC⟩) 0) fun _ => true) = true := by
    decide +kernel
  obtain ⟨d, hd, hseek⟩ := exists_of_okAnd hrun
  obtain ⟨s, hs, -⟩ := exists_of_okAnd hseek
  refine ⟨d, hd, ⟨s, hs⟩, ?_⟩
  rintro ⟨a, hmake, hjoins⟩
  have hnone : joined ⟨fun _ => d, [5], fun _ => [SYNC]⟩ 7 3 sync.bit = [] := rfl
  obtain ⟨a', hmake', hjoins'⟩ := @ofMode_spec ⟨fun _ => d, [5], fun _ => [SYNC]⟩ 7 3 sync.bit
    (fun _ => (.front, 30)) (fun _ => 30) 0 (by simp [hnone])
  obtain rfl : a' = a := Except.ok.inj (hmake'.symm.trans hmake)
  have hjoined := (hjoins ⟨5, SYNC⟩).mpr ⟨sync, rfl, by simp [Denotes, Catalog.Lists]⟩
  rw [hjoins', hnone] at hjoined
  exact absurd hjoined List.not_mem_nil

end Assemble

end Kungfu.Yijinjing
