import Kungfu.Yijinjing.RoundTrip
import Kungfu.Logic.Outcome

/-!
# The assemble

An assemble reads the journals of several locators through one reader each, none of them
in live mode.  Its `sort` asks every reader and keeps the first of those whose current frame
is earliest; the answers of the readers depend on the clock, which is read for each.

What is read here has been written before: every frame is shown and lies in the past of
every clock reading.  Then each reader stands at a position in each of its journals, and a
round of `data_available` and `next` moves one position by one.
-/

namespace Kungfu.Yijinjing

open Memory Merge Outcome

/-- A journal that a locator lists: its key, the clock when it is joined, and where the
reader's hash map puts it. -/
structure Listed where
  key : Key
  now : Int64
  order : HashOrder

/-- The page files of a locator, and the journals that `list_locations` and
`list_location_dest` find in it. -/
structure Locator where
  dirs : Key → Dir
  listed : List Listed

/-- The journals of a locator. -/
def Locator.keys (l : Locator) : List Key := l.listed.map Listed.key

/-- Every journal of a locator is joined from time 0. -/
def Locator.joins (l : Locator) : List Reader.Join :=
  l.listed.map fun e => ⟨e.order, e.now, e.key, 0⟩

/-- Where a round of reading reads the clock; a reader is named by its index. -/
inductive Reading
  /-- In the `sort` of `data_available`. -/
  | sorted (reader : ℕ)
  /-- In the `any_of` of `data_available`. -/
  | asked (reader : ℕ)
  /-- In the constructor of a writer, for its hash. -/
  | started
  /-- In the constructor of a writer, for its seek. -/
  | sought
  /-- In `copy_frame`, as the trigger time of an end mark. -/
  | triggered
  /-- In `close_page`. -/
  | closed
  /-- In `reader::next`. -/
  | moved
  /-- In the `sort` of `next`. -/
  | resorted (reader : ℕ)

/-- An `assemble`: the readers with the page files they read, and the index of
`current_reader_`. -/
structure Assemble where
  readers : List Reader.State
  current : Option ℕ

namespace Assemble

/-! ## Operations -/

/-- The `gen_time` of a reader's current frame, if `data_available`. -/
def headTime (now : Int64) (r : Reader.State) : Except Fault (Option Int64 × Reader.State) := do
  let (available, r) ← (Reader.dataAvailable now r).mapError Prod.fst
  .ok (if available then (Reader.currentFrame r).map fun f => f.2.genTime else none, r)

/-- A reader with an earlier frame becomes the bound and `current_reader_`. -/
def earlier (reader : ℕ) (time : Option Int64) (bound : Int64 × Option ℕ) : Int64 × Option ℕ :=
  match time with
  | some t => if t < bound.1 then (t, some reader) else bound
  | none => bound

/-- The loop of `assemble::sort` from the reader with index `i` on; the bound is `min_time`
with `current_reader_`. -/
def sortFrom (now : ℕ → Int64) : ℕ → List Reader.State → Int64 × Option ℕ →
    Except Fault (List Reader.State × Option ℕ)
  | _, [], bound => .ok ([], bound.2)
  | i, r :: readers, bound => do
      let (time, r) ← headTime (now i) r
      let (readers, current) ← sortFrom now (i + 1) readers (earlier i time bound)
      .ok (r :: readers, current)

/-- `assemble::sort`. -/
def sort (now : ℕ → Int64) (a : Assemble) : Except Fault Assemble := do
  let (readers, current) ← sortFrom now 0 a.readers (Int64.maxValue, a.current)
  .ok ⟨readers, current⟩

/-- The constructor: the journals of every locator are joined by a reader of its own. -/
def make (now : ℕ → Int64) (locators : List Locator) : Except Fault Assemble := do
  let readers ← locators.mapM fun l =>
    (Reader.joinAll l.joins (l.dirs, Reader.make true false)).mapError Prod.fst
  sort now ⟨readers, none⟩

/-- The `any_of` of `data_available`, which asks no further once a reader has data. -/
def anyAvailable (now : ℕ → Int64) : ℕ → List Reader.State →
    Except Fault (Bool × List Reader.State)
  | _, [] => .ok (false, [])
  | i, r :: readers => do
      let (available, r) ← (Reader.dataAvailable (now i) r).mapError Prod.fst
      if available then .ok (true, r :: readers)
      else
        let (available, readers) ← anyAvailable now (i + 1) readers
        .ok (available, r :: readers)

/-- `assemble::data_available`. -/
def dataAvailable (now : Reading → Int64) (a : Assemble) : Except Fault (Bool × Assemble) := do
  let a ← sort (fun i => now (.sorted i)) a
  let (available, readers) ← anyAvailable (fun i => now (.asked i)) 0 a.readers
  .ok (available, { a with readers })

/-- The journal that `current_reader_` stands in, and where its frame is. -/
def currentHead (a : Assemble) : Option (Key × Mem × ℕ) := do
  let i ← a.current
  let r ← a.readers[i]?
  let h ← Reader.currentHead r
  return (h.1, (r.1 h.1).mem h.2.page, h.2.frame)

/-- `current_reader_->next()`, if a reader is selected. -/
def nextCurrent (now : Int64) (a : Assemble) : Except Fault Assemble :=
  match a.current with
  | none => .ok a
  | some i =>
      match a.readers[i]? with
      | none => .error .nullFrame
      | some r => do
          let r ← (Reader.next now r).mapError Prod.fst
          .ok { a with readers := a.readers.set i r }

/-- `assemble::next`. -/
def next (now : Reading → Int64) (a : Assemble) : Except Fault Assemble := do
  let a ← nextCurrent (now .moved) a
  sort (fun i => now (.resorted i)) a

/-! ## Readers at positions -/

variable {P : Key → UInt32} {L : Key → List Frame} {n : Key → ℕ} {keys : List (List Key)}
  {readers : List Reader.State} {r : Reader.State} {k : Key}

/-- A reader stands at the positions `n` of the journals it joined. -/
abbrev ReaderAt (P : Key → UInt32) (L : Key → List Frame) (n : Key → ℕ) (r : Reader.State) :
    Prop :=
  Reader.Tracks {k | k ∈ r.2.keys} P L false n r

/-- The readers joined the journals `keys` and stand at the positions `n`. -/
structure Stands (keys : List (List Key)) (P : Key → UInt32) (L : Key → List Frame)
    (n : Key → ℕ) (readers : List Reader.State) : Prop where
  keys_eq : readers.map (fun r => r.2.keys) = keys
  readerAt : ∀ r ∈ readers, ReaderAt P L n r

/-- The reader's current frame is the one at the position of its current journal. -/
def Selected (L : Key → List Frame) (n : Key → ℕ) (r : Reader.State) : Prop :=
  ∃ k f, r.2.current = some k ∧ (L k)[n k]? = some f

/-- Frames that are shown to a reader whose clock stands at `now`. -/
def Shown (L : Key → List Frame) (now : Int64) (ks : List Key) : Prop :=
  ∀ k ∈ ks, ∀ f ∈ L k, f.hasData = true ∧ f.genTime < now

theorem Stands.nil : Stands [] P L n [] := ⟨rfl, fun _ h => absurd h List.not_mem_nil⟩

theorem Stands.cons (hr : ReaderAt P L n r) (H : Stands keys P L n readers) :
    Stands (r.2.keys :: keys) P L n (r :: readers) := by
  refine ⟨by rw [List.map_cons, H.keys_eq], fun r' hr' => ?_⟩
  rcases List.mem_cons.mp hr' with rfl | hr'
  · exact hr
  · exact H.readerAt r' hr'

/-- What `data_available` of one reader does. -/
theorem ReaderAt.dataAvailable (H : ReaderAt P L n r) {now : Int64} (hshown : Shown L now r.2.keys) :
    ∃ available r', Reader.dataAvailable now r = .ok (available, r') ∧ ReaderAt P L n r' ∧
      r'.2.keys = r.2.keys ∧
      (available = true → ∃ k f, r'.2.current = some k ∧ (L k)[n k]? = some f ∧
        Reader.LeastHead r.2.keys L n k) ∧
      (available = false → ∀ k ∈ r.2.keys, (L k).length ≤ n k) := by
  have hvisible : ∀ k ∈ r.2.keys, ∀ f ∈ L k, f.hasData = true ∧ f.genTime ≤ r.2.minTime now := by
    intro k hk f hf
    have hmin : r.2.minTime now = now := by simp [Reader.minTime, H.wf.liveMode]
    rw [hmin]
    exact ⟨(hshown k hk f hf).1, Int64.le_of_lt (hshown k hk f hf).2⟩
  obtain ⟨available, r', havail, H', hkeys, htrue, hfalse⟩ := H.dataAvailable_visible now hvisible
  exact ⟨available, r', havail, by rwa [ReaderAt, hkeys], hkeys, htrue, hfalse⟩

theorem headTime_spec (H : ReaderAt P L n r) {now : Int64} (hshown : Shown L now r.2.keys) :
    ∃ time r', headTime now r = .ok (time, r') ∧ ReaderAt P L n r' ∧ r'.2.keys = r.2.keys ∧
      (time = none → ∀ k ∈ r.2.keys, (L k).length ≤ n k) ∧
      ∀ t, time = some t → Selected L n r' ∧
        ∀ k ∈ r.2.keys, ∀ f, (L k)[n k]? = some f → t ≤ f.genTime := by
  obtain ⟨available, r', havail, H', hkeys, htrue, hfalse⟩ := H.dataAvailable hshown
  have hask : (Reader.dataAvailable now r).mapError Prod.fst = .ok (available, r') :=
    mapError_eq_ok.mpr havail
  refine ⟨_, r', by rw [headTime, hask]; rfl, H', hkeys, ?_⟩
  cases available with
  | false => exact ⟨fun _ => hfalse rfl, fun t ht => nomatch ht⟩
  | true =>
      obtain ⟨k, f, hcur, hf, hleast⟩ := htrue rfl
      have htime : (Reader.currentFrame r').map (fun f => f.2.genTime) = some f.genTime := by
        rw [H'.currentFrame_eq hcur hf]
        rfl
      simp only [if_true, htime]
      refine ⟨(nomatch ·), fun t ht => ⟨⟨k, f, hcur, hf⟩, fun k' hk' f' hf' => ?_⟩⟩
      rw [← Option.some.inj ht]
      exact hleast.least k' hk' f f' hf hf'

/-- Either no reader has a frame before the bound, or one that has a frame is selected. -/
theorem sortFrom_spec (H : Stands keys P L n readers) {now : ℕ → Int64}
    (hshown : ∀ i, ∀ ks ∈ keys, Shown L (now i) ks) (i : ℕ) (bound : Int64 × Option ℕ) :
    ∃ readers' current, sortFrom now i readers bound = .ok (readers', current) ∧
      Stands keys P L n readers' ∧
      ((current = bound.2 ∧ ∀ ks ∈ keys, ∀ k ∈ ks, ∀ f, (L k)[n k]? = some f →
          bound.1 ≤ f.genTime) ∨
        ∃ j r, current = some (i + j) ∧ readers'[j]? = some r ∧ Selected L n r) := by
  induction readers generalizing i keys bound with
  | nil =>
      obtain rfl : [] = keys := H.keys_eq
      exact ⟨[], bound.2, rfl, H, Or.inl ⟨rfl, fun _ h => absurd h List.not_mem_nil⟩⟩
  | cons r readers ih =>
      obtain rfl : r.2.keys :: readers.map (fun r => r.2.keys) = keys := H.keys_eq
      have Hrest : Stands (readers.map fun r => r.2.keys) P L n readers :=
        ⟨rfl, fun r' hr' => H.readerAt r' (List.mem_cons_of_mem r hr')⟩
      obtain ⟨time, r', hhead, Hr, hkeys, hnone, hsome⟩ :=
        headTime_spec (H.readerAt r List.mem_cons_self) (hshown i _ List.mem_cons_self)
      obtain ⟨readers', current, hloop, H', hcases⟩ := ih Hrest
        (fun j ks hks => hshown j ks (List.mem_cons_of_mem _ hks)) (i + 1) (earlier i time bound)
      refine ⟨r' :: readers', current, ?_, hkeys ▸ H'.cons Hr, ?_⟩
      · simp only [sortFrom, hhead, ok_bind, hloop]
      rcases hcases with ⟨rfl, hlate⟩ | ⟨j, r'', rfl, hj, hsel⟩
      · cases time with
        | none =>
            refine Or.inl ⟨rfl, fun ks hks k hk f hf => ?_⟩
            rcases List.mem_cons.mp hks with rfl | hks
            · rw [List.getElem?_eq_none (hnone rfl k hk)] at hf
              exact nomatch hf
            · exact hlate ks hks k hk f hf
        | some t =>
            obtain ⟨hsel, hleast⟩ := hsome t rfl
            by_cases ht : t < bound.1
            · exact Or.inr ⟨0, r', by rw [earlier, if_pos ht, Nat.add_zero], rfl, hsel⟩
            · rw [earlier, if_neg ht] at hlate ⊢
              refine Or.inl ⟨rfl, fun ks hks k hk f hf => ?_⟩
              rcases List.mem_cons.mp hks with rfl | hks
              · exact Int64.le_trans (Int64.not_lt.mp ht) (hleast k hk f hf)
              · exact hlate ks hks k hk f hf
      · exact Or.inr ⟨j + 1, r'', by rw [Nat.add_assoc, Nat.add_comm 1], hj, hsel⟩

/-- The current reader has a frame, unless every journal was read to its end. -/
def Current (keys : List (List Key)) (L : Key → List Frame) (n : Key → ℕ) (a : Assemble) : Prop :=
  (∃ i r, a.current = some i ∧ a.readers[i]? = some r ∧ Selected L n r) ∨
    ∀ ks ∈ keys, ∀ k ∈ ks, (L k).length ≤ n k

theorem sort_spec {a : Assemble} (H : Stands keys P L n a.readers) {now : ℕ → Int64}
    (hshown : ∀ i, ∀ ks ∈ keys, Shown L (now i) ks) :
    ∃ a', sort now a = .ok a' ∧ Stands keys P L n a'.readers ∧ Current keys L n a' := by
  obtain ⟨readers', current, hloop, H', hcases⟩ :=
    sortFrom_spec H hshown 0 (Int64.maxValue, a.current)
  refine ⟨⟨readers', current⟩, by rw [sort, hloop]; rfl, H', ?_⟩
  rcases hcases with ⟨-, hlate⟩ | ⟨j, r, hcur, hj, hsel⟩
  · refine Or.inr fun ks hks k hk => Nat.le_of_not_lt fun hlt => ?_
    -- a frame in the past of a clock is not at the end of time
    have hpast := (hshown 0 ks hks k hk _ (List.getElem_mem hlt)).2
    have hle := hlate ks hks k hk _ (List.getElem?_eq_getElem hlt)
    exact Int64.not_lt.mpr (Int64.le_maxValue (now 0)) (Int64.lt_of_le_of_lt hle hpast)
  · exact Or.inl ⟨j, r, by rw [hcur, Nat.zero_add], hj, hsel⟩

theorem anyAvailable_spec (H : Stands keys P L n readers) {now : ℕ → Int64}
    (hshown : ∀ i, ∀ ks ∈ keys, Shown L (now i) ks) (i : ℕ) :
    ∃ available readers', anyAvailable now i readers = .ok (available, readers') ∧
      Stands keys P L n readers' ∧
      (available = true → ∃ ks ∈ keys, ∃ k ∈ ks, n k < (L k).length) ∧
      (available = false → ∀ ks ∈ keys, ∀ k ∈ ks, (L k).length ≤ n k) ∧
      ∀ (j : ℕ) (r : Reader.State), readers[j]? = some r → Selected L n r →
        ∃ r', readers'[j]? = some r' ∧ Selected L n r' := by
  induction readers generalizing i keys with
  | nil =>
      obtain rfl : [] = keys := H.keys_eq
      exact ⟨false, [], rfl, H, (nomatch ·), fun _ _ h => absurd h List.not_mem_nil,
        fun _ r hr hsel => ⟨r, hr, hsel⟩⟩
  | cons r readers ih =>
      obtain rfl : r.2.keys :: readers.map (fun r => r.2.keys) = keys := H.keys_eq
      have Hrest : Stands (readers.map fun r => r.2.keys) P L n readers :=
        ⟨rfl, fun r' hr' => H.readerAt r' (List.mem_cons_of_mem r hr')⟩
      have Hr := H.readerAt r List.mem_cons_self
      obtain ⟨available, r', havail, Hr', hkeys, htrue, hfalse⟩ :=
        Hr.dataAvailable (hshown i _ List.mem_cons_self)
      have hask : (Reader.dataAvailable (now i) r).mapError Prod.fst = .ok (available, r') :=
        mapError_eq_ok.mpr havail
      rw [anyAvailable, hask, ok_bind]
      cases available with
      | true =>
          obtain ⟨k, f, hcur, hf, hleast⟩ := htrue rfl
          refine ⟨true, r' :: readers, rfl, hkeys ▸ Hrest.cons Hr', fun _ => ?_,
            (nomatch ·), fun j r₁ hj hsel => ?_⟩
          · exact ⟨_, List.mem_cons_self, k, hleast.joined, (List.getElem?_eq_some_iff.mp hf).1⟩
          · cases j with
            | zero => exact ⟨r', rfl, k, f, hcur, hf⟩
            | succ j => exact ⟨r₁, hj, hsel⟩
      | false =>
          obtain ⟨available, readers', hloop, H', hmore, hdone, hkeep⟩ := ih Hrest
            (fun j ks hks => hshown j ks (List.mem_cons_of_mem _ hks)) (i + 1)
          refine ⟨available, r' :: readers', ?_, hkeys ▸ H'.cons Hr', fun h => ?_, fun h => ?_,
            fun j r₁ hj hsel => ?_⟩
          · simp only [Bool.false_eq_true, if_false, hloop]
            rfl
          · obtain ⟨ks, hks, hlt⟩ := hmore h
            exact ⟨ks, List.mem_cons_of_mem _ hks, hlt⟩
          · intro ks hks
            rcases List.mem_cons.mp hks with rfl | hks
            · exact hfalse rfl
            · exact hdone h ks hks
          · cases j with
            | zero =>
                obtain rfl : r = r₁ := Option.some.inj hj
                obtain ⟨k, f, hcur, hf⟩ := hsel
                have hend := hfalse rfl k (Hr.wf.current k hcur)
                exact absurd (List.getElem?_eq_some_iff.mp hf).1 (Nat.not_lt.mpr hend)
            | succ j => exact hkeep j r₁ hj hsel

/-- If `data_available`, the current reader has a frame; if not, every journal was read. -/
theorem dataAvailable_spec {a : Assemble} (H : Stands keys P L n a.readers)
    {now : Reading → Int64} (hshown : ∀ reading, ∀ ks ∈ keys, Shown L (now reading) ks) :
    ∃ available a', dataAvailable now a = .ok (available, a') ∧ Stands keys P L n a'.readers ∧
      (available = true → ∃ i r, a'.current = some i ∧ a'.readers[i]? = some r ∧ Selected L n r) ∧
      (available = false → ∀ ks ∈ keys, ∀ k ∈ ks, (L k).length ≤ n k) := by
  obtain ⟨a₁, hsort, H₁, hcur⟩ := sort_spec H fun i => hshown (.sorted i)
  obtain ⟨available, readers', hask, H₂, hmore, hdone, hkeep⟩ :=
    anyAvailable_spec H₁ (fun i => hshown (.asked i)) 0
  refine ⟨available, ⟨readers', a₁.current⟩, ?_, H₂, fun h => ?_, hdone⟩
  · simp only [dataAvailable, hsort, ok_bind, hask]
  · rcases hcur with ⟨i, r, hi, hr, hsel⟩ | hend
    · obtain ⟨r', hr', hsel'⟩ := hkeep i r hr hsel
      exact ⟨i, r', hi, hr', hsel'⟩
    · obtain ⟨ks, hks, k, hk, hlt⟩ := hmore h
      exact absurd hlt (Nat.not_lt.mpr (hend ks hks k hk))

/-- No journal is read by two readers. -/
theorem index_eq_of_mem {ks ks' : List Key} {i j : ℕ} (hnodup : keys.flatten.Nodup)
    (hi : keys[i]? = some ks) (hj : keys[j]? = some ks') (hk : k ∈ ks) (hk' : k ∈ ks') : i = j := by
  have hdisjoint := List.pairwise_iff_getElem.mp (List.nodup_flatten.mp hnodup).2
  obtain ⟨hi', rfl⟩ := List.getElem?_eq_some_iff.mp hi
  obtain ⟨hj', rfl⟩ := List.getElem?_eq_some_iff.mp hj
  rcases Nat.lt_trichotomy i j with hlt | heq | hgt
  · exact absurd hk' (hdisjoint i j hi' hj' hlt hk)
  · exact heq
  · exact absurd hk (hdisjoint j i hj' hi' hgt hk')

/-- One reader moves on in one journal. -/
theorem Stands.set (H : Stands keys P L n readers) (hnodup : keys.flatten.Nodup) {i : ℕ}
    (hr : readers[i]? = some r) (hk : k ∈ r.2.keys) {r' : Reader.State}
    (Hr' : ReaderAt P L (advance n k) r') (hkeys : r'.2.keys = r.2.keys) :
    Stands keys P L (advance n k) (readers.set i r') := by
  have hmap : ∀ {j : ℕ} {r : Reader.State}, readers[j]? = some r → keys[j]? = some r.2.keys := by
    intro j r hj
    rw [← H.keys_eq, List.getElem?_map, hj, Option.map_some]
  constructor
  · have hsame : keys.set i r.2.keys = keys := by
      obtain ⟨hi, hget⟩ := List.getElem?_eq_some_iff.mp (hmap hr)
      rw [← hget, List.set_getElem_self]
    rw [List.map_set, H.keys_eq, hkeys, hsame]
  · intro r'' hr''
    obtain ⟨j, hj⟩ := List.mem_iff_getElem?.mp hr''
    rw [List.getElem?_set] at hj
    by_cases hij : i = j
    · subst hij
      rw [if_pos rfl, if_pos (List.getElem?_eq_some_iff.mp hr).1] at hj
      exact Option.some.inj hj ▸ Hr'
    · rw [if_neg hij] at hj
      refine (H.readerAt r'' (List.mem_of_getElem? hj)).congr fun k' hk' => advance_of_ne n ?_
      rintro rfl
      exact hij (index_eq_of_mem hnodup (hmap hr) (hmap hj) hk hk')

/-- `next` moves the current reader by one frame. -/
theorem next_spec {a : Assemble} (H : Stands keys P L n a.readers) (hnodup : keys.flatten.Nodup)
    {now : Reading → Int64} (hshown : ∀ reading, ∀ ks ∈ keys, Shown L (now reading) ks) {i : ℕ}
    (hi : a.current = some i) (hr : a.readers[i]? = some r) (hk : r.2.current = some k)
    (hlt : n k < (L k).length) :
    ∃ a', next now a = .ok a' ∧ Stands keys P L (advance n k) a'.readers := by
  have Hr := H.readerAt r (List.mem_of_getElem? hr)
  obtain ⟨r', hnext, Hr', hkeys⟩ := Hr.next hk hlt (now .moved)
  have hmove : (Reader.next (now .moved) r).mapError Prod.fst = .ok r' := mapError_eq_ok.mpr hnext
  have H' := H.set hnodup hr (Hr.wf.current k hk) (by rwa [ReaderAt, hkeys]) hkeys
  obtain ⟨a', hsort, H'', -⟩ := sort_spec (a := { a with readers := a.readers.set i r' }) H'
    fun i => hshown (.resorted i)
  refine ⟨a', ?_, H''⟩
  have hcurrent : nextCurrent (now .moved) a = .ok { a with readers := a.readers.set i r' } := by
    simp only [nextCurrent, hi, hr, hmove, ok_bind]
  rw [next, hcurrent, ok_bind, hsort]

/-- The journals of one locator are joined at their first frames. -/
theorem joinAll_spec {l : Locator} (hnodup : l.keys.Nodup)
    (hholds : ∀ k ∈ l.keys, (l.dirs k).Holds (P k) (L k))
    (hpos : ∀ k ∈ l.keys, ∀ f ∈ L k, 0 < f.genTime) :
    ∃ r, Reader.joinAll l.joins (l.dirs, Reader.make true false) = .ok r ∧
      ReaderAt P L (fun _ => 0) r ∧ r.2.keys.Perm l.keys := by
  have hkeys : l.joins.map Reader.Join.key = l.keys := by
    rw [Locator.joins, Locator.keys, List.map_map]
    rfl
  have hmem : ∀ j ∈ l.joins, j.key ∈ l.keys := fun j hj => hkeys ▸ List.mem_map_of_mem hj
  obtain ⟨r, n, hjoin, H, hr, hn, -⟩ := (Reader.tracks_make (W := {k | k ∈ l.keys}) hholds true
    false).joinAll hmem (hkeys.symm ▸ hnodup) fun j _ => by simp [Reader.make, Reader.keys]
  have hr' : ∀ k, k ∈ r.2.keys ↔ k ∈ l.keys := by
    intro k
    rw [hr, hkeys]
    simp [Reader.make, Reader.keys]
  have hzero : ∀ k ∈ r.2.keys, 0 = n k := by
    intro k hk
    rw [hr', ← hkeys] at hk
    obtain ⟨j, hj, rfl⟩ := List.mem_map.mp hk
    obtain ⟨e, he, rfl⟩ := List.mem_map.mp hj
    have hkey := hmem _ hj
    rw [hn _ hj, seekIndex_zero (hholds _ hkey) (openAtZero_of_pos (hpos _ hkey))
      fun f hf => hpos _ hkey f (List.mem_of_mem_head? hf)]
  have hset : {k | k ∈ l.keys} = {k | k ∈ r.2.keys} := Set.ext fun k => (hr' k).symm
  rw [hset] at H
  exact ⟨r, hjoin, H.congr hzero, (List.perm_ext_iff_of_nodup H.wf.nodup hnodup).mpr hr'⟩

/-- The constructor puts the readers at the first frames of all journals. -/
theorem make_spec {locators : List Locator} (hnodup : (locators.flatMap Locator.keys).Nodup)
    (hholds : ∀ l ∈ locators, ∀ k ∈ l.keys, (l.dirs k).Holds (P k) (L k))
    (hpos : ∀ k ∈ locators.flatMap Locator.keys, ∀ f ∈ L k, 0 < f.genTime) {now : ℕ → Int64}
    (hshown : ∀ i, Shown L (now i) (locators.flatMap Locator.keys)) :
    ∃ a keys, make now locators = .ok a ∧ Stands keys P L (fun _ => 0) a.readers ∧
      keys.flatten.Perm (locators.flatMap Locator.keys) := by
  have hreaders : ∃ readers keys, (locators.mapM fun l => (Reader.joinAll l.joins
      (l.dirs, Reader.make true false)).mapError Prod.fst) = .ok readers ∧
      Stands keys P L (fun _ => 0) readers ∧
      keys.flatten.Perm (locators.flatMap Locator.keys) := by
    clear hshown
    induction locators with
    | nil => exact ⟨[], [], rfl, Stands.nil, List.Perm.nil⟩
    | cons l locators ih =>
        rw [List.flatMap_cons] at hnodup hpos
        obtain ⟨r, hjoin, Hr, hperm⟩ := joinAll_spec (List.nodup_append.mp hnodup).1
          (hholds l List.mem_cons_self) fun k hk => hpos k (List.mem_append_left _ hk)
        have hask : (Reader.joinAll l.joins (l.dirs, Reader.make true false)).mapError Prod.fst =
            .ok r := mapError_eq_ok.mpr hjoin
        obtain ⟨readers, keys, hrest, H, hperms⟩ := ih (List.nodup_append.mp hnodup).2.1
          (fun l' hl' => hholds l' (List.mem_cons_of_mem l hl'))
          fun k hk => hpos k (List.mem_append_right _ hk)
        refine ⟨r :: readers, r.2.keys :: keys, ?_, H.cons Hr, ?_⟩
        · rw [List.mapM_cons, hask, ok_bind, hrest]
          rfl
        · rw [List.flatten_cons, List.flatMap_cons]
          exact hperm.append hperms
  obtain ⟨readers, keys, hjoins, H, hperm⟩ := hreaders
  have hshown' : ∀ i, ∀ ks ∈ keys, Shown L (now i) ks := fun i ks hks k hk =>
    hshown i k (hperm.mem_iff.mp (List.mem_flatten.mpr ⟨ks, hks, hk⟩))
  obtain ⟨a, hsort, H', -⟩ := sort_spec (a := ⟨readers, none⟩) H hshown'
  exact ⟨a, keys, by rw [make, hjoins, ok_bind, hsort], H', hperm⟩

end Assemble

end Kungfu.Yijinjing
