import Kungfu.Yijinjing.Selection
import Kungfu.Yijinjing.Landing

/-!
# A reader over journals that are held

When the directories hold journals `L k`, the state of a reader is a position in each
joined journal.  `Tracks` is that correspondence; under it the reader's operations are the
operations of `Merge` on lists: a join starts at the index its seek reaches, `sort` picks
a least head, and `next` advances one position by one.
-/

namespace Kungfu.Yijinjing

open Merge

namespace Reader

variable {W : Set Key} {P : Key → UInt32} {L : Key → List Frame} {n : Key → ℕ} {live : Bool}
  {s : State} {k : Key}

/-- The directories of the keys in `W` hold the journals `L`, the reader joined some of them
and stands at position `n k` of each journal `k` it joined. -/
structure Tracks (W : Set Key) (P : Key → UInt32) (L : Key → List Frame) (live : Bool)
    (n : Key → ℕ) (s : State) : Prop where
  wf : Wf live s.2
  holds : ∀ k ∈ W, (s.1 k).Holds (P k) (L k)
  joined : ∀ k ∈ s.2.keys, k ∈ W
  cursor : ∀ e ∈ s.2.journals, e.2.cursor = some (endCursor ((L e.1).take (n e.1)))
  le : ∀ k ∈ s.2.keys, n k ≤ (L k).length

namespace Tracks

theorem positioned (H : Tracks W P L live n s) : Positioned s.2 := by
  intro e he
  rw [H.cursor e he]
  rfl

/-- The heads of the reader are the next frames of the journals. -/
theorem mem_heads_iff (H : Tracks W P L live n s) {t : Int64} :
    (k, t) ∈ heads s ↔
      k ∈ s.2.keys ∧ ∃ f, (L k)[n k]? = some f ∧ f.hasData = true ∧ f.genTime = t := by
  have hentry : ∀ e ∈ s.2.journals, ∀ t, headOf s.1 e = some (e.1, t) ↔
      ∃ f, (L e.1)[n e.1]? = some f ∧ f.hasData = true ∧ f.genTime = t := by
    intro e he t
    have hkey : e.1 ∈ s.2.keys := List.mem_map.mpr ⟨e, he, rfl⟩
    have hdir := H.holds e.1 (H.joined e.1 hkey)
    rw [headOf, H.cursor e he]
    simp only [hdir.hasData (n e.1)]
    rcases Nat.lt_or_ge (n e.1) (L e.1).length with hlt | hge
    · have htime := (hdir.frameAt hlt).2.genTime
      rw [List.getElem?_eq_getElem hlt, Option.any_some, htime]
      by_cases hdata : (L e.1)[n e.1].hasData = true
      · simp [hdata]
      · simp [hdata]
    · simp [List.getElem?_eq_none hge]
  constructor
  · intro hmem
    obtain ⟨e, he, hhead⟩ := List.mem_filterMap.mp hmem
    obtain rfl : k = e.1 := headOf_fst hhead
    exact ⟨List.mem_map.mpr ⟨e, he, rfl⟩, (hentry e he t).mp hhead⟩
  · rintro ⟨hk, hf⟩
    obtain ⟨e, he, rfl⟩ := List.mem_map.mp hk
    exact List.mem_filterMap.mpr ⟨e, he, (hentry e he t).mpr hf⟩

/-- The selected journal's head stands at the journal's position, where its next frame is. -/
theorem currentHead_spec (H : Tracks W P L live n s) (hcur : s.2.current = some k)
    {f : Frame} (hf : (L k)[n k]? = some f) :
    currentHead s = some (k, endCursor ((L k).take (n k))) ∧
      FrameAt ((s.1 k).mem (endCursor ((L k).take (n k))).page)
        (endCursor ((L k).take (n k))).frame f := by
  obtain ⟨e, he, rfl⟩ := List.mem_map.mp (H.wf.current k hcur)
  have hkey : e.1 ∈ s.2.keys := List.mem_map.mpr ⟨e, he, rfl⟩
  have hlook : s.2.journals.lookup e.1 = some e.2 := lookup_of_mem H.wf.nodup he
  obtain ⟨hlt, rfl⟩ := List.getElem?_eq_some_iff.mp hf
  exact ⟨by simp [currentHead, hcur, hlook, H.cursor e he],
    ((H.holds e.1 (H.joined e.1 hkey)).frameAt hlt).2⟩

/-- `current_frame` reads the frame at the position of the selected journal. -/
theorem currentFrame_eq (H : Tracks W P L live n s) (hcur : s.2.current = some k)
    {f : Frame} (hf : (L k)[n k]? = some f) : currentFrame s = some (k, f) := by
  obtain ⟨hhead, hat⟩ := H.currentHead_spec hcur hf
  simp [currentFrame, hhead, hat.read_eq]

/-- A sort changes the selection only. -/
theorem sort (H : Tracks W P L live n s) (now : Int64) :
    ∃ s', Reader.sort now s = .ok s' ∧ Tracks W P L live n s' ∧ s'.1 = s.1 ∧
      s'.2.journals = s.2.journals ∧
      s'.2.current = pick (heads s) (s.2.minTime now) s.2.current := by
  have hwf := H.wf.sort now
  rw [sort_ok H.positioned] at hwf
  exact ⟨_, sort_ok H.positioned now, ⟨hwf, H.holds, H.joined, H.cursor, H.le⟩, rfl, rfl, rfl⟩

/-- Only the positions of joined journals matter. -/
theorem congr (H : Tracks W P L live n s) {n' : Key → ℕ} (hn : ∀ k ∈ s.2.keys, n' k = n k) :
    Tracks W P L live n' s := by
  refine ⟨H.wf, H.holds, H.joined, fun e he => ?_, fun k hk => ?_⟩
  · rw [hn e.1 (List.mem_map_of_mem (f := Prod.fst) he)]
    exact H.cursor e he
  · rw [hn k hk]
    exact H.le k hk

/-- Some journals are taken away and the selection is reset. -/
theorem restrict (H : Tracks W P L live n s) {js : List (Key × Journal)}
    (hjs : js.Sublist s.2.journals) :
    Tracks W P L live n (s.1, { s.2 with current := none, journals := js }) := by
  have hkeys : (js.map Prod.fst).Sublist s.2.keys := hjs.map Prod.fst
  exact ⟨⟨H.wf.nodup.sublist hkeys, fun _ h => absurd h (by simp), H.wf.liveMode⟩, H.holds,
    fun k hk => H.joined k (hkeys.subset hk), fun e he => H.cursor e (hjs.subset he),
    fun k hk => H.le k (hkeys.subset hk)⟩

/-- Other processes append to the journals. -/
theorem append (H : Tracks W P L live n s) {dirs : Key → Dir} {L' : Key → List Frame}
    (hdirs : ∀ k ∈ W, (dirs k).Holds (P k) (L' k)) (hL : ∀ k ∈ W, L k <+: L' k) :
    Tracks W P L' live n (dirs, s.2) := by
  refine ⟨H.wf, hdirs, H.joined, fun e he => ?_, fun k hk => ?_⟩
  · have hkey : e.1 ∈ s.2.keys := List.mem_map_of_mem (f := Prod.fst) he
    obtain ⟨M, hM⟩ := hL e.1 (H.joined e.1 hkey)
    rw [← hM, List.take_append_of_le_length (H.le e.1 hkey)]
    exact H.cursor e he
  · exact Nat.le_trans (H.le k hk) (hL k (H.joined k hk)).length_le

/-- Replacing the object of a joined journal. -/
theorem set (H : Tracks W P L live n s) (hk : k ∈ s.2.keys) {d : Dir} {j : Journal} {i : ℕ}
    (hd : d.Holds (P k) (L k)) (hj : j.cursor = some (endCursor ((L k).take i)))
    (hi : i ≤ (L k).length) :
    Tracks W P L live (Function.update n k i) (Reader.set s k d j) := by
  refine ⟨H.wf.set k d j, fun k' hk' => ?_, fun k' hk' => ?_, fun e he => ?_, fun k' hk' => ?_⟩
  · by_cases h : k' = k
    · subst h
      simpa [Reader.set] using hd
    · simpa [Reader.set, h] using H.holds k' hk'
  · exact H.joined k' (by simpa using hk')
  · obtain ⟨e', he', rfl⟩ := List.mem_map.mp he
    by_cases h : e'.1 = k
    · simp [h, hj]
    · simp [h, H.cursor e' he']
  · by_cases h : k' = k
    · subst h
      simpa using hi
    · simpa [h] using H.le k' (by simpa using hk')

/-- `current_->next()` advances the position of the selected journal. -/
theorem nextCurrent (H : Tracks W P L live n s) (hcur : s.2.current = some k)
    (hlt : n k < (L k).length) :
    ∃ s', Reader.nextCurrent s = .ok s' ∧ Tracks W P L live (advance n k) s' ∧
      s'.2.keys = s.2.keys ∧ s'.2.current = s.2.current := by
  obtain ⟨e, he, rfl⟩ := List.mem_map.mp (H.wf.current k hcur)
  have hkey : e.1 ∈ s.2.keys := List.mem_map.mpr ⟨e, he, rfl⟩
  have hlook : s.2.journals.lookup e.1 = some e.2 := lookup_of_mem H.wf.nodup he
  obtain ⟨d, hnext, hd⟩ := (H.holds e.1 (H.joined e.1 hkey)).next hlt e.2 (H.cursor e he)
  refine ⟨Reader.set s e.1 d { e.2 with cursor := some (endCursor ((L e.1).take (n e.1 + 1))) },
    ?_, H.set hkey hd rfl hlt, keys_set s e.1 d _, rfl⟩
  rw [Reader.nextCurrent, hcur]
  simp only [onJournal, hlook, hnext]

/-- `reader::next`. -/
theorem next (H : Tracks W P L live n s) (hcur : s.2.current = some k)
    (hlt : n k < (L k).length) (now : Int64) :
    ∃ s', Reader.next now s = .ok s' ∧ Tracks W P L live (advance n k) s' ∧
      s'.2.keys = s.2.keys := by
  obtain ⟨s₁, hnext, H₁, hkeys, -⟩ := H.nextCurrent hcur hlt
  obtain ⟨s₂, hsort, H₂, -, hjournals, -⟩ := H₁.sort now
  refine ⟨s₂, ?_, H₂, ?_⟩
  · rw [Reader.next, hnext]
    exact hsort
  · rw [← hkeys, keys, keys, hjournals]

/-- A join of a journal that was not joined positions it where its seek lands. -/
theorem join (H : Tracks W P L live n s) (hk : k ∈ W) (hnew : k ∉ s.2.keys) (order : HashOrder)
    (now fromTime : Int64) :
    ∃ s', Reader.join order now k fromTime s = .ok s' ∧
      Tracks W P L live (Function.update n k (seekIndex (P k) fromTime (L k))) s' ∧
      s'.2.keys.Perm (k :: s.2.keys) := by
  obtain ⟨d, hseek, hd⟩ := (H.holds k hk).seekToTime_spec fromTime
    (Journal.make k.location k.dest false s.2.lazy)
  have hlook := lookup_emplace H.wf order hnew
  have hnone : ¬ (s.2.journals.lookup k).isSome = true := mt lookup_isSome_iff.mp hnew
  set j : Journal := { Journal.make k.location k.dest false s.2.lazy with
    cursor := some (endCursor ((L k).take (seekIndex (P k) fromTime (L k)))) } with hj
  -- the entry that was inserted is replaced by the positioned one
  have hperm := keys_emplace order k s
  have H₁ : Tracks W P L live (Function.update n k (seekIndex (P k) fromTime (L k)))
      (Reader.set (emplace order k s) k d j) := by
    refine ⟨(H.wf.emplace order hnew).set k d j, fun k' hk' => ?_, fun k' hk' => ?_,
      fun e he => ?_, fun k' hk' => ?_⟩
    · by_cases h : k' = k
      · subst h
        simpa [Reader.set] using hd
      · simpa [Reader.set, emplace, h] using H.holds k' hk'
    · rw [keys_set] at hk'
      rcases List.mem_cons.mp (hperm.mem_iff.mp hk') with rfl | hk'
      · exact hk
      · exact H.joined k' hk'
    · obtain ⟨e', he', rfl⟩ := List.mem_map.mp he
      by_cases h : e'.1 = k
      · simp [h, hj]
      · rcases List.mem_cons.mp ((order.perm _).mem_iff.mp he') with rfl | he'
        · exact absurd rfl h
        · simp [h, H.cursor e' he']
    · rw [keys_set] at hk'
      by_cases h : k' = k
      · subst h
        simpa using seekIndex_le (P k') fromTime (L k')
      · rcases List.mem_cons.mp (hperm.mem_iff.mp hk') with rfl | hk'
        · exact absurd rfl h
        · simpa [h] using H.le k' hk'
  have hinsert : Reader.insert order k fromTime s =
      .ok (Reader.set (emplace order k s) k d j) := by
    have hdir : (emplace order k s).1 k = s.1 k := rfl
    rw [Reader.insert, if_neg hnone, onJournal, hlook]
    simp only [hdir, hseek]
  have hkeys : (Reader.set (emplace order k s) k d j).2.keys.Perm (k :: s.2.keys) := by
    rw [keys_set]
    exact hperm
  rw [Reader.join, hinsert]
  simp only [bind, Except.bind]
  split
  · obtain ⟨s₂, hsort, H₂, -, hjournals, -⟩ := H₁.sort now
    refine ⟨s₂, hsort, H₂, ?_⟩
    rw [keys, hjournals]
    exact hkeys
  · exact ⟨_, rfl, H₁, hkeys⟩

/-- What `data_available` answers and selects: the old selection if it is kept, or a least
head within the bound. -/
theorem dataAvailable (H : Tracks W P L live n s) (now : Int64) :
    ∃ available s', Reader.dataAvailable now s = .ok (available, s') ∧
      Tracks W P L live n s' ∧ s'.2.journals = s.2.journals ∧
      s'.2.current = pick (heads s) (s.2.minTime now) s.2.current ∧
      (available = true ↔ ∃ k f, s'.2.current = some k ∧ (L k)[n k]? = some f ∧
        f.hasData = true) := by
  obtain ⟨s', hsort, H', -, hjournals, hcur⟩ := H.sort now
  obtain ⟨available, havail, hiff⟩ := dataAvailable_of_sort H'.wf H'.positioned hsort
  refine ⟨available, s', havail, H', hjournals, hcur, ?_⟩
  rw [hiff]
  constructor
  · rintro ⟨k, t, hk, hmem⟩
    obtain ⟨-, f, hf, hdata, -⟩ := H'.mem_heads_iff.mp hmem
    exact ⟨k, f, hk, hf, hdata⟩
  · rintro ⟨k, f, hk, hf, hdata⟩
    exact ⟨k, _, hk, H'.mem_heads_iff.mpr ⟨H'.wf.current k hk, f, hf, hdata, rfl⟩⟩

/-- If the clock withholds no head, nothing is available only when no journal has one. -/
theorem heads_eq_nil_of_visible (H : Tracks W P L live n s) {now : Int64} {s' : State}
    (hvisible : ∀ p ∈ heads s, p.2 ≤ s.2.minTime now)
    (hnone : Reader.dataAvailable now s = .ok (false, s')) : heads s = [] := by
  obtain ⟨available, s₁, havail, H₁, hjournals, hcur, hiff⟩ := H.dataAvailable now
  obtain ⟨rfl, rfl⟩ := Prod.mk.inj (Except.ok.inj (hnone.symm.trans havail))
  refine List.eq_nil_iff_forall_not_mem.mpr fun p hp => ?_
  obtain ⟨k, t, hmem, -, -, hpick⟩ := exists_pick s.2.current ⟨p, hp, hvisible p hp⟩
  obtain ⟨-, f, hf, hdata, -⟩ := H.mem_heads_iff.mp hmem
  rw [← hcur] at hpick
  exact Bool.false_ne_true (hiff.mpr ⟨k, f, hpick, hf, hdata⟩)

/-- In live mode nothing is available only when no journal has a head. -/
theorem heads_eq_nil (H : Tracks W P L true n s) {now : Int64} {s' : State}
    (hnone : Reader.dataAvailable now s = .ok (false, s')) : heads s = [] ∧ heads s' = [] := by
  have hnil : heads s = [] := by
    refine H.heads_eq_nil_of_visible (fun p _ => ?_) hnone
    rw [minTime, H.wf.liveMode, if_pos rfl]
    exact Int64.le_maxValue p.2
  obtain ⟨available, s₁, havail, H₁, hjournals, -, -⟩ := H.dataAvailable now
  obtain ⟨rfl, rfl⟩ := Prod.mk.inj (Except.ok.inj (hnone.symm.trans havail))
  refine ⟨hnil, List.eq_nil_iff_forall_not_mem.mpr fun p hp => ?_⟩
  obtain ⟨hk, hf⟩ := H₁.mem_heads_iff.mp hp
  rw [keys, hjournals] at hk
  have hmem := H.mem_heads_iff.mpr ⟨hk, hf⟩
  rw [hnil] at hmem
  exact absurd hmem List.not_mem_nil

end Tracks

end Reader

end Kungfu.Yijinjing
