import Kungfu.Yijinjing.Reopen

/-!
# Where a seek lands

In a journal with nondecreasing times the frames not newer than `T` come first, and
`firstNewer T L` counts them: a seek to `T` should land there.  It does unless the search
over pages picks a page that starts too late, and that happens only to a last page
without frames, whose empty first slot reads as time zero.
-/

namespace Kungfu.Yijinjing

variable {d : Dir} {P : UInt32} {L : List Frame} {T : Int64}

/-- The times of a journal, end marks included, do not decrease. -/
def Chronological (L : List Frame) : Prop := L.Pairwise fun f g => f.genTime ≤ g.genTime

instance (L : List Frame) : Decidable (Chronological L) :=
  inferInstanceAs (Decidable (L.Pairwise _))

/-- How many frames come before the first one newer than `T`. -/
def firstNewer (T : Int64) (L : List Frame) : ℕ :=
  (L.takeWhile fun f => decide (f.genTime ≤ T)).length

theorem firstNewer_le (T : Int64) (L : List Frame) : firstNewer T L ≤ L.length :=
  (List.takeWhile_prefix _).length_le

/-- In a journal in order of time, `firstNewer` separates the frames. -/
theorem lt_firstNewer_iff (hL : Chronological L) {i : ℕ} (hi : i < L.length) :
    i < firstNewer T L ↔ L[i].genTime ≤ T := by
  induction L generalizing i with
  | nil => exact absurd hi (Nat.not_lt_zero i)
  | cons f L ih =>
      obtain ⟨hf, hL'⟩ := List.pairwise_cons.mp hL
      rw [firstNewer, List.takeWhile_cons]
      by_cases hfT : f.genTime ≤ T
      · rw [if_pos (decide_eq_true hfT), List.length_cons]
        cases i with
        | zero => simpa using hfT
        | succ i =>
            have hstep := ih hL' (i := i) (by simpa using hi)
            rw [firstNewer] at hstep
            rw [Nat.succ_lt_succ_iff, List.getElem_cons_succ]
            exact hstep
      · rw [if_neg (by simpa using hfT), List.length_nil]
        have hi' : ¬ (f :: L)[i].genTime ≤ T := by
          intro hle
          cases i with
          | zero => exact hfT hle
          | succ i =>
              rw [List.getElem_cons_succ] at hle
              exact hfT (Int64.le_trans (hf _ (List.getElem_mem _)) hle)
        exact iff_of_false (Nat.not_lt_zero i) hi'

/-! ## Positions and cursors -/

/-- A cursor of the journal determines its position. -/
theorem length_eq_of_endCursor {n : ℕ} (hn : n ≤ L.length) :
    n = ((closedPages L).take ((endCursor (L.take n)).page - 1)).flatten.length +
      (endCursor (L.take n)).pageFrameNb := by
  have hpre : closedPages (L.take n) <+: closedPages L := by
    have h := Segment.closed_append Frame.isPageEnd (L.take n) (L.drop n)
    rwa [List.take_append_drop] at h
  have htake := List.prefix_iff_eq_take.mp hpre
  have hflat := congrArg List.length (Segment.flatten_split Frame.isPageEnd (L.take n))
  rw [List.length_append, List.length_take, Nat.min_eq_left hn] at hflat
  simp only [endCursor, Nat.add_sub_cancel, ← htake]
  exact hflat.symm

theorem endCursor_inj {m n : ℕ} (hm : m ≤ L.length) (hn : n ≤ L.length) :
    endCursor (L.take m) = endCursor (L.take n) ↔ m = n := by
  constructor
  · intro h
    rw [length_eq_of_endCursor hm, length_eq_of_endCursor hn, h]
  · rintro rfl
    rfl

/-! ## The scan reaches the first newer frame -/

theorem scanFrom_eq {s k : ℕ} (hs : s ≤ k) (hk : k ≤ L.length)
    (hpass : ∀ i (h : i < L.length), s ≤ i → i < k → passedBy T L[i] = true)
    (hstop : ∀ h : k < L.length, passedBy T L[k] = false) : scanFrom T L s = k := by
  induction hs using Nat.decreasingInduction with
  | self =>
      rcases Nat.lt_or_eq_of_le hk with hlt | rfl
      · rw [scanFrom_step T hlt, hstop hlt]
        rfl
      · exact scanFrom_length T L
  | of_succ s hlt ih =>
      have hs : s < L.length := Nat.lt_of_lt_of_le hlt hk
      rw [scanFrom_step T hs, if_pos (hpass s hs le_rfl hlt)]
      exact ih fun i hi hsi => hpass i hi (Nat.le_of_succ_le hsi)

theorem passedBy_of_lt_scanFrom {s i : ℕ} (hi : i < L.length) (hs : s ≤ i)
    (hlt : i < scanFrom T L s) : passedBy T L[i] = true := by
  obtain ⟨k, rfl⟩ := Nat.exists_eq_add_of_le hs
  have hk : k < ((L.drop s).takeWhile (passedBy T)).length := by
    rw [scanFrom] at hlt
    omega
  have hget := (List.takeWhile_prefix (passedBy T) (l := L.drop s)).getElem hk
  rw [List.getElem_drop] at hget
  rw [← hget]
  exact List.mem_takeWhile_imp (List.getElem_mem hk)

/-- The scan lands on the first newer frame when it starts in front of it and every frame
it has to pass has data. -/
theorem scanFrom_eq_firstNewer_iff (hL : Chronological L) (s : ℕ) (hs : s ≤ L.length) :
    scanFrom T L s = firstNewer T L ↔
      s ≤ firstNewer T L ∧ ∀ f ∈ L.drop s, f.genTime ≤ T → f.hasData = true := by
  constructor
  · intro h
    refine ⟨by rw [← h, scanFrom]; exact Nat.le_add_right _ _, fun f hf hle => ?_⟩
    obtain ⟨k, hk, rfl⟩ := List.getElem_of_mem hf
    rw [List.length_drop] at hk
    rw [List.getElem_drop] at hle ⊢
    have hlt := (lt_firstNewer_iff hL (by omega)).mpr hle
    have hpass := passedBy_of_lt_scanFrom (by omega) (Nat.le_add_right s k) (h ▸ hlt)
    exact (Bool.and_eq_true _ _).mp hpass |>.1
  · rintro ⟨hle, hdata⟩
    refine scanFrom_eq hle (firstNewer_le T L) (fun i hi hsi hik => ?_) fun h => ?_
    · have hT := (lt_firstNewer_iff hL hi).mp hik
      have hmem : L[i] ∈ L.drop s := by
        rw [List.mem_drop_iff_getElem]
        exact ⟨i - s, by omega, by simp [Nat.add_sub_cancel' hsi]⟩
      simp [passedBy, hdata _ hmem hT, hT]
    · have hT := mt (lt_firstNewer_iff (T := T) hL h).mpr (Nat.lt_irrefl _)
      simp [passedBy, hT]

/-! ## The search over pages starts in front of it -/

theorem lastBefore_spec (T : Int64) (ps : List (List Frame)) (n : ℕ) :
    lastBefore T ps n = 0 ∨ pageBegin (ps[lastBefore T ps n]?.getD []) < T := by
  induction n with
  | zero => exact Or.inl rfl
  | succ n ih =>
      rw [lastBefore]
      split
      · exact Or.inr ‹_›
      · exact ih

theorem getElem?_length_of_eq {xs ys : List Frame} {f : Frame} (h : L = xs ++ f :: ys) :
    L[xs.length]? = some f := by
  rw [h]
  simp

/-- The index of a page's first frame. -/
theorem getElem_pageStart {i : ℕ} {f : Frame} {fs : List Frame}
    (h : (pages L)[i]? = some (f :: fs)) :
    ∃ hlt : pageStart L i < L.length, L[pageStart L i] = f := by
  obtain ⟨hi, hget⟩ := List.getElem?_eq_some_iff.mp h
  have hflat : L = ((pages L).take i).flatten ++ f :: (fs ++ ((pages L).drop (i + 1)).flatten) := by
    conv_lhs => rw [← flatten_pages L, ← List.take_append_drop i (pages L),
      List.drop_eq_getElem_cons hi, hget]
    simp
  exact List.getElem?_eq_some_iff.mp (getElem?_length_of_eq hflat)

/-- The last frame of a page stands right before the next page starts. -/
theorem getElem_pageStart_succ {i : ℕ} {f : Frame} {fs : List Frame}
    (h : (pages L)[i]? = some (fs ++ [f])) :
    ∃ hlt : pageStart L (i + 1) - 1 < L.length, L[pageStart L (i + 1) - 1] = f ∧
      0 < pageStart L (i + 1) := by
  have htake : (pages L).take (i + 1) = (pages L).take i ++ [fs ++ [f]] := by
    rw [List.take_add_one, h]
    rfl
  have hflat : L = (((pages L).take i).flatten ++ fs) ++ f :: ((pages L).drop (i + 1)).flatten := by
    conv_lhs => rw [← flatten_pages L, ← List.take_append_drop (i + 1) (pages L), htake]
    simp
  have hlen : pageStart L (i + 1) = (((pages L).take i).flatten ++ fs).length + 1 := by
    rw [pageStart, htake]
    simp [Nat.add_assoc]
  have hget? : L[pageStart L (i + 1) - 1]? = some f := by
    rw [hlen, Nat.add_sub_cancel]
    exact getElem?_length_of_eq hflat
  obtain ⟨hlt, hget⟩ := List.getElem?_eq_some_iff.mp hget?
  exact ⟨hlt, hget, by omega⟩

namespace Dir.Holds

/-- The search starts late only on a last page without frames. -/
theorem pageStart_seekPage (H : d.Holds P L) (hL : Chronological L) (T : Int64) :
    pageStart L (seekPage P T L) ≤ firstNewer T L ∨
      (lastPage L = [] ∧ 0 < T ∧ pageStart L (seekPage P T L) = L.length) := by
  have hlt := H.seekPage_lt T
  rw [seekPage] at hlt ⊢
  set p := foundPage T L with hp
  set skipped := ((pages L).drop p).takeWhile (endedBy P T) with hskipped
  rcases Nat.eq_zero_or_pos skipped.length with hzero | hpos
  · -- the scan starts on the page that was found
    rw [hzero, Nat.add_zero]
    by_cases hfront : p = 0
    · rw [hfront]
      exact Or.inl (by simp [pageStart])
    · have hT : T ≠ 0 := by
        rintro rfl
        exact hfront (by rw [hp, foundPage, if_pos rfl])
      have hbegin : pageBegin ((pages L)[p]?.getD []) < T := by
        have hspec := lastBefore_spec T (pages L) (pages L).length
        rw [hp, foundPage, if_neg hT] at hfront ⊢
        exact hspec.resolve_left hfront
      have hget : (pages L)[p]? = some (pages L)[p] := List.getElem?_eq_getElem (foundPage_lt T L)
      rw [hget, Option.getD_some] at hbegin
      rcases H.page_cases hget with hne | ⟨hnil, hi, -⟩
      · obtain ⟨f, fs, hcons⟩ := List.exists_cons_of_ne_nil hne
        rw [hcons] at hget hbegin
        obtain ⟨hlt', hf⟩ := getElem_pageStart hget
        refine Or.inl (Nat.le_of_lt ((lt_firstNewer_iff hL hlt').mpr ?_))
        rw [hf]
        exact Int64.le_of_lt hbegin
      · have hlast : lastPage L = [] := by
          have hget' : (pages L)[(closedPages L).length]? = some [] := by rw [← hi, hget, hnil]
          simpa [pages_eq] using hget'
        refine Or.inr ⟨hlast, by simpa [hnil, pageBegin] using hbegin, ?_⟩
        have hflat := flatten_pages L
        rw [pages_eq, hlast, List.flatten_concat, List.append_nil] at hflat
        rw [pageStart, hi, pages_eq, List.take_left', hflat]
        rfl
  · -- the last skipped page ended by `T`
    left
    obtain ⟨q, hq⟩ : ∃ q, skipped.length = q + 1 := ⟨skipped.length - 1, by omega⟩
    have hq' : q < skipped.length := by omega
    have hmem : endedBy P T skipped[q] = true := List.mem_takeWhile_imp (List.getElem_mem hq')
    have hqget : skipped[q] = (pages L)[p + q] := by
      rw [(List.takeWhile_prefix (endedBy P T) (l := (pages L).drop p)).getElem hq',
        List.getElem_drop]
    have hget : (pages L)[p + q]? = some (pages L)[p + q] := List.getElem?_eq_getElem (by omega)
    rw [hqget] at hmem
    have hne : (pages L)[p + q] ≠ [] := by
      rcases H.page_cases hget with hne | ⟨-, hi, -⟩
      · exact hne
      · rw [length_pages] at hlt
        omega
    obtain ⟨fs, f, hconcat⟩ := (List.eq_nil_or_concat' _).resolve_left hne
    rw [hconcat] at hget hmem
    obtain ⟨hlt', hf, hpos'⟩ := getElem_pageStart_succ hget
    have hend : f.genTime ≤ T := by
      have hle := ((Bool.and_eq_true _ _).mp hmem).2
      simpa [pageLast] using hle
    have hltN := (lt_firstNewer_iff (T := T) hL hlt').mpr (hf ▸ hend)
    rw [hq, ← Nat.add_assoc]
    omega

theorem pageStart_seekPage_of_empty (H : d.Holds P L) (hlast : lastPage L = []) (hT : 0 < T) :
    pageStart L (seekPage P T L) = L.length := by
  have hne : T ≠ 0 := fun h => absurd hT (by rw [h]; exact Int64.lt_irrefl)
  have hfound : foundPage T L = (closedPages L).length := by
    have hget : (pages L)[(closedPages L).length]? = some [] := by simp [pages_eq, hlast]
    rw [foundPage, if_neg hne, length_pages, lastBefore, hget]
    exact if_pos (by simpa [pageBegin] using hT)
  have hdrop : (pages L).drop (closedPages L).length = [[]] := by simp [pages_eq, hlast]
  have hended : endedBy P T [] = false := by
    have h := H.endedBy_lastPage T
    rwa [hlast] at h
  have hflat := flatten_pages L
  rw [pages_eq, hlast, List.flatten_concat, List.append_nil] at hflat
  rw [seekPage, hfound, hdrop, List.takeWhile_cons, hended]
  simp only [Bool.false_eq_true, if_false, List.length_nil, Nat.add_zero]
  rw [pageStart, pages_eq, List.take_left', hflat]
  rfl

/-- The search starts in front of the first newer frame, except on an empty last page. -/
theorem pageStart_le_firstNewer_iff (H : d.Holds P L) (hL : Chronological L) :
    pageStart L (seekPage P T L) ≤ firstNewer T L ↔
      ¬ (lastPage L = [] ∧ 0 < T ∧ ∃ f ∈ L, T < f.genTime) := by
  constructor
  · rintro hle ⟨hlast, hT, f, hf, hlt⟩
    rw [H.pageStart_seekPage_of_empty hlast hT] at hle
    obtain ⟨i, hi, rfl⟩ := List.getElem_of_mem hf
    have := (lt_firstNewer_iff hL hi).mp (Nat.lt_of_lt_of_le hi hle)
    exact absurd hlt (Int64.not_lt.mpr this)
  · intro hnot
    rcases H.pageStart_seekPage hL T with hle | ⟨hlast, hT, hstart⟩
    · exact hle
    · by_contra hlt
      have hlt' : firstNewer T L < L.length := by
        have := firstNewer_le T L
        omega
      refine hnot ⟨hlast, hT, L[firstNewer T L], List.getElem_mem hlt', ?_⟩
      exact Int64.not_le.mp (mt (lt_firstNewer_iff hL hlt').mpr (Nat.lt_irrefl _))

end Dir.Holds

/-- In a journal in order of time a seek lands on the first frame newer than `T`, or on the
empty slot, exactly when the last page has a frame, or `T` is not positive, or nothing is
newer than `T`, and the frames to pass from the search's page on all have data. -/
theorem seek_lands_iff (H : d.Holds P L) (hL : Chronological L) (T : Int64) (j : Journal) :
    ∃ s, Journal.seekToTime (d, j) T = .ok s ∧
      (s.2.cursor = some (endCursor (L.take (firstNewer T L))) ↔
        ¬ (lastPage L = [] ∧ 0 < T ∧ ∃ f ∈ L, T < f.genTime) ∧
          ∀ f ∈ L.drop (pageStart L (seekPage P T L)), f.genTime ≤ T → f.hasData = true) := by
  obtain ⟨d', hseek, -⟩ := H.seekToTime_spec T j
  refine ⟨_, hseek, ?_⟩
  rw [Option.some.injEq, endCursor_inj (seekIndex_le P T L) (firstNewer_le T L), seekIndex,
    scanFrom_eq_firstNewer_iff hL _ (pageStart_le L _), H.pageStart_le_firstNewer_iff hL]

/-- The frame that is newer than 15 lies on the second page. -/
theorem seek_lands_iff_two :
    ∃ d, Incarnation.run (fun _ => 0) .checked 1 2 (Dir.empty 200) (.twoPages 10) = .ok d ∧
      ∃ s, Journal.seekToTime (d, Journal.make 1 2 false true) 15 = .ok s ∧
        (s.2.cursor = some (endCursor (d.contents.take (firstNewer 15 d.contents))) ↔
          ¬ (lastPage d.contents = [] ∧ (0 : Int64) < 15 ∧ ∃ f ∈ d.contents, 15 < f.genTime) ∧
            ∀ f ∈ d.contents.drop (pageStart d.contents (seekPage 200 15 d.contents)),
              f.genTime ≤ 15 → f.hasData = true) := by
  have hsafe : (Incarnation.twoPages 10).Safe 200 (Dir.empty 200) :=
    ⟨by decide, by decide, by simp [Incarnation.twoPages]⟩
  have hrun : okAnd (Incarnation.run (fun _ => 0) .checked 1 2 (Dir.empty 200) (.twoPages 10))
      (fun d => decide (Chronological d.contents)) = true := by
    decide +kernel
  obtain ⟨d, L, hd, H, -⟩ := Incarnation.run_holds (fun _ => 0) .checked 1 2
    (Dir.stores_empty (P := 200) (by decide)) hsafe
  obtain ⟨d', hd', hL⟩ := exists_of_okAnd hrun
  obtain rfl : d = d' := by simpa [hd] using hd'
  exact ⟨d, hd, seek_lands_iff (H.contents_eq.symm ▸ H) (of_decide_eq_true hL) 15 _⟩

/-- A frame that ends its page and a process that died after it had opened the next page:
the empty page begins at time zero, so a seek to 5 passes over the frame stamped 10. -/
theorem seek_skips_before_empty_page :
    ∃ d, Incarnation.run (fun _ => 0) .checked 1 2 (Dir.empty 200)
        { Incarnation.single 10 10 [1, 2, 3] with opened := some (20, ⟨0, 7, 90, [], none, 20⟩) } =
        .ok d ∧
      Chronological d.contents ∧
      ∃ s, Journal.seekToTime (d, Journal.make 1 2 false true) 5 = .ok s ∧
        s.2.cursor = some (endCursor d.contents) ∧
        s.2.cursor ≠ some (endCursor (d.contents.take (firstNewer 5 d.contents))) := by
  have hrun : okAnd (Incarnation.run (fun _ => 0) .checked 1 2 (Dir.empty 200)
      { Incarnation.single 10 10 [1, 2, 3] with opened := some (20, ⟨0, 7, 90, [], none, 20⟩) })
      (fun d => decide (Chronological d.contents) &&
        okAnd (Journal.seekToTime (d, Journal.make 1 2 false true) 5) fun s =>
          decide (s.2.cursor = some (endCursor d.contents) ∧
            s.2.cursor ≠ some (endCursor (d.contents.take (firstNewer 5 d.contents))))) = true := by
    decide +kernel
  obtain ⟨d, hd, hrest⟩ := exists_of_okAnd hrun
  obtain ⟨hchron, hrest⟩ := (Bool.and_eq_true _ _).mp hrest
  obtain ⟨s, hs, hcur⟩ := exists_of_okAnd hrest
  exact ⟨d, hd, of_decide_eq_true hchron, s, hs, of_decide_eq_true hcur⟩

end Kungfu.Yijinjing
