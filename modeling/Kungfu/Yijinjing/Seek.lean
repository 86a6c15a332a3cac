import Kungfu.Yijinjing.Append
import Mathlib.Algebra.Order.BigOperators.Group.List

/-!
# Seeking

On a directory that holds the journal `L`, `seek_to_time` is a search over the list of
pages followed by a scan of the list of frames.  The definitions below say which page
the search stops at and which index the scan reaches; `seekToTime_spec` says that the
code computes them.
-/

namespace Kungfu.Yijinjing

open Memory

/-! ## The search over pages -/

/-- `begin_time` of a page with these frames; an empty first slot reads as time zero. -/
def pageBegin (fs : List Frame) : Int64 := (fs.head?.map Frame.genTime).getD 0

/-- `end_time` of a page with these frames. -/
def pageLast (fs : List Frame) : Int64 := (fs.getLast?.map Frame.genTime).getD 0

/-- The last of the first `n` pages that begins before `T`, the first page if none does. -/
def lastBefore (T : Int64) (pages : List (List Frame)) : ℕ → ℕ
  | 0 => 0
  | n + 1 => if pageBegin (pages[n]?.getD []) < T then n else lastBefore T pages n

/-- The page that `find_page_id` picks. -/
def foundPage (T : Int64) (L : List Frame) : ℕ :=
  if T = 0 then 0 else lastBefore T (pages L) (pages L).length

/-- A page of `P` bytes that is full and ended by `T`. -/
def endedBy (P : UInt32) (T : Int64) (fs : List Frame) : Bool :=
  decide (P.toNat - frameHeaderSize < pageHeaderSize + span fs) && decide (pageLast fs ≤ T)

/-- The page where the scan over frames starts. -/
def seekPage (P : UInt32) (T : Int64) (L : List Frame) : ℕ :=
  foundPage T L + (((pages L).drop (foundPage T L)).takeWhile (endedBy P T)).length

/-! ## The scan over frames -/

/-- The index in `L` of the first frame of page `i`. -/
def pageStart (L : List Frame) (i : ℕ) : ℕ := ((pages L).take i).flatten.length

/-- The scan passes this frame. -/
def passedBy (T : Int64) (f : Frame) : Bool := f.hasData && decide (f.genTime ≤ T)

/-- The position where the scan that starts at `n` stops. -/
def scanFrom (T : Int64) (L : List Frame) (n : ℕ) : ℕ :=
  n + ((L.drop n).takeWhile (passedBy T)).length

/-- The position `seek_to_time` reaches. -/
def seekIndex (P : UInt32) (T : Int64) (L : List Frame) : ℕ :=
  scanFrom T L (pageStart L (seekPage P T L))

theorem lastBefore_lt (T : Int64) (ps : List (List Frame)) {n : ℕ} (hn : 0 < n) :
    lastBefore T ps n < n := by
  induction n with
  | zero => exact absurd hn (Nat.lt_irrefl 0)
  | succ n ih =>
      rw [lastBefore]
      split
      · exact Nat.lt_succ_self n
      · rcases Nat.eq_zero_or_pos n with rfl | hpos
        · exact Nat.one_pos
        · exact Nat.lt_succ_of_lt (ih hpos)

theorem foundPage_lt (T : Int64) (L : List Frame) : foundPage T L < (pages L).length := by
  have hpos : 0 < (pages L).length := by simp
  rw [foundPage]
  split
  · exact hpos
  · exact lastBefore_lt T _ hpos

theorem pageStart_le (L : List Frame) (i : ℕ) : pageStart L i ≤ L.length := by
  have h : ((pages L).take i).flatten ++ ((pages L).drop i).flatten = L := by
    rw [← List.flatten_append, List.take_append_drop, flatten_pages]
  have hlen := congrArg List.length h
  rw [List.length_append] at hlen
  rw [pageStart]
  omega

theorem scanFrom_le (T : Int64) {L : List Frame} {n : ℕ} (hn : n ≤ L.length) :
    scanFrom T L n ≤ L.length := by
  have h := (List.takeWhile_prefix (passedBy T) (l := L.drop n)).length_le
  rw [List.length_drop] at h
  rw [scanFrom]
  omega

theorem seekIndex_le (P : UInt32) (T : Int64) (L : List Frame) : seekIndex P T L ≤ L.length :=
  scanFrom_le T (pageStart_le L _)

/-- The scan stops where it starts, or passes one frame and goes on. -/
theorem scanFrom_step (T : Int64) {L : List Frame} {n : ℕ} (hn : n < L.length) :
    scanFrom T L n = if passedBy T L[n] then scanFrom T L (n + 1) else n := by
  rw [scanFrom, List.drop_eq_getElem_cons hn, List.takeWhile_cons]
  split
  · rw [scanFrom, List.length_cons]
    omega
  · simp

theorem scanFrom_length (T : Int64) (L : List Frame) : scanFrom T L L.length = L.length := by
  simp [scanFrom]

/-- The frames of a page come first after the frames of the pages before it. -/
theorem take_pageStart {L : List Frame} {i : ℕ} (h : i < (pages L).length) :
    L.take (pageStart L i) = ((closedPages L).take i).flatten := by
  rw [length_pages] at h
  have htake : (pages L).take i = (closedPages L).take i := by
    rw [pages_eq, List.take_append_of_le_length (by omega)]
  have hpre : ((closedPages L).take i).flatten <+: L :=
    Segment.flatten_take_prefix Frame.isPageEnd L i
  rw [pageStart, htake]
  exact (List.prefix_iff_eq_take.mp hpre).symm

/-- A page starts at its first slot. -/
theorem endCursor_pageStart {L : List Frame} {i : ℕ} (h : i < (pages L).length) :
    endCursor (L.take (pageStart L i)) = ⟨i + 1, pageHeaderSize, 0⟩ := by
  have hsplit := Segment.split_flatten_take Frame.isPageEnd L i
  have hlen : ((closedPages L).take i).length = i := by
    rw [length_pages] at h
    simp
    omega
  rw [take_pageStart h, endCursor, closedPages, lastPage, closedPages, hsplit]
  rw [closedPages] at hlen
  simp [hlen]

/-! ## The code computes the search and the scan -/

variable {d : Dir} {P : UInt32} {L : List Frame}

namespace Dir.Holds

/-- A page without frames is the last one. -/
theorem page_cases (H : d.Holds P L) {i : ℕ} {fs : List Frame} (h : (pages L)[i]? = some fs) :
    fs ≠ [] ∨ (fs = [] ∧ i = (closedPages L).length ∧
      Vacant (d.mem (i + 1)) pageHeaderSize) := by
  rcases eq_or_ne fs [] with rfl | hne
  · refine Or.inr ⟨rfl, ?_⟩
    rw [pages_eq] at h
    rcases Nat.lt_trichotomy i (closedPages L).length with hlt | rfl | hgt
    · rw [List.getElem?_append_left hlt] at h
      exact absurd rfl (Segment.closed_ne_nil Frame.isPageEnd (List.mem_of_getElem? h))
    · have hlast : lastPage L = [] := by simpa using h
      have hv := H.vacant
      simp only [endCursor, hlast, span_nil, Nat.add_zero] at hv
      exact ⟨rfl, hv⟩
    · have hlt := (List.getElem?_eq_some_iff.mp h).1
      simp at hlt
      omega
  · exact Or.inl hne

theorem beginTime (H : d.Holds P L) {i : ℕ} {fs : List Frame} (h : (pages L)[i]? = some fs) :
    Page.beginTime (d.mem (i + 1)) = pageBegin fs := by
  have hpage := H.page i fs h
  rcases H.page_cases h with hne | ⟨rfl, -, hv⟩
  · obtain ⟨f, gs, rfl⟩ := List.exists_cons_of_ne_nil hne
    exact hpage.beginTime
  · rw [Page.beginTime, hpage.firstFrameAddress, hv.genTime]
    rfl

theorem lastFrameEnd (H : d.Holds P L) {i : ℕ} {fs : List Frame} (h : (pages L)[i]? = some fs) :
    Page.lastFrameEnd (d.mem (i + 1)) = pageHeaderSize + span fs := by
  have hpage := H.page i fs h
  rcases H.page_cases h with hne | ⟨rfl, -, hv⟩
  · obtain ⟨gs, f, rfl⟩ := (List.eq_nil_or_concat' fs).resolve_left hne
    exact hpage.lastFrameEnd
  · exact hpage.lastFrameEnd_of_vacant (by simpa using hv)

theorem endTime (H : d.Holds P L) {i : ℕ} {fs : List Frame} (h : (pages L)[i]? = some fs) :
    Page.endTime (d.mem (i + 1)) = pageLast fs := by
  have hpage := H.page i fs h
  rcases H.page_cases h with hne | ⟨rfl, -, hv⟩
  · obtain ⟨gs, f, rfl⟩ := (List.eq_nil_or_concat' fs).resolve_left hne
    rw [hpage.endTime, pageLast, List.getLast?_concat]
    rfl
  · have hlast : Page.lastFrameAddress (d.mem (i + 1)) = pageHeaderSize := by
      simpa using hpage.lastFrame
    rw [Page.endTime, hlast, hv.genTime]
    rfl

/-- The test of the page loop. -/
theorem endedBy_iff (H : d.Holds P L) (T : Int64) {i : ℕ} {fs : List Frame}
    (h : (pages L)[i]? = some fs) :
    (Page.isFull (d.mem (i + 1)) = true ∧ Page.endTime (d.mem (i + 1)) ≤ T) ↔
      endedBy P T fs = true := by
  rw [Page.isFull, (H.page i fs h).addressBorder, H.lastFrameEnd h, H.endTime h, endedBy,
    Bool.and_eq_true, decide_eq_true_iff, decide_eq_true_iff]

/-- The last page is never full. -/
theorem endedBy_lastPage (H : d.Holds P L) (T : Int64) : endedBy P T (lastPage L) = false := by
  have hroom := H.room
  simp only [endCursor] at hroom
  have hfull : ¬ P.toNat - frameHeaderSize < pageHeaderSize + span (lastPage L) := by omega
  simp [endedBy, hfull]

theorem seekPage_lt (H : d.Holds P L) (T : Int64) : seekPage P T L < (pages L).length := by
  have hfound := foundPage_lt T L
  have hle := (List.takeWhile_prefix (endedBy P T) (l := (pages L).drop (foundPage T L))).length_le
  rw [List.length_drop] at hle
  rcases Nat.lt_or_ge (seekPage P T L) (pages L).length with h | h
  · exact h
  · -- otherwise every page from the found one on is full, the last one too
    exfalso
    rw [seekPage] at h
    have hall : ((pages L).drop (foundPage T L)).takeWhile (endedBy P T) =
        (pages L).drop (foundPage T L) :=
      (List.takeWhile_prefix _).eq_of_length (by rw [List.length_drop]; omega)
    have hmem : lastPage L ∈ (pages L).drop (foundPage T L) := by
      rw [length_pages] at hfound
      rw [pages_eq, List.drop_append_of_le_length (by omega)]
      exact List.mem_append_right _ (List.mem_singleton_self _)
    have hfull := List.takeWhile_eq_self_iff.mp hall _ hmem
    rw [H.endedBy_lastPage T] at hfull
    exact Bool.false_ne_true hfull

theorem findFrom_spec (H : d.Holds P L) (T : Int64) {n : ℕ} (hn : n ≤ (pages L).length) :
    Page.findFrom d T 1 (List.range' 1 n).reverse = .ok (lastBefore T (pages L) n + 1) := by
  induction n with
  | zero => rfl
  | succ n ih =>
      have hlt : n < (pages L).length := hn
      have hget : (pages L)[n]? = some (pages L)[n] := List.getElem?_eq_getElem hlt
      have hmem : n + 1 ∈ d.ids := by
        rw [H.ids, List.mem_range'_1]
        omega
      obtain ⟨d', hload, -, hsame⟩ := H.load hmem false true
      rw [List.range'_1_concat, List.reverse_append, List.reverse_singleton,
        List.singleton_append, Nat.add_comm 1 n, Page.findFrom, hload, hsame rfl]
      simp only [H.beginTime hget, lastBefore, hget, Option.getD_some]
      split
      · rfl
      · exact ih (by omega)

theorem findPageId_spec (H : d.Holds P L) (T : Int64) :
    Page.findPageId d T = .ok (foundPage T L + 1) := by
  have hids : d.ids = 1 :: List.range' 2 (closedPages L).length := by
    rw [H.ids, length_pages, List.range'_succ]
  rw [Page.findPageId, hids]
  simp only [foundPage]
  split
  · rfl
  · rw [← hids, H.ids]
    exact H.findFrom_spec T le_rfl

/-- The page loop, from page `p` on. -/
theorem skipPages_spec (H : d.Holds P L) (T : Int64) (j : Journal) (p fuel : ℕ)
    (hp : p < (pages L).length) (hfuel : (pages L).length < p + fuel)
    (hj : j.cursor = some ⟨p + 1, pageHeaderSize, 0⟩) :
    ∃ d', Journal.skipPages T fuel (d, j) = .ok (d', { j with
        cursor := some ⟨p + (((pages L).drop p).takeWhile (endedBy P T)).length + 1,
          pageHeaderSize, 0⟩ }) ∧ d'.Holds P L := by
  induction fuel generalizing d j p with
  | zero => omega
  | succ fuel ih =>
      have hget : (pages L)[p]? = some (pages L)[p] := List.getElem?_eq_getElem hp
      have htest := H.endedBy_iff T hget
      rw [Journal.skipPages, List.drop_eq_getElem_cons hp, List.takeWhile_cons]
      simp only [hj]
      by_cases hended : endedBy P T (pages L)[p]
      · have hnotlast : p ≠ (closedPages L).length := by
          rintro rfl
          have hlast : (pages L)[(closedPages L).length] = lastPage L := by simp [pages_eq]
          rw [hlast, H.endedBy_lastPage T] at hended
          exact Bool.false_ne_true hended
        have hp' : p + 1 < (pages L).length := by
          rw [length_pages] at hp ⊢
          omega
        have hmem : p + 1 + 1 ∈ d.ids := by
          rw [H.ids, List.mem_range'_1]
          omega
        obtain ⟨d₁, hload, H₁⟩ := H.loadPage hmem j
        obtain ⟨d₂, hskip, H₂⟩ := ih H₁
          { j with cursor := some ⟨p + 1 + 1, pageHeaderSize, 0⟩ } (p + 1) hp' (by omega) rfl
        refine ⟨d₂, ?_, H₂⟩
        rw [if_pos (htest.mpr hended), Journal.loadNextPage, hj]
        simp only [hload, bind, Except.bind, hskip, hended, if_true, List.length_cons]
        congr 5
        omega
      · refine ⟨d, ?_, H⟩
        rw [if_neg (fun h => hended (htest.mp h))]
        simp [hended, ← hj]

/-- The frame loop, from frame `n` on. -/
theorem skipFrames_spec (H : d.Holds P L) (T : Int64) (j : Journal) (n fuel : ℕ)
    (hn : n ≤ L.length) (hfuel : L.length < n + fuel)
    (hj : j.cursor = some (endCursor (L.take n))) :
    ∃ d', Journal.skipFrames T fuel (d, j) =
        .ok (d', { j with cursor := some (endCursor (L.take (scanFrom T L n))) }) ∧
      d'.Holds P L := by
  induction fuel generalizing d j n with
  | zero => omega
  | succ fuel ih =>
      have hdata := H.hasData n
      rw [Journal.skipFrames, hj]
      simp only [hdata]
      rcases Nat.lt_or_eq_of_le hn with hlt | rfl
      · have hat := (H.frameAt hlt).2
        rw [List.getElem?_eq_getElem hlt, Option.any_some, hat.genTime, scanFrom_step T hlt]
        by_cases hpass : passedBy T L[n]
        · obtain ⟨d₁, hnext, H₁⟩ := H.next hlt j hj
          obtain ⟨d₂, hskip, H₂⟩ := ih H₁
            { j with cursor := some (endCursor (L.take (n + 1))) } (n + 1) hlt (by omega) rfl
          refine ⟨d₂, ?_, H₂⟩
          rw [if_pos (by simpa [passedBy] using hpass), hnext, if_pos hpass]
          exact hskip
        · refine ⟨d, ?_, H⟩
          rw [if_neg (by simpa [passedBy] using hpass), if_neg hpass, ← hj]
      · refine ⟨d, ?_, H⟩
        rw [List.getElem?_eq_none le_rfl, scanFrom_length, ← hj]
        simp

/-- No page holds more frames than bytes. -/
theorem length_le (H : d.Holds P L) : L.length ≤ (pages L).length * P.toNat := by
  have hpage : ∀ n ∈ (pages L).map List.length, n ≤ P.toNat := by
    intro n hn
    obtain ⟨fs, hfs, rfl⟩ := List.mem_map.mp hn
    obtain ⟨i, hi, rfl⟩ := List.getElem_of_mem hfs
    have hfits := (H.page i _ (List.getElem?_eq_getElem hi)).fits
    have := length_le_span (pages L)[i]
    omega
  have hsum := List.sum_le_card_nsmul _ _ hpage
  rw [List.length_map, nsmul_eq_mul, ← List.length_flatten, flatten_pages] at hsum
  exact hsum

/-- `journal::seek_to_time`, of any journal object. -/
theorem seekToTime_spec (H : d.Holds P L) (T : Int64) (j : Journal) :
    ∃ d', Journal.seekToTime (d, j) T =
        .ok (d', { j with cursor := some (endCursor (L.take (seekIndex P T L))) }) ∧
      d'.Holds P L := by
  have hfound := foundPage_lt T L
  have hmem : foundPage T L + 1 ∈ d.ids := by
    rw [H.ids, List.mem_range'_1]
    omega
  obtain ⟨d₁, hload, H₁⟩ := H.loadPage hmem j
  have hfuel : (pages L).length < foundPage T L + Journal.pageFuel d₁ := by
    rw [Journal.pageFuel, H₁.ids, List.length_range']
    omega
  obtain ⟨d₂, hskip, H₂⟩ := H₁.skipPages_spec T
    { j with cursor := some ⟨foundPage T L + 1, pageHeaderSize, 0⟩ } _ _ hfound hfuel rfl
  have hfuel' : L.length < pageStart L (seekPage P T L) + Journal.frameFuel d₂ := by
    have hlen := H₂.length_le
    have hP : d₂.mappingSize = P.toNat := congrArg UInt32.toNat H₂.pageSize
    have hmul : (pages L).length * P.toNat ≤ ((pages L).length + 1) * (P.toNat + 1) :=
      Nat.mul_le_mul (Nat.le_succ _) (Nat.le_succ _)
    rw [Journal.frameFuel, H₂.ids, List.length_range', hP]
    omega
  obtain ⟨d₃, hscan, H₃⟩ := H₂.skipFrames_spec T
    { j with cursor := some (endCursor (L.take (pageStart L (seekPage P T L)))) }
    _ _ (pageStart_le L _) hfuel' rfl
  refine ⟨d₃, ?_, H₃⟩
  rw [endCursor_pageStart (H.seekPage_lt T)] at hscan
  simp only [Journal.seekToTime, H.findPageId_spec T, Except.mapError, bind, Except.bind, hload,
    hskip]
  exact hscan

end Dir.Holds

end Kungfu.Yijinjing
