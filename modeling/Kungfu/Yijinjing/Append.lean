import Kungfu.Yijinjing.Slot

/-!
# Writes append

On a directory that holds the journal `L`, with the writer on the empty slot, every
write of a frame that fits a page leaves a directory that holds `L` followed by that
frame, preceded by an end mark when the page is switched.  Opening a frame without
closing it appends nothing but that mark.
-/

namespace Kungfu.Yijinjing

open Memory

variable {d d' : Dir} {P : UInt32} {L : List Frame} {f : Frame}

/-! ## One more frame in the directory -/

namespace Dir.Holds

/-- A directory that keeps the closed pages, and has the new frame on the last one, holds
the longer journal. -/
theorem extend (H : d.Holds P L) (hsize : d'.pageSize = P)
    (hids : d'.ids = List.range' 1 (pages (L ++ [f])).length)
    (hsizes : ∀ id ∈ d'.ids, P.toNat ≤ (d'.file id).size)
    (hold : ∀ id < (endCursor L).page, d'.mem id = d.mem id)
    (hpage : PageHolds P (d'.mem (endCursor L).page) (lastPage L ++ [f]))
    (hnext : f.isPageEnd → PageHolds P (d'.mem ((endCursor L).page + 1)) [])
    (hvacant : Vacant (d'.mem (endCursor (L ++ [f])).page) (endCursor (L ++ [f])).frame)
    (hroom : (endCursor (L ++ [f])).frame + frameHeaderSize < P.toNat) :
    d'.Holds P (L ++ [f]) := by
  refine ⟨hsize, hids, hsizes, fun i fs hfs => ?_, hvacant, hroom⟩
  have hpages : pages (L ++ [f]) = closedPages L ++ [lastPage L ++ [f]] ∨
      f.isPageEnd ∧ pages (L ++ [f]) = closedPages L ++ [lastPage L ++ [f], []] := by
    by_cases hend : f.isPageEnd
    · exact Or.inr ⟨hend, pages_concat_of_end hend⟩
    · exact Or.inl (pages_concat_of_not_end (by simpa using hend))
  rcases Nat.lt_trichotomy i (closedPages L).length with hlt | rfl | hgt
  · have hkeep : (pages L)[i]? = some fs := by
      rw [pages_eq, List.getElem?_append_left hlt]
      rcases hpages with h | ⟨-, h⟩ <;>
        simpa only [h, List.getElem?_append_left hlt] using hfs
    rw [hold (i + 1) (by simp only [endCursor]; omega)]
    exact H.page i fs hkeep
  · have hfs' : lastPage L ++ [f] = fs := by
      rcases hpages with h | ⟨-, h⟩ <;> simpa [h] using hfs
    exact hfs' ▸ hpage
  · rcases hpages with h | ⟨hend, h⟩
    · simp [h, List.getElem?_append_right hgt.le, List.getElem?_singleton] at hfs
      omega
    · have hi : i = (closedPages L).length + 1 := by
        have hlt := (List.getElem?_eq_some_iff.mp hfs).1
        simp only [h, List.length_append, List.length_cons, List.length_nil] at hlt
        omega
      subst hi
      have hfs' : ([] : List Frame) = fs := by simpa [h] using hfs
      exact hfs' ▸ hnext hend

/-- Bytes from the empty slot on may change as long as the slot stays empty. -/
theorem setMem_of_vacant (H : d.Holds P L) {m : Mem}
    (hlow : Set.EqOn m (d.mem (endCursor L).page) (Set.Ico 0 (endCursor L).frame))
    (hvacant : Vacant m (endCursor L).frame) : (d.setMem (endCursor L).page m).Holds P L := by
  refine ⟨H.pageSize, H.ids, fun id hid => ?_, fun i fs hfs => ?_, by simpa using hvacant, H.room⟩
  · simpa using H.sizes id hid
  · by_cases hi : i + 1 = (endCursor L).page
    · have hlast : fs = lastPage L := by
        have hi' : i = (closedPages L).length := by simpa [endCursor] using hi
        subst hi'
        simpa [pages_eq] using hfs.symm
      rw [hi, Dir.mem_setMem_same, hlast]
      exact H.lastPageHolds.eqOn hlow
    · rw [Dir.mem_setMem_of_ne _ _ hi]
      exact H.page i fs hfs

/-- A frame that stays on the page, with an empty slot after it. -/
theorem concat (H : d.Holds P L) (hend : f.isPageEnd = false) {m : Mem}
    (hpage : PageHolds P m (lastPage L ++ [f]))
    (hvacant : Vacant m ((endCursor L).frame + f.length))
    (hroom : (endCursor L).frame + f.length + frameHeaderSize < P.toNat) :
    (d.setMem (endCursor L).page m).Holds P (L ++ [f]) := by
  have hcur := endCursor_concat_of_not_end (L := L) hend
  refine H.extend H.pageSize ?_ ?_ ?_ ?_ ?_ ?_ ?_
  · rw [Dir.ids_setMem, H.ids, pages_concat_of_not_end hend, length_pages]
    simp
  · intro id hid
    simpa using H.sizes id hid
  · exact fun id hid => Dir.mem_setMem_of_ne d m (Nat.ne_of_lt hid)
  · simpa using hpage
  · simp [hend]
  · simpa [hcur] using hvacant
  · simpa [hcur] using hroom

/-- An end mark, together with the page after it. -/
theorem concat_end (H : d.Holds P L) (hend : f.isPageEnd) {m : Mem}
    (hpage : PageHolds P m (lastPage L ++ [f])) :
    ((d.addPage ((endCursor L).page + 1)).setMem (endCursor L).page m).Holds P (L ++ [f]) := by
  have hcur := endCursor_concat_of_end (L := L) hend
  have hids : d.ids = List.range' 1 (endCursor L).page := by
    rw [H.ids, length_pages]
    rfl
  have habsent : (endCursor L).page + 1 ∉ d.ids := by
    rw [H.mem_ids]
    omega
  have hroom := H.room
  have hnew : ((d.addPage ((endCursor L).page + 1)).setMem (endCursor L).page m).mem
      ((endCursor L).page + 1) = Page.initHeader P fun _ => 0 := by
    rw [Dir.mem_setMem_of_ne _ _ (Nat.succ_ne_self _), Dir.mem_addPage_same habsent, H.pageSize]
  have hP : pageHeaderSize + frameHeaderSize < P.toNat :=
    Nat.lt_of_le_of_lt (Nat.add_le_add_right (Nat.le_add_right _ _) _) hroom
  refine H.extend H.pageSize ?_ ?_ ?_ ?_ ?_ ?_ ?_
  · rw [Dir.ids_setMem, Dir.ids_addPage hids, pages_concat_of_end hend]
    simp [endCursor]
  · intro id hid
    rw [Dir.size_setMem]
    by_cases hnew : id = (endCursor L).page + 1
    · subst hnew
      exact (congrArg UInt32.toNat H.pageSize).symm.le.trans Dir.size_addPage_same
    · rw [Dir.size_addPage_of_ne hnew]
      refine H.sizes id (H.mem_ids.mpr ?_)
      rw [Dir.ids_setMem, Dir.ids_addPage hids, List.mem_range'_1] at hid
      omega
  · intro id hid
    rw [Dir.mem_setMem_of_ne _ _ (Nat.ne_of_lt hid), Dir.mem_addPage_of_ne (by omega)]
  · simpa using hpage
  · exact fun _ => hnew ▸ Dir.initHeader_holds (by omega)
  · rw [hcur]
    exact hnew ▸ Dir.initHeader_vacant P
  · rw [hcur]
    exact hP

end Dir.Holds

/-- Creating another page commutes with storing into this one. -/
theorem Dir.addPage_setMem {id i : ℕ} (h : i ≠ id) (m : Mem) :
    (d.setMem i m).addPage id = (d.addPage id).setMem i m := by
  simp only [Dir.addPage, Dir.setMem, Dir.stretch, Dir.mem, Dir.openFile, Dir.mappingSize,
    Function.update_self, Function.update_idem, Function.update_of_ne h,
    Function.update_of_ne h.symm, Function.update_comm h]
  rfl

namespace Writer

/-! ## The writer on the empty slot -/

/-- The writer of `(location, dest)` stands on the empty slot of the journal `L`. -/
structure Ready (location dest : UInt32) (P : UInt32) (s : State) (L : List Frame) : Prop where
  holds : s.1.Holds P L
  cursor : s.2.journal.cursor = some (endCursor L)
  isWriting : s.2.journal.isWriting = true
  location : s.2.journal.location = location
  dest : s.2.journal.dest = dest
  unlocked : s.2.locked = false

/-- The frame `close_page` leaves. -/
def pageEnd (location dest : UInt32) (now triggerTime : Int64) : Frame where
  genTime := now
  triggerTime := triggerTime
  msgType := pageEndTag
  source := location
  dest := dest
  data := []

/-- The end mark that a write of `n` bytes puts after the frames of `L`, if any. -/
def switchMark (location dest P : UInt32) (now triggerTime : Int64) (n : ℕ) (L : List Frame) :
    List Frame :=
  if P.toNat - frameHeaderSize ≤ (endCursor L).frame + n
  then [pageEnd location dest now triggerTime] else []

variable {location dest : UInt32} {s : State}

theorem mem_switchMark {now triggerTime : Int64} {n : ℕ} {f : Frame}
    (h : f ∈ switchMark location dest P now triggerTime n L) :
    f = pageEnd location dest now triggerTime := by
  rw [switchMark] at h
  split at h
  · exact List.mem_singleton.mp h
  · exact absurd h List.not_mem_nil

/-- Where a frame fits an empty page, so does an end mark. -/
theorem fits_of_mem_switchMark {now triggerTime : Int64} {n : ℕ} (hn : frameHeaderSize ≤ n)
    (hfit : pageHeaderSize + n + frameHeaderSize < P.toNat)
    (h : f ∈ switchMark location dest P now triggerTime n L) :
    pageHeaderSize + f.length + frameHeaderSize < P.toNat := by
  have hlen : f.length = frameHeaderSize := by
    rw [mem_switchMark h]
    rfl
  omega

theorem Ready.mappingSize (H : Ready location dest P s L) : s.1.mappingSize = P.toNat :=
  congrArg UInt32.toNat H.holds.pageSize

theorem Ready.cursor_ok (H : Ready location dest P s L) :
    Writer.cursor s = .ok (endCursor L) := by
  rw [Writer.cursor, H.cursor]

/-- `close_page` appends an end mark and moves to the page after it. -/
theorem closePage_ready (H : Ready location dest P s L) (now triggerTime : Int64) :
    ∃ s', closePage now triggerTime s = .ok s' ∧
      Ready location dest P s' (L ++ [pageEnd location dest now triggerTime]) := by
  obtain ⟨d, w⟩ := s
  have hP : d.mappingSize = P.toNat := H.mappingSize
  have hlt : P.toNat < 2 ^ 32 := P.toNat_lt
  have hroom := H.holds.room
  simp only [frameHeaderSize] at hroom
  have hge : pageHeaderSize ≤ (endCursor L).frame := Nat.le_add_right _ _
  have hlast := H.holds.lastPageHolds
  set p := (endCursor L).page with hp
  have habsent : p + 1 ∉ d.ids := by
    rw [H.holds.mem_ids]
    omega
  have hload : onJournal Journal.loadNextPage (d, w) = .ok (d.addPage (p + 1),
      { w with journal := { w.journal with cursor := some ⟨p + 1, pageHeaderSize, 0⟩ } }) := by
    have hcur : w.journal.cursor = some (endCursor L) := H.cursor
    have hiw : w.journal.isWriting = true := H.isWriting
    rw [onJournal, Journal.loadNextPage]
    simp only [hcur]
    rw [Dir.loadPage_absent habsent (by omega) (by simp [hiw]) (by simp [hcur]; omega)]
  have hmem : (d.addPage (p + 1)).mem p = d.mem p := Dir.mem_addPage_of_ne (Nat.succ_ne_self p).symm
  have haddr : Page.lastFrameEnd (d.mem p) = (endCursor L).frame :=
    hlast.lastFrameEnd_of_vacant H.holds.vacant
  obtain ⟨m₀, hput, hopen, hlow, -⟩ := putHeader_ok P.toNat (d.mem p) (endCursor L).frame
    (by simp only [frameHeaderSize]; omega) triggerTime pageEndTag location dest
  obtain ⟨m₁, m₂, hlen, hpos, hframe, haddr', hhead, hold, -⟩ :=
    complete_ok (f := pageEnd location dest now triggerTime) hopen rfl hge
      (by simp only [Frame.length, pageEnd, frameHeaderSize, List.length_nil]; omega) hlt
  have hpage : PageHolds P m₂ (lastPage L ++ [pageEnd location dest now triggerTime]) := by
    refine hlast.concat ?_ ?_ haddr' hframe ?_
    · exact hhead.trans (hlow.mono (Set.Ico_subset_Ico_right (by simp [pageHeaderSize] at hge; omega)))
    · exact hold.trans (hlow.mono (Set.Ico_subset_Ico (Nat.zero_le _) (Nat.le_add_right _ _)))
    · simp only [Frame.length, pageEnd, frameHeaderSize, List.length_nil]
      exact hroom
  have hend : (pageEnd location dest now triggerTime).isPageEnd := by simp [Frame.isPageEnd, pageEnd]
  refine ⟨(((d.addPage (p + 1)).setMem p m₂),
    { w with journal := { w.journal with cursor := some ⟨p + 1, pageHeaderSize, 0⟩ } }), ?_, ?_⟩
  · have hsize : (d.addPage (p + 1)).mappingSize = P.toNat := hP
    have hloc : w.journal.location = location := H.location
    have hdest : w.journal.dest = dest := H.dest
    have hlen' : putLength P.toNat m₀ (endCursor L).frame now 0 = .ok m₁ := hlen
    simp only [closePage, H.cursor_ok, bind, Except.bind, hload, ← hp, hmem, hsize, haddr, hloc,
      hdest, hput, hlen', hpos]
  · exact ⟨H.holds.concat_end hend hpage, by simp [endCursor_concat_of_end hend, hp],
      H.isWriting, H.location, H.dest, H.unlocked⟩

/-- After the switch there is room for a frame that fits an empty page. -/
theorem room_switchMark (location dest : UInt32) (now triggerTime : Int64) {n : ℕ} (L : List Frame)
    (hfit : pageHeaderSize + n + frameHeaderSize < P.toNat) :
    (endCursor (L ++ switchMark location dest P now triggerTime n L)).frame + n +
      frameHeaderSize < P.toNat := by
  have hend : (pageEnd location dest now triggerTime).isPageEnd := by
    simp [Frame.isPageEnd, pageEnd]
  by_cases hfull : P.toNat - frameHeaderSize ≤ (endCursor L).frame + n
  · simpa only [switchMark, if_pos hfull, endCursor_concat_of_end hend] using hfit
  · simp only [switchMark, if_neg hfull, List.append_nil]
    omega

/-- The switch test leaves room for a frame that fits an empty page. -/
theorem switchPage_ready (H : Ready location dest P s L) (now triggerTime : Int64) {n : ℕ}
    (hfit : pageHeaderSize + n + frameHeaderSize < P.toNat) :
    ∃ s', switchPage now triggerTime n s = .ok s' ∧
      Ready location dest P s' (L ++ switchMark location dest P now triggerTime n L) ∧
      (endCursor (L ++ switchMark location dest P now triggerTime n L)).frame + n +
        frameHeaderSize < P.toNat := by
  have hborder := H.holds.lastPageHolds.addressBorder
  have hroom := room_switchMark location dest now triggerTime L hfit
  by_cases hfull : P.toNat - frameHeaderSize ≤ (endCursor L).frame + n
  · obtain ⟨s', hclose, H'⟩ := closePage_ready H now triggerTime
    refine ⟨s', ?_, ?_, hroom⟩
    · simp only [switchPage, H.cursor_ok, bind, Except.bind, hborder, if_pos hfull, hclose]
    · simpa only [switchMark, if_pos hfull] using H'
  · refine ⟨s, ?_, ?_, hroom⟩
    · simp only [switchPage, H.cursor_ok, bind, Except.bind, hborder, if_neg hfull]
    · simpa only [switchMark, if_neg hfull, List.append_nil] using H

/-! ## A frame that is being written -/

/-- The empty slot has the header and the data of `f`, with room for `n` bytes of data;
`f.genTime` is not stored yet. -/
structure Writing (location dest P : UInt32) (n : ℕ) (f : Frame) (s : State) (L : List Frame) :
    Prop where
  holds : s.1.Holds P L
  cursor : s.2.journal.cursor = some (endCursor L)
  isWriting : s.2.journal.isWriting = true
  location : s.2.journal.location = location
  dest : s.2.journal.dest = dest
  sizeToWrite : s.2.sizeToWrite = n
  opened : Opened (s.1.mem (endCursor L).page) (endCursor L).frame
    f.triggerTime f.msgType f.source f.dest
  data : (s.1.mem (endCursor L).page).load ((endCursor L).frame + frameHeaderSize) f.data.length =
    f.data
  room : (endCursor L).frame + frameHeaderSize + n + frameHeaderSize < P.toNat

theorem Writing.cursor_ok {n : ℕ} (H : Writing location dest P n f s L) :
    Writer.cursor s = .ok (endCursor L) := by
  rw [Writer.cursor, H.cursor]

/-- `open_frame` appends at most an end mark. -/
theorem openFrame_ready (H : Ready location dest P s L) (b : Build) (now triggerTime : Int64)
    (msgType : Int32) {len : UInt32}
    (hfit : pageHeaderSize + (frameHeaderSize + len.toNat) + frameHeaderSize < P.toNat) :
    ∃ s', openFrame b now triggerTime msgType len s = .ok s' ∧
      Writing location dest P len.toNat ⟨0, triggerTime, msgType, location, dest, []⟩ s'
        (L ++ switchMark location dest P now triggerTime (frameHeaderSize + len.toNat) L) := by
  obtain ⟨⟨d, w⟩, hswitch, H', hroom⟩ := switchPage_ready H now triggerTime hfit
  set L' := L ++ switchMark location dest P now triggerTime (frameHeaderSize + len.toNat) L
  have hsize : d.mappingSize = P.toNat := H'.mappingSize
  obtain ⟨m, hput, hopen, hlow, htime⟩ := putHeader_ok P.toNat
    (d.mem (endCursor L').page) (endCursor L').frame (by omega) triggerTime msgType location dest
  have hvacant : Vacant m (endCursor L').frame := vacant_of_eqOn H'.holds.vacant hlow htime
  have hlow' := hlow.mono (Set.Ico_subset_Ico_right (Nat.le_add_right (endCursor L').frame 4))
  have hassert : frameHeaderSize + len.toNat + frameHeaderSize ≤
      (Page.pageSize (s.1.mem (endCursor L).page)).toNat := by
    rw [H.holds.lastPageHolds.pageSize]
    omega
  refine ⟨(d.setMem (endCursor L').page m, { w with sizeToWrite := len.toNat, locked := true }),
    ?_, ⟨H'.holds.setMem_of_vacant hlow' hvacant, H'.cursor, H'.isWriting, H'.location, H'.dest,
      rfl, ?_, ?_, ?_⟩⟩
  · have hloc : w.journal.location = location := H'.location
    have hdest : w.journal.dest = dest := H'.dest
    simp only [openFrame, H.cursor_ok, bind, Except.bind, assertThat_of_true b hassert, H.unlocked,
      Bool.false_eq_true, if_false, hswitch, H'.cursor_ok, hsize, hloc, hdest, hput]
  · simpa using hopen
  · simp
  · simpa [Nat.add_assoc] using hroom

/-- The caller's stores put the data and the addresses of `write_as` in place. -/
theorem fillFrame_writing {n : ℕ} (H : Writing location dest P n f s L)
    {data : List UInt8} (hlen : data.length ≤ n) (as : Option (UInt32 × UInt32)) :
    ∃ s', fillFrame data as s = .ok s' ∧
      Writing location dest P n { f with source := (as.getD (f.source, f.dest)).1
                                         dest := (as.getD (f.source, f.dest)).2
                                         data := data } s' L := by
  obtain ⟨d, w⟩ := s
  have hsize : d.mappingSize = P.toNat := congrArg UInt32.toNat H.holds.pageSize
  have hroom := H.room
  set p := (endCursor L).page with hp
  set a := (endCursor L).frame with ha
  have hhl : (FrameHeader.headerLength (d.mem p) a).toNat = frameHeaderSize := H.opened.headerLength
  simp only [frameHeaderSize] at hroom hhl
  let m := (d.mem p).store (a + 36) data
  have hopen : Opened m a f.triggerTime f.msgType f.source f.dest :=
    H.opened.store (Or.inr (Or.inr le_rfl))
  have hdata : m.load (a + 36) data.length = data := Mem.load_store_same _ _ _
  have heq : Set.EqOn m (d.mem p) (Set.Ico 0 (a + 36)) := Mem.eqOn_store _ _ (Or.inl le_rfl)
  have hstore : storeAt P.toNat (d.mem p) (a + 36) data = .ok m := storeAt_ok _ (by omega)
  cases as with
  | none =>
      have hvacant : Vacant m a := H.holds.vacant.eqOn heq (Nat.zero_le a) le_rfl
      refine ⟨(d.setMem p m, w), ?_, ⟨H.holds.setMem_of_vacant ?_ hvacant, H.cursor, H.isWriting,
        H.location, H.dest, H.sizeToWrite, ?_, ?_, H.room⟩⟩
      · simp only [fillFrame, H.cursor_ok, bind, Except.bind, hsize, ← hp, ← ha, hhl, hstore]
      · exact heq.mono (Set.Ico_subset_Ico_right (Nat.le_add_right a 36))
      · simpa [← hp, ← ha] using hopen
      · simpa [← hp, ← ha, frameHeaderSize] using hdata
  | some addr =>
      obtain ⟨source', dest'⟩ := addr
      let m' := (m.put (a + 28) source').put (a + 32) dest'
      have heq' : Set.EqOn m' m (Set.Ico 0 (a + 28)) :=
        (Mem.eqOn_put _ _ (Or.inl (by omega))).trans (Mem.eqOn_put _ _ (Or.inl le_rfl))
      have hvacant : Vacant m' a := by
        constructor
        · rw [← H.holds.vacant.frameLength]
          exact Mem.get_eqOn (heq'.trans (heq.mono (Set.Ico_subset_Ico_right (by omega))))
            (Nat.zero_le a) (by simp)
        · rw [← H.holds.vacant.genTime]
          exact Mem.get_eqOn (heq'.trans (heq.mono (Set.Ico_subset_Ico_right (by omega))))
            (Nat.zero_le _) (by simp)
      have hdata' : m'.load (a + 36) data.length = data := by
        rw [Mem.load_put_of_disjoint _ _ (Or.inr (by simp)),
          Mem.load_put_of_disjoint _ _ (Or.inr (by simp)), hdata]
      refine ⟨(d.setMem p m', w), ?_, ⟨H.holds.setMem_of_vacant ?_ hvacant, H.cursor, H.isWriting,
        H.location, H.dest, H.sizeToWrite, ?_, ?_, H.room⟩⟩
      · have hsource : putAt P.toNat m (a + 28) source' = .ok (m.put (a + 28) source') :=
          putAt_ok _ _ (by simp; omega)
        have hdest : putAt P.toNat (m.put (a + 28) source') (a + 32) dest' = .ok m' :=
          putAt_ok _ _ (by simp; omega)
        simp only [fillFrame, H.cursor_ok, bind, Except.bind, hsize, ← hp, ← ha, hhl, hstore,
          hsource, hdest]
      · exact (heq'.mono (Set.Ico_subset_Ico_right (by omega))).trans
          (heq.mono (Set.Ico_subset_Ico_right (by omega)))
      · simpa [← hp, ← ha] using hopen.address source' dest'
      · simpa [← hp, ← ha, frameHeaderSize] using hdata'

/-! ## Completed frames -/

/-- Moving past a completed frame, onto the next page after an end mark. -/
theorem next_ready {w : Writer} (H : Ready location dest P (d, w) L) {m : Mem}
    (hpage : PageHolds P m (lastPage L ++ [f])) (hvacant : Vacant m ((endCursor L).frame + f.length))
    (hroom : (endCursor L).frame + f.length + frameHeaderSize < P.toNat) :
    ∃ s', onJournal Journal.next (d.setMem (endCursor L).page m, w) = .ok s' ∧
      Ready location dest P s' (L ++ [f]) := by
  have hcur : w.journal.cursor = some (endCursor L) := H.cursor
  have hiw : w.journal.isWriting = true := H.isWriting
  by_cases hend : f.isPageEnd
  · have hty : FrameHeader.msgType m (endCursor L).frame = pageEndTag := by
      have htype : f.msgType = pageEndTag := by simpa [Frame.isPageEnd] using hend
      exact hpage.frameAt.msgType.trans htype
    have habsent : (endCursor L).page + 1 ∉ (d.setMem (endCursor L).page m).ids := by
      rw [Dir.ids_setMem, H.holds.mem_ids]
      omega
    have hP : pageHeaderSize < (d.setMem (endCursor L).page m).mappingSize := by
      rw [Dir.mappingSize_setMem, show d.mappingSize = P.toNat from H.mappingSize]
      have hge : pageHeaderSize ≤ (endCursor L).frame := Nat.le_add_right _ _
      omega
    refine ⟨((d.addPage ((endCursor L).page + 1)).setMem (endCursor L).page m,
      { w with journal := { w.journal with
          cursor := some ⟨(endCursor L).page + 1, pageHeaderSize, 0⟩ } }), ?_,
      ⟨H.holds.concat_end hend hpage, ?_, H.isWriting, H.location, H.dest, H.unlocked⟩⟩
    · rw [onJournal, Journal.next]
      simp only [hcur, Dir.mem_setMem_same, hty, if_true, Journal.loadNextPage]
      rw [Dir.loadPage_absent habsent hP (by simp [hiw]) (by simp [hcur]),
        Dir.addPage_setMem (Nat.succ_ne_self _).symm]
    · rw [endCursor_concat_of_end hend]
  · have H' := H.holds.concat (by simpa using hend) hpage hvacant hroom
    obtain ⟨d', hnext, H''⟩ := H'.next (n := L.length) (by simp) w.journal (by simpa using hcur)
    refine ⟨(d', { w with journal := { w.journal with cursor := some (endCursor (L ++ [f])) } }),
      ?_, ⟨H'', rfl, H.isWriting, H.location, H.dest, H.unlocked⟩⟩
    rw [onJournal, hnext, List.take_of_length_le (by simp)]

/-- `close_frame` appends the frame it completes. -/
theorem closeFrame_ready {n : ℕ} (H : Writing location dest P n f s L) (b : Build)
    (hlen : f.data.length ≤ n) :
    ∃ s', closeFrame b f.data.length f.genTime s = .ok s' ∧
      Ready location dest P s' (L ++ [f]) := by
  obtain ⟨d, w⟩ := s
  have hsize : d.mappingSize = P.toNat := congrArg UInt32.toNat H.holds.pageSize
  have hlt : P.toNat < 2 ^ 32 := P.toNat_lt
  have hroom := H.room
  have hge : pageHeaderSize ≤ (endCursor L).frame := Nat.le_add_right _ _
  have hlast := H.holds.lastPageHolds
  have hborder := hlast.addressBorder
  have hflen : f.length = 36 + f.data.length := rfl
  set p := (endCursor L).page with hp
  set a := (endCursor L).frame with ha
  have hhl : (FrameHeader.headerLength (d.mem p) a).toNat = frameHeaderSize := H.opened.headerLength
  simp only [frameHeaderSize] at hroom hhl
  -- the header of the next slot is zeroed before this frame becomes visible
  let m := (d.mem p).store (a + 36 + f.data.length) (List.replicate frameHeaderSize 0)
  have hstore : storeAt P.toNat (d.mem p) (a + 36 + f.data.length)
      (List.replicate frameHeaderSize 0) = .ok m :=
    storeAt_ok _ (by simp [frameHeaderSize]; omega)
  have hopen : Opened m a f.triggerTime f.msgType f.source f.dest :=
    H.opened.store (Or.inr (Or.inr (by omega)))
  have hkeep : Set.EqOn m (d.mem p) (Set.Ico 0 (a + 36 + f.data.length)) :=
    Mem.eqOn_store _ _ (Or.inl le_rfl)
  have hdata : m.load (a + frameHeaderSize) f.data.length = f.data :=
    (Mem.load_eqOn hkeep (Nat.zero_le _) (by simp [frameHeaderSize])).trans H.data
  have hnext : Vacant m (a + 36 + f.data.length) := by
    refine Vacant.of_zero fun i hi => ?_
    simp [m, Mem.store, hi]
  obtain ⟨m₁, m₂, hput, hpos, hframe, haddr, hhead, hold, hrest⟩ :=
    complete_ok hopen hdata hge (by omega) hlt
  have hpage : PageHolds P m₂ (lastPage L ++ [f]) := by
    refine hlast.concat ?_ ?_ haddr hframe (by simp only [endCursor] at *; omega)
    · exact hhead.trans (hkeep.mono (Set.Ico_subset_Ico_right (by simp [pageHeaderSize] at hge; omega)))
    · exact hold.trans (hkeep.mono (Set.Ico_subset_Ico (Nat.zero_le _) (by omega)))
  have hvacant : Vacant m₂ (a + f.length) := by
    rw [hflen, ← Nat.add_assoc]
    exact hnext.eqOn (hrest _) (by omega) le_rfl
  have hready : Ready location dest P (d, { w with sizeToWrite := 0, locked := false }) L :=
    ⟨H.holds, H.cursor, H.isWriting, H.location, H.dest, rfl⟩
  obtain ⟨s', hmove, H'⟩ := next_ready hready hpage hvacant (by simp only [frameHeaderSize]; omega)
  refine ⟨s', ?_, H'⟩
  have hsize' : f.data.length ≤ w.sizeToWrite := H.sizeToWrite.symm ▸ hlen
  have hfits : a + 36 + f.data.length < Page.addressBorder (d.mem p) := by
    rw [hborder, frameHeaderSize]
    omega
  simp only [closeFrame, assertThat_of_true b hsize', H.cursor_ok, bind, Except.bind, hsize, ← hp,
    ← ha, hhl, assertThat_of_true b hfits, hstore, hput, hpos]
  exact hmove

/-- A whole write of a record that fits a page appends its frame. -/
theorem write_ready (H : Ready location dest P s L) (b : Build) (now : Int64) {r : Record}
    (hlen : r.data.length ≤ r.length.toNat)
    (hfit : pageHeaderSize + (frameHeaderSize + r.length.toNat) + frameHeaderSize < P.toNat) :
    ∃ s', write b now r s = .ok s' ∧ Ready location dest P s' (L ++
      switchMark location dest P now r.triggerTime (frameHeaderSize + r.length.toNat) L ++
        [r.toFrame location dest]) := by
  obtain ⟨s₁, hopen, H₁⟩ := openFrame_ready H b now r.triggerTime r.msgType hfit
  obtain ⟨s₂, hfill, H₂⟩ := fillFrame_writing H₁ hlen r.as
  obtain ⟨s₃, hclose, H₃⟩ :=
    closeFrame_ready (f := r.toFrame location dest) (s := s₂)
      ⟨H₂.holds, H₂.cursor, H₂.isWriting, H₂.location, H₂.dest, H₂.sizeToWrite, H₂.opened, H₂.data,
        H₂.room⟩ b hlen
  refine ⟨s₃, ?_, H₃⟩
  have hclose' : closeFrame b r.data.length r.genTime s₂ = .ok s₃ := hclose
  simp only [write, bind, Except.bind, hopen, hfill, hclose']

/-- `copy_frame` appends the frame it copies. -/
theorem copyFrame_ready (H : Ready location dest P s L) (b : Build) (triggerTime now : Int64)
    {src : Mem} {a₀ : ℕ} (hsrc : FrameAt src a₀ f)
    (hfit : pageHeaderSize + f.length + frameHeaderSize < P.toNat) :
    ∃ s', copyFrame b triggerTime now src a₀ s = .ok s' ∧ Ready location dest P s' (L ++
      switchMark location dest P now triggerTime f.length L ++ [f]) := by
  obtain ⟨⟨d, w⟩, hswitch, H', hroom⟩ := switchPage_ready H now triggerTime hfit
  set L' := L ++ switchMark location dest P now triggerTime f.length L
  have hsize : d.mappingSize = P.toNat := H'.mappingSize
  have hlt : P.toNat < 2 ^ 32 := P.toNat_lt
  have hge : pageHeaderSize ≤ (endCursor L').frame := Nat.le_add_right _ _
  have hlast := H'.holds.lastPageHolds
  have hassert : f.length + frameHeaderSize ≤
      (Page.pageSize (s.1.mem (endCursor L).page)).toNat := by
    rw [H.holds.lastPageHolds.pageSize]
    omega
  set p := (endCursor L').page with hp
  set a := (endCursor L').frame with ha
  have hflen : f.length = 36 + f.data.length := rfl
  simp only [frameHeaderSize] at hroom
  let m := (d.mem p).store a (src.load a₀ f.length)
  have hcopy : storeAt P.toNat (d.mem p) a (src.load a₀ f.length) = .ok m :=
    storeAt_ok _ (by simp; omega)
  have hframe : FrameAt m a f := by
    refine hsrc.congr fun i hi => ?_
    simp [m, Mem.store, Mem.load, hi]
  have hhl : (FrameHeader.headerLength m a).toNat = 36 := hframe.headerLength
  have hdl := hframe.dataLength
  let m₁ := m.store (a + 36 + f.data.length) (List.replicate frameHeaderSize 0)
  have hzero : storeAt P.toNat m (a + 36 + f.data.length) (List.replicate frameHeaderSize 0) =
      .ok m₁ := storeAt_ok _ (by simp [frameHeaderSize]; omega)
  have hkeep : Set.EqOn m₁ m (Set.Ico 0 (a + 36 + f.data.length)) :=
    Mem.eqOn_store _ _ (Or.inl le_rfl)
  have hkeep' : Set.EqOn m (d.mem p) (Set.Ico 0 a) := Mem.eqOn_store _ _ (Or.inl le_rfl)
  have hnext : Vacant m₁ (a + 36 + f.data.length) := by
    refine Vacant.of_zero fun i hi => ?_
    simp [m₁, Mem.store, hi]
  obtain ⟨m₂, hpos, haddr, hhead, hrest⟩ := putLastFramePosition_ok P.toNat m₁ a
    (by omega) (by omega)
  have hpage : PageHolds P m₂ (lastPage L' ++ [f]) := by
    refine hlast.concat ?_ ?_ haddr ?_ (by simp only [endCursor] at *; omega)
    · have h16 : 16 ≤ a := by simp [pageHeaderSize] at hge; omega
      exact hhead.trans ((hkeep.mono (Set.Ico_subset_Ico_right (by omega))).trans
        (hkeep'.mono (Set.Ico_subset_Ico_right h16)))
    · exact (hrest a).trans ((hkeep.mono (Set.Ico_subset_Ico (Nat.zero_le _) (by omega))).trans
        (hkeep'.mono (Set.Ico_subset_Ico (Nat.zero_le _) le_rfl)))
    · exact (hframe.eqOn hkeep (Nat.zero_le _) (by omega)).eqOn (hrest (a + f.length)) hge le_rfl
  have hvacant : Vacant m₂ (a + f.length) := by
    rw [hflen, ← Nat.add_assoc]
    exact hnext.eqOn (hrest _) (by omega) le_rfl
  obtain ⟨s', hmove, H''⟩ := next_ready H' hpage hvacant (by simp only [frameHeaderSize]; omega)
  refine ⟨s', ?_, H''⟩
  simp only [copyFrame, H.cursor_ok, bind, Except.bind, hsrc.frameLength,
    assertThat_of_true b hassert, hswitch, H'.cursor_ok, hsize, ← hp, ← ha, hcopy, hhl, hdl, hzero,
    hpos]
  exact hmove

end Writer

end Kungfu.Yijinjing
