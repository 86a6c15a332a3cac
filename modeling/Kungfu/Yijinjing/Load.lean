import Kungfu.Yijinjing.Layout
import Mathlib.Data.List.TakeWhile
import Mathlib.Order.Interval.Set.Basic

/-!
# Loading pages of a journal

A page that exists is loaded without changing what the directory holds: a writable
load only zeroes the last byte of the mapping, past every frame and past the empty
slot.  The page after the last one is created empty by a writable load.  From these two
facts the journal's `next` walks the list of frames, one index at a time.
-/

namespace Kungfu.Yijinjing

open Memory

variable {d : Dir} {P : UInt32} {L : List Frame}

/-! ## Pages that exist -/

theorem Page.checkHeader_ok {m : Mem} {fs : List Frame} {id : ℕ} (hm : d.mem id = m)
    (H : PageHolds d.pageSize m fs) : Page.checkHeader d id = .ok d := by
  subst hm
  simp [Page.checkHeader, H.version, H.headerLength, H.pageSize]

namespace Dir

theorem mem_stretch_same {id : ℕ} (h : id ∈ d.ids) :
    (d.stretch id).mem id = (d.mem id).store (d.mappingSize - 1) [0] := by
  simp [mem, stretch, openFile, h]

theorem mem_stretch_of_ne {id i : ℕ} (h : i ≠ id) : (d.stretch id).mem i = d.mem i := by
  simp [mem, stretch, h]

theorem eqOn_stretch {id : ℕ} (h : id ∈ d.ids) (i : ℕ) :
    Set.EqOn ((d.stretch id).mem i) (d.mem i) (Set.Ico 0 (d.mappingSize - 1)) := by
  by_cases hi : i = id
  · subst hi
    rw [mem_stretch_same h]
    exact Mem.eqOn_store _ _ (Or.inl le_rfl)
  · rw [mem_stretch_of_ne hi]
    exact Set.eqOn_refl _ _

namespace Holds

/-- Stretching a page file again changes nothing that is held. -/
theorem stretch (H : d.Holds P L) {id : ℕ} (h : id ∈ d.ids) : (d.stretch id).Holds P L := by
  have hP : d.mappingSize = P.toNat := congrArg UInt32.toNat H.pageSize
  have heq := eqOn_stretch h
  rw [hP] at heq
  refine ⟨H.pageSize, ?_, ?_, ?_, ?_, H.room⟩
  · simpa [Dir.stretch, h] using H.ids
  · intro i hi
    have hi' : i ∈ d.ids := by simpa [Dir.stretch, h] using hi
    by_cases hid : i = id
    · subst hid
      simp [Dir.stretch, hP]
    · simpa [Dir.stretch, hid] using H.sizes i hi'
  · intro i fs hfs
    have hpage := H.page i fs hfs
    have hfits := hpage.fits
    exact hpage.eqOn ((heq (i + 1)).mono (Set.Ico_subset_Ico_right (by omega)))
  · have hroom := H.room
    exact H.vacant.eqOn (heq _) (Nat.zero_le _) (by omega)

/-- Loading a page that exists succeeds; a read-only load does not touch it. -/
theorem load (H : d.Holds P L) {id : ℕ} (h : id ∈ d.ids) (isWriting lazy : Bool) :
    ∃ d', Page.load d id isWriting lazy = .ok d' ∧ d'.Holds P L ∧
      ((isWriting || !lazy) = false → d' = d) := by
  by_cases hw : (isWriting || !lazy) = true
  · have H' := H.stretch h
    obtain ⟨fs, -, hpage⟩ := H'.exists_pageHolds (H'.mem_ids.mpr (H.mem_ids.mp h))
    refine ⟨d.stretch id, ?_, H', fun hf => absurd hw (by simp [hf])⟩
    rw [Page.load, if_pos hw]
    simp only [if_neg hpage.lastFramePosition_ne]
    exact Page.checkHeader_ok rfl (H'.pageSize ▸ hpage)
  · obtain ⟨fs, -, hpage⟩ := H.exists_pageHolds h
    have hsize : ¬ (d.file id).size < pageHeaderSize := by
      have := H.sizes id h
      have := hpage.fits
      omega
    refine ⟨d, ?_, H, fun _ => rfl⟩
    rw [Page.load, if_neg hw, if_neg (not_not.mpr h), if_neg hsize,
      if_neg hpage.lastFramePosition_ne]
    exact Page.checkHeader_ok rfl (H.pageSize ▸ hpage)

/-- A page switch to an existing page. -/
theorem loadPage (H : d.Holds P L) {id : ℕ} (h : id ∈ d.ids) (j : Journal) :
    ∃ d', Journal.loadPage (d, j) id =
        .ok (d', { j with cursor := some ⟨id, pageHeaderSize, 0⟩ }) ∧ d'.Holds P L := by
  have henter : ∀ {d' : Dir}, d'.Holds P L → j.enterPage d' id =
      { j with cursor := some ⟨id, pageHeaderSize, 0⟩ } := by
    intro d' H'
    obtain ⟨fs, -, hpage⟩ := H'.exists_pageHolds (H'.mem_ids.mpr (H.mem_ids.mp h))
    rw [Journal.enterPage, hpage.firstFrameAddress]
  by_cases hcur : j.cursor.map Cursor.page = some id
  · refine ⟨d, ?_, H⟩
    simp only [Journal.loadPage, if_pos hcur, henter H]
  · obtain ⟨d', hload, H', -⟩ := H.load h j.isWriting j.lazy
    refine ⟨d', ?_, H'⟩
    simp only [Journal.loadPage, if_neg hcur, hload, henter H']

/-- `journal::next` on frame `n` moves the cursor to position `n + 1`. -/
theorem next (H : d.Holds P L) {n : ℕ} (hn : n < L.length) (j : Journal)
    (hj : j.cursor = some (endCursor (L.take n))) :
    ∃ d', Journal.next (d, j) =
        .ok (d', { j with cursor := some (endCursor (L.take (n + 1))) }) ∧ d'.Holds P L := by
  obtain ⟨-, hat⟩ := H.frameAt hn
  rw [Journal.next, hj]
  simp only [hat.msgType, List.take_add_one, List.getElem?_eq_getElem hn, Option.toList_some]
  by_cases hend : (L[n]).isPageEnd
  · have hty : (L[n]).msgType = pageEndTag := by simpa [Frame.isPageEnd] using hend
    have hmem : (endCursor (L.take n)).page + 1 ∈ d.ids := by
      have hpre := (Segment.closed_append Frame.isPageEnd (L.take (n + 1)) (L.drop (n + 1))).length_le
      rw [List.take_append_drop, List.take_add_one, List.getElem?_eq_getElem hn,
        Option.toList_some, Segment.split_concat_of_end _ _ hend] at hpre
      rw [H.mem_ids]
      simp only [endCursor, closedPages, List.length_append, List.length_singleton] at hpre ⊢
      omega
    rw [if_pos hty, Journal.loadNextPage, hj, endCursor_concat_of_end hend]
    exact H.loadPage hmem j
  · have hend' : (L[n]).isPageEnd = false := by simpa using hend
    have hty : (L[n]).msgType ≠ pageEndTag := by simpa [Frame.isPageEnd] using hend
    refine ⟨d, ?_, H⟩
    rw [if_neg hty, hat.frameLength, endCursor_concat_of_not_end hend']

end Holds

/-! ## The page after the last -/

/-- The directory after a writable load of a page that did not exist. -/
def addPage (d : Dir) (id : ℕ) : Dir :=
  (d.stretch id).setMem id (Page.initHeader d.pageSize ((d.stretch id).mem id))

theorem mem_addPage_of_ne {id i : ℕ} (h : i ≠ id) : (d.addPage id).mem i = d.mem i := by
  rw [addPage, mem_setMem_of_ne _ _ h, mem_stretch_of_ne h]

theorem mem_stretch_absent {id : ℕ} (h : id ∉ d.ids) : (d.stretch id).mem id = fun _ => 0 := by
  simp only [mem, Dir.stretch, openFile, if_neg h, PageFile.fresh, Function.update_self]
  funext i
  rcases Nat.lt_trichotomy i (d.mappingSize - 1) with hlt | rfl | hgt
  · exact Mem.store_apply_of_lt _ _ hlt
  · simp [Mem.store]
  · exact Mem.store_apply_of_le _ _ hgt

theorem mem_addPage_same {id : ℕ} (h : id ∉ d.ids) :
    (d.addPage id).mem id = Page.initHeader d.pageSize fun _ => 0 := by
  rw [addPage, mem_setMem_same, mem_stretch_absent h]

/-- What `page::load` leaves in a page nobody has used: a header and an empty slot. -/
theorem initHeader_holds {P : UInt32} (hP : pageHeaderSize < P.toNat) :
    PageHolds P (Page.initHeader P fun _ => 0) [] := by
  refine ⟨?_, ?_, ?_, ?_, trivial, by simpa using hP⟩
  · simp [Page.version, Page.initHeader, Mem.get_put_of_disjoint]
  · simp [Page.pageHeaderLength, Page.initHeader, Mem.get_put_of_disjoint, pageHeaderSize]
  · simp [Page.pageSize, Page.initHeader, Mem.get_put_of_disjoint]
  · simp [Page.lastFrameAddress, Page.lastFramePosition, Page.initHeader, pageHeaderSize]

theorem initHeader_vacant (P : UInt32) :
    Vacant (Page.initHeader P fun _ => 0) pageHeaderSize := by
  have heq : Set.EqOn (Page.initHeader P fun _ => 0) (fun _ => 0)
      (Set.Ico pageHeaderSize (pageHeaderSize + frameHeaderSize)) := by
    refine (Mem.eqOn_put _ _ (Or.inr (by simp [pageHeaderSize]))).trans ?_
    refine (Mem.eqOn_put _ _ (Or.inr (by simp [pageHeaderSize]))).trans ?_
    refine (Mem.eqOn_put _ _ (Or.inr (by simp [pageHeaderSize]))).trans ?_
    refine (Mem.eqOn_put _ _ (Or.inr (by simp [pageHeaderSize]))).trans ?_
    exact Mem.eqOn_put _ _ (Or.inr (by simp [pageHeaderSize]))
  exact Vacant.of_zero fun i hi => heq ⟨Nat.le_add_right _ _, by omega⟩

/-- A writable load creates a page that is not there. -/
theorem load_absent {id : ℕ} (h : id ∉ d.ids) (hP : pageHeaderSize < d.mappingSize)
    {isWriting lazy : Bool} (hw : isWriting || !lazy) :
    Page.load d id isWriting lazy = .ok (d.addPage id) := by
  have hzero : Page.lastFramePosition ((d.stretch id).mem id) = 0 := by
    rw [mem_stretch_absent h]
    exact Mem.get_of_zero fun _ _ => rfl
  rw [Page.load, if_pos hw]
  simp only [if_pos hzero]
  exact Page.checkHeader_ok (mem_addPage_same h) (initHeader_holds hP)

theorem loadPage_absent {id : ℕ} (h : id ∉ d.ids) (hP : pageHeaderSize < d.mappingSize)
    {j : Journal} (hw : j.isWriting || !j.lazy) (hj : j.cursor.map Cursor.page ≠ some id) :
    Journal.loadPage (d, j) id =
      .ok (d.addPage id, { j with cursor := some ⟨id, pageHeaderSize, 0⟩ }) := by
  have hhead := initHeader_holds hP
  simp only [Journal.loadPage, if_neg hj, load_absent h hP hw, Journal.enterPage,
    mem_addPage_same h, hhead.firstFrameAddress]

theorem ids_addPage {n : ℕ} (h : d.ids = List.range' 1 n) :
    (d.addPage (n + 1)).ids = List.range' 1 (n + 1) := by
  have hlt : ∀ i ∈ List.range' 1 n, ¬ n + 1 ≤ i := fun i hi => by
    have := (List.mem_range'_1.mp hi).2
    omega
  have habsent : n + 1 ∉ List.range' 1 n := fun hmem => hlt _ hmem le_rfl
  have htake : (List.range' 1 n).takeWhile (fun i => decide ¬ n + 1 ≤ i) = List.range' 1 n :=
    List.takeWhile_eq_self_iff.mpr fun i hi => decide_eq_true (hlt i hi)
  have hdrop : (List.range' 1 n).dropWhile (fun i => decide ¬ n + 1 ≤ i) = [] :=
    List.dropWhile_eq_nil_iff.mpr fun i hi => decide_eq_true (hlt i hi)
  simp only [addPage, ids_setMem, Dir.stretch, h, if_neg habsent,
    List.orderedInsert_eq_take_drop, htake, hdrop]
  rw [List.range'_1_concat, Nat.add_comm 1 n]

theorem size_addPage_same {id : ℕ} : d.mappingSize ≤ ((d.addPage id).file id).size := by
  simp [addPage, Dir.stretch]

theorem size_addPage_of_ne {id i : ℕ} (h : i ≠ id) :
    ((d.addPage id).file i).size = (d.file i).size := by
  simp [addPage, Dir.stretch, h]

/-- The directory of a journal whose first page has just been created. -/
theorem holds_addPage_empty (hids : d.ids = [])
    (hP : pageHeaderSize + frameHeaderSize < d.mappingSize) :
    (d.addPage 1).Holds d.pageSize [] := by
  have habsent : 1 ∉ d.ids := by simp [hids]
  have hmem := mem_addPage_same habsent
  refine ⟨rfl, ids_addPage (n := 0) hids, ?_, ?_, ?_, hP⟩
  · intro i hi
    have hi' : i = 1 := by simpa [ids_addPage (n := 0) hids] using hi
    exact hi' ▸ size_addPage_same
  · intro i fs hfs
    obtain ⟨rfl, rfl⟩ : i = 0 ∧ fs = [] := by
      cases i with
      | zero => simpa [pages, Segment.all] using hfs.symm
      | succ i => simp [pages, Segment.all] at hfs
    exact hmem ▸ initHeader_holds (by simp only [mappingSize] at hP; omega)
  · exact hmem ▸ initHeader_vacant d.pageSize

end Dir

end Kungfu.Yijinjing
