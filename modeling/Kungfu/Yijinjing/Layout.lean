import Kungfu.Yijinjing.Writer
import Kungfu.Log.Segment

/-!
# What a directory holds

The frames of a journal form one list, in write order, and the end marks among them
cut it into pages.  `Dir.Holds d P L` says that the page files of `d` are exactly the
list `L`: a page file for every segment, its frames one after another from the first
slot on, and an empty slot after the last frame of the last page.

A position in `L` is a cursor that later appends do not move: `endCursor (L.take n)` is
where frame `n` stands, and `endCursor L` is the empty slot.
-/

namespace Kungfu.Yijinjing

open Memory

/-! ## Runs of frames -/

/-- `frame::has_data`, of a complete frame. -/
def Frame.hasData (f : Frame) : Bool := decide (0 < f.msgType)

/-- The journal continues on the next page after this frame. -/
def Frame.isPageEnd (f : Frame) : Bool := f.msgType == pageEndTag

/-- Bytes that frames occupy. -/
def span (fs : List Frame) : ℕ := (fs.map Frame.length).sum

@[simp] theorem span_nil : span [] = 0 := rfl

@[simp] theorem span_cons (f : Frame) (fs : List Frame) :
    span (f :: fs) = f.length + span fs := by simp [span]

@[simp] theorem span_append (fs gs : List Frame) : span (fs ++ gs) = span fs + span gs := by
  simp [span]

theorem length_le_span (fs : List Frame) : fs.length ≤ span fs := by
  induction fs with
  | nil => exact le_rfl
  | cons f fs ih =>
      have hpos := f.length_pos
      rw [span_cons, List.length_cons]
      omega

/-- The frames stand one after another from offset `a` on. -/
def FramesAt (m : Mem) : ℕ → List Frame → Prop
  | _, [] => True
  | a, f :: fs => FrameAt m a f ∧ FramesAt m (a + f.length) fs

theorem framesAt_append {m : Mem} {a : ℕ} {fs gs : List Frame} :
    FramesAt m a (fs ++ gs) ↔ FramesAt m a fs ∧ FramesAt m (a + span fs) gs := by
  induction fs generalizing a with
  | nil => simp [FramesAt]
  | cons f fs ih => simp only [List.cons_append, FramesAt, ih, span_cons, Nat.add_assoc, and_assoc]

theorem FramesAt.eqOn {m m' : Mem} {a lo hi : ℕ} {fs : List Frame} (H : FramesAt m a fs)
    (h : Set.EqOn m' m (Set.Ico lo hi)) (hlo : lo ≤ a) (hhi : a + span fs ≤ hi) :
    FramesAt m' a fs := by
  induction fs generalizing a with
  | nil => trivial
  | cons f fs ih =>
      rw [span_cons, ← Nat.add_assoc] at hhi
      exact ⟨H.1.eqOn h hlo (by omega), ih H.2 (by omega) hhi⟩

/-- An empty slot, possibly with the header of a frame that was never closed. -/
structure Vacant (m : Mem) (a : ℕ) : Prop where
  frameLength : FrameHeader.frameLength m a = 0
  genTime : FrameHeader.genTime m a = 0

theorem Vacant.hasData {m : Mem} {a : ℕ} (H : Vacant m a) :
    FrameHeader.hasData m a = false := by
  simp [FrameHeader.hasData, H.frameLength]

theorem Vacant.of_zero {m : Mem} {a : ℕ} (h : ∀ i < frameHeaderSize, m (a + i) = 0) :
    Vacant m a := by
  constructor
  · exact Mem.get_of_zero fun i hi => h i (Nat.lt_trans hi (by decide))
  · refine Mem.get_of_zero fun i hi => ?_
    rw [Nat.add_assoc]
    exact h (8 + i) (by simp [frameHeaderSize] at hi ⊢; omega)

theorem Vacant.eqOn {m m' : Mem} {a lo hi : ℕ} (H : Vacant m a)
    (h : Set.EqOn m' m (Set.Ico lo hi)) (hlo : lo ≤ a) (hhi : a + frameHeaderSize ≤ hi) :
    Vacant m' a := by
  simp only [frameHeaderSize] at hhi
  constructor
  · rw [← H.frameLength]
    exact Mem.get_eqOn h hlo (by simp; omega)
  · rw [← H.genTime]
    exact Mem.get_eqOn h (by omega) (by simp; omega)

/-! ## One page -/

/-- A page of `P` bytes with its header, holding exactly the frames `fs`. -/
structure PageHolds (P : UInt32) (m : Mem) (fs : List Frame) : Prop where
  version : Page.version m = journalVersion
  headerLength : (Page.pageHeaderLength m).toNat = pageHeaderSize
  pageSize : Page.pageSize m = P
  lastFrame : Page.lastFrameAddress m = pageHeaderSize + span fs.dropLast
  frames : FramesAt m pageHeaderSize fs
  fits : pageHeaderSize + span fs < P.toNat

namespace PageHolds

variable {P : UInt32} {m m' : Mem} {fs : List Frame}

theorem lastFramePosition_ne (H : PageHolds P m fs) : Page.lastFramePosition m ≠ 0 := by
  intro h
  have := H.lastFrame
  simp [Page.lastFrameAddress, h, pageHeaderSize] at this
  omega

theorem firstFrameAddress (H : PageHolds P m fs) : Page.firstFrameAddress m = pageHeaderSize :=
  H.headerLength

theorem addressBorder (H : PageHolds P m fs) :
    Page.addressBorder m = P.toNat - frameHeaderSize := by
  rw [Page.addressBorder, H.pageSize]

/-- The frame after a prefix of the page stands where the prefix ends. -/
theorem frameAt {gs hs : List Frame} {f : Frame} (H : PageHolds P m (gs ++ f :: hs)) :
    FrameAt m (pageHeaderSize + span gs) f :=
  (framesAt_append.mp H.frames).2.1

/-- The last frame of the page, where `last_frame_position` points. -/
theorem frameAt_last {gs : List Frame} {f : Frame} (H : PageHolds P m (gs ++ [f])) :
    FrameAt m (Page.lastFrameAddress m) f := by
  rw [H.lastFrame, List.dropLast_concat]
  exact H.frameAt

theorem lastFrameEnd {gs : List Frame} {f : Frame} (H : PageHolds P m (gs ++ [f])) :
    Page.lastFrameEnd m = pageHeaderSize + span (gs ++ [f]) := by
  rw [Page.lastFrameEnd, H.frameAt_last.frameLength, H.lastFrame, List.dropLast_concat,
    span_append, span_cons, span_nil, Nat.add_zero, Nat.add_assoc]

/-- Before an empty slot, also on a page without frames. -/
theorem lastFrameEnd_of_vacant (H : PageHolds P m fs) (hv : Vacant m (pageHeaderSize + span fs)) :
    Page.lastFrameEnd m = pageHeaderSize + span fs := by
  rcases List.eq_nil_or_concat' fs with rfl | ⟨gs, f, rfl⟩
  · have hlast : Page.lastFrameAddress m = pageHeaderSize := by simpa using H.lastFrame
    have hlen : FrameHeader.frameLength m pageHeaderSize = 0 := by simpa using hv.frameLength
    simp [Page.lastFrameEnd, hlast, hlen]
  · exact H.lastFrameEnd

theorem endTime {gs : List Frame} {f : Frame} (H : PageHolds P m (gs ++ [f])) :
    Page.endTime m = f.genTime :=
  H.frameAt_last.genTime

theorem beginTime {f : Frame} (H : PageHolds P m (f :: fs)) : Page.beginTime m = f.genTime := by
  rw [Page.beginTime, H.firstFrameAddress]
  exact H.frames.1.genTime

/-- Bytes past the frames are free to change. -/
theorem eqOn (H : PageHolds P m fs)
    (h : Set.EqOn m' m (Set.Ico 0 (pageHeaderSize + span fs))) : PageHolds P m' fs := by
  have hfield : ∀ {α : Type} [Scalar α] (k : ℕ), k + Scalar.width α ≤ pageHeaderSize →
      m'.get α k = m.get α k := fun k hk => Mem.get_eqOn h (Nat.zero_le k) (by omega)
  refine ⟨?_, ?_, ?_, ?_, H.frames.eqOn h (Nat.zero_le _) le_rfl, H.fits⟩
  · exact (hfield 0 (by simp [pageHeaderSize])).trans H.version
  · rw [← H.headerLength]
    exact congrArg UInt32.toNat (hfield 4 (by simp [pageHeaderSize]))
  · exact (hfield 8 (by simp [pageHeaderSize])).trans H.pageSize
  · rw [← H.lastFrame]
    exact congrArg UInt64.toNat (hfield 16 (by simp [pageHeaderSize]))

/-- A frame stored in the slot after the others, with `last_frame_position` moved to it. -/
theorem concat {f : Frame} (H : PageHolds P m fs)
    (hhead : Set.EqOn m' m (Set.Ico 0 16))
    (hold : Set.EqOn m' m (Set.Ico pageHeaderSize (pageHeaderSize + span fs)))
    (hlast : Page.lastFrameAddress m' = pageHeaderSize + span fs)
    (hnew : FrameAt m' (pageHeaderSize + span fs) f)
    (hfits : pageHeaderSize + span fs + f.length < P.toNat) : PageHolds P m' (fs ++ [f]) := by
  have hfield : ∀ (k : ℕ), k + 4 ≤ 16 → m'.get UInt32 k = m.get UInt32 k :=
    fun k hk => Mem.get_eqOn hhead (Nat.zero_le k) (by simpa using hk)
  refine ⟨?_, ?_, ?_, ?_, ?_, ?_⟩
  · exact (hfield 0 (by omega)).trans H.version
  · rw [← H.headerLength]
    exact congrArg UInt32.toNat (hfield 4 (by omega))
  · exact (hfield 8 (by omega)).trans H.pageSize
  · rw [hlast, List.dropLast_concat]
  · exact framesAt_append.mpr ⟨H.frames.eqOn hold le_rfl le_rfl, hnew, trivial⟩
  · rw [span_append, span_cons, span_nil]
    omega

end PageHolds

/-! ## Journals as lists of frames -/

/-- The frames of every page, the last page last. -/
def pages (L : List Frame) : List (List Frame) := Segment.all Frame.isPageEnd L

/-- The pages that end with an end mark. -/
def closedPages (L : List Frame) : List (List Frame) := (Segment.split Frame.isPageEnd L).1

/-- The frames of the last page. -/
def lastPage (L : List Frame) : List Frame := (Segment.split Frame.isPageEnd L).2

theorem pages_eq (L : List Frame) : pages L = closedPages L ++ [lastPage L] := rfl

@[simp] theorem length_pages (L : List Frame) : (pages L).length = (closedPages L).length + 1 := by
  simp [pages_eq]

theorem flatten_pages (L : List Frame) : (pages L).flatten = L := by
  simpa [pages_eq, closedPages, lastPage] using Segment.flatten_split Frame.isPageEnd L

/-- The slot after the frames of `L`. -/
def endCursor (L : List Frame) : Cursor where
  page := (closedPages L).length + 1
  frame := pageHeaderSize + span (lastPage L)
  pageFrameNb := (lastPage L).length

theorem pages_concat_of_end {L : List Frame} {f : Frame} (h : f.isPageEnd) :
    pages (L ++ [f]) = closedPages L ++ [lastPage L ++ [f], []] := by
  simp [pages, Segment.all, Segment.split_concat_of_end _ L h, closedPages, lastPage]

theorem pages_concat_of_not_end {L : List Frame} {f : Frame} (h : f.isPageEnd = false) :
    pages (L ++ [f]) = closedPages L ++ [lastPage L ++ [f]] := by
  simp [pages, Segment.all, Segment.split_concat_of_not_end _ L h, closedPages, lastPage]

theorem endCursor_concat_of_end {L : List Frame} {f : Frame} (h : f.isPageEnd) :
    endCursor (L ++ [f]) = ⟨(endCursor L).page + 1, pageHeaderSize, 0⟩ := by
  simp [endCursor, closedPages, lastPage, Segment.split_concat_of_end _ L h]

theorem endCursor_concat_of_not_end {L : List Frame} {f : Frame} (h : f.isPageEnd = false) :
    endCursor (L ++ [f]) =
      ⟨(endCursor L).page, (endCursor L).frame + f.length, (endCursor L).pageFrameNb + 1⟩ := by
  simp [endCursor, closedPages, lastPage, Segment.split_concat_of_not_end _ L h, Nat.add_assoc]

@[simp] theorem endCursor_nil : endCursor [] = ⟨1, pageHeaderSize, 0⟩ := rfl

namespace Dir

/-- The page files, of `P` bytes each, are the journal `L`. -/
structure Holds (d : Dir) (P : UInt32) (L : List Frame) : Prop where
  pageSize : d.pageSize = P
  ids : d.ids = List.range' 1 (pages L).length
  sizes : ∀ id ∈ d.ids, P.toNat ≤ (d.file id).size
  page : ∀ i fs, (pages L)[i]? = some fs → PageHolds P (d.mem (i + 1)) fs
  vacant : Vacant (d.mem (endCursor L).page) (endCursor L).frame
  room : (endCursor L).frame + frameHeaderSize < P.toNat

namespace Holds

variable {d : Dir} {P : UInt32} {L : List Frame}

theorem mem_ids (H : d.Holds P L) {id : ℕ} :
    id ∈ d.ids ↔ 1 ≤ id ∧ id ≤ (endCursor L).page := by
  rw [H.ids, List.mem_range'_1, length_pages]
  simp only [endCursor]
  omega

theorem lastPageHolds (H : d.Holds P L) :
    PageHolds P (d.mem (endCursor L).page) (lastPage L) :=
  H.page (closedPages L).length (lastPage L) (by simp [pages_eq])

/-- Every page of the directory holds one of the journal's segments. -/
theorem exists_pageHolds (H : d.Holds P L) {id : ℕ} (h : id ∈ d.ids) :
    ∃ fs, (pages L)[id - 1]? = some fs ∧ PageHolds P (d.mem id) fs := by
  obtain ⟨h1, h2⟩ := H.mem_ids.mp h
  have hlt : id - 1 < (pages L).length := by
    rw [length_pages]
    simp only [endCursor] at h2
    omega
  refine ⟨(pages L)[id - 1], List.getElem?_eq_getElem hlt, ?_⟩
  simpa only [Nat.sub_add_cancel h1] using H.page (id - 1) _ (List.getElem?_eq_getElem hlt)

/-- Where frame `n` stands, and on which page. -/
theorem frameAt (H : d.Holds P L) {n : ℕ} (hn : n < L.length) :
    (endCursor (L.take n)).page ∈ d.ids ∧
      FrameAt (d.mem (endCursor (L.take n)).page) (endCursor (L.take n)).frame L[n] := by
  have hsplit : L.take n ++ L[n] :: L.drop (n + 1) = L := by
    rw [← List.drop_eq_getElem_cons hn, List.take_append_drop]
  obtain ⟨zs, hzs⟩ :=
    Segment.exists_getElem?_all Frame.isPageEnd (L.take n) L[n] (L.drop (n + 1))
  rw [hsplit] at hzs
  refine ⟨?_, (H.page _ _ hzs).frameAt⟩
  have hlt := (List.getElem?_eq_some_iff.mp hzs).1
  rw [H.mem_ids]
  have hlen : (Segment.all Frame.isPageEnd L).length = (closedPages L).length + 1 := length_pages L
  simp only [endCursor, closedPages] at hlen ⊢
  omega

/-- `has_data` at every position of the journal, its end included. -/
theorem hasData (H : d.Holds P L) (n : ℕ) :
    FrameHeader.hasData (d.mem (endCursor (L.take n)).page) (endCursor (L.take n)).frame =
      (L[n]?).any Frame.hasData := by
  rcases Nat.lt_or_ge n L.length with hlt | hge
  · rw [(H.frameAt hlt).2.hasData_iff, List.getElem?_eq_getElem hlt]
    rfl
  · rw [List.take_of_length_le hge, H.vacant.hasData, List.getElem?_eq_none hge]
    rfl

/-- A cursor stands past every frame only at the empty slot. -/
theorem endCursor_take_eq_iff (H : d.Holds P L) {n : ℕ} :
    endCursor (L.take n) = endCursor L ↔ L.length ≤ n := by
  constructor
  · intro h
    by_contra hne
    have hlt : n < L.length := by omega
    have hpos := (H.frameAt hlt).2.frameLength
    rw [h, H.vacant.frameLength] at hpos
    have := (L[n]).length_pos
    simp only [UInt32.toNat_zero] at hpos
    omega
  · intro h
    rw [List.take_of_length_le h]

end Holds

end Dir

end Kungfu.Yijinjing
