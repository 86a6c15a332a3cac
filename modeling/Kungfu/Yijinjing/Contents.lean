import Kungfu.Yijinjing.Seek

/-!
# Reading a directory back

`Dir.contents` walks the page files from the first to the last and collects every
frame, up to the end mark or the empty slot of each page.  On a directory that holds
the journal `L` it returns `L`, so a statement about `contents` is about the bytes.
-/

namespace Kungfu.Yijinjing

open Memory

/-- The frames from offset `a` on, up to an end mark or an empty slot. -/
def framesFrom (m : Mem) : ℕ → ℕ → List Frame
  | 0, _ => []
  | fuel + 1, a =>
      if FrameHeader.frameLength m a = 0 then []
      else if (Frame.read m a).isPageEnd then [Frame.read m a]
      else Frame.read m a :: framesFrom m fuel (a + (FrameHeader.frameLength m a).toNat)

/-- The frames in the page files, in order. -/
def Dir.contents (d : Dir) : List Frame :=
  d.ids.flatMap fun id => framesFrom (d.mem id) d.mappingSize (Page.firstFrameAddress (d.mem id))

variable {d : Dir} {P : UInt32} {L : List Frame}

theorem framesFrom_step {m : Mem} {a fuel : ℕ} {f : Frame} (H : FrameAt m a f) :
    framesFrom m (fuel + 1) a =
      if f.isPageEnd then [f] else f :: framesFrom m fuel (a + f.length) := by
  have hne : FrameHeader.frameLength m a ≠ 0 := by
    intro h
    have hlen := H.frameLength
    have hpos := f.length_pos
    rw [h] at hlen
    simp only [UInt32.toNat_zero] at hlen
    omega
  rw [framesFrom, if_neg hne, H.read_eq, H.frameLength]

/-- Frames without an end mark, in front of an empty slot. -/
theorem framesFrom_open {m : Mem} {a fuel : ℕ} {fs : List Frame} (H : FramesAt m a fs)
    (hend : ∀ f ∈ fs, f.isPageEnd = false) (hv : Vacant m (a + span fs))
    (hfuel : fs.length < fuel) : framesFrom m fuel a = fs := by
  induction fs generalizing a fuel with
  | nil =>
      obtain ⟨fuel, rfl⟩ := Nat.exists_eq_succ_of_ne_zero (Nat.ne_of_gt hfuel)
      have hlen : FrameHeader.frameLength m a = 0 := by simpa using hv.frameLength
      rw [framesFrom, if_pos hlen]
  | cons f fs ih =>
      obtain ⟨fuel, rfl⟩ := Nat.exists_eq_succ_of_ne_zero (Nat.ne_of_gt (Nat.zero_lt_of_lt hfuel))
      rw [span_cons, ← Nat.add_assoc] at hv
      rw [framesFrom_step H.1, hend f List.mem_cons_self,
        ih H.2 (fun g hg => hend g (List.mem_cons_of_mem f hg)) hv (by simpa using hfuel)]
      rfl

/-- Frames up to an end mark. -/
theorem framesFrom_closed {m : Mem} {a fuel : ℕ} {fs : List Frame} {e : Frame}
    (H : FramesAt m a (fs ++ [e])) (hend : ∀ f ∈ fs, f.isPageEnd = false) (he : e.isPageEnd)
    (hfuel : fs.length < fuel) : framesFrom m fuel a = fs ++ [e] := by
  induction fs generalizing a fuel with
  | nil =>
      obtain ⟨fuel, rfl⟩ := Nat.exists_eq_succ_of_ne_zero (Nat.ne_of_gt hfuel)
      rw [framesFrom_step H.1, if_pos he]
      rfl
  | cons f fs ih =>
      obtain ⟨fuel, rfl⟩ := Nat.exists_eq_succ_of_ne_zero (Nat.ne_of_gt (Nat.zero_lt_of_lt hfuel))
      rw [framesFrom_step H.1, hend f List.mem_cons_self,
        ih H.2 (fun g hg => hend g (List.mem_cons_of_mem f hg)) (by simpa using hfuel)]
      rfl

namespace Dir

/-- A directory that holds `L`, or one that is empty, with pages large enough for a frame. -/
def Stores (d : Dir) (P : UInt32) (L : List Frame) : Prop :=
  d.Holds P L ∨ (d.ids = [] ∧ d.pageSize = P ∧ pageHeaderSize + frameHeaderSize < P.toNat ∧ L = [])

theorem stores_empty (hP : pageHeaderSize + frameHeaderSize < P.toNat) :
    (Dir.empty P).Stores P [] := Or.inr ⟨rfl, rfl, hP, rfl⟩

theorem Holds.framesFrom_page (H : d.Holds P L) {i : ℕ} {fs : List Frame}
    (h : (pages L)[i]? = some fs) :
    framesFrom (d.mem (i + 1)) d.mappingSize (Page.firstFrameAddress (d.mem (i + 1))) = fs := by
  have hpage := H.page i fs h
  have hfits := hpage.fits
  have hsize : d.mappingSize = P.toNat := congrArg UInt32.toNat H.pageSize
  rw [hpage.firstFrameAddress, hsize]
  rcases Nat.lt_or_ge i (closedPages L).length with hlt | hge
  · have hmem : fs ∈ closedPages L := by
      rw [pages_eq, List.getElem?_append_left hlt] at h
      exact List.mem_of_getElem? h
    obtain ⟨gs, e, rfl, he, hgs⟩ := Segment.closed_shape Frame.isPageEnd hmem
    have hlen := length_le_span (gs ++ [e])
    rw [List.length_append, List.length_singleton] at hlen
    exact framesFrom_closed hpage.frames hgs he (by omega)
  · have hi : i = (closedPages L).length := by
      have hlt := (List.getElem?_eq_some_iff.mp h).1
      rw [length_pages] at hlt
      omega
    subst hi
    have hfs : fs = lastPage L := by simpa [pages_eq] using h.symm
    subst hfs
    have hlen := length_le_span (lastPage L)
    exact framesFrom_open hpage.frames
      (fun f hf => Segment.not_end_of_mem_current Frame.isPageEnd hf) H.vacant (by omega)

theorem Holds.contents_eq (H : d.Holds P L) : d.contents = L := by
  have hwalk : ∀ (k : ℕ) (ps : List (List Frame)) (g : ℕ → List Frame),
      (∀ i fs, ps[i]? = some fs → g (k + i) = fs) →
      (List.range' k ps.length).flatMap g = ps.flatten := by
    intro k ps g hg
    induction ps generalizing k with
    | nil => rfl
    | cons p ps ih =>
        rw [List.length_cons, List.range'_succ, List.flatMap_cons, List.flatten_cons]
        rw [show g k = p from hg 0 p rfl, ih (k + 1)]
        intro i fs hfs
        rw [Nat.add_assoc, Nat.add_comm 1 i]
        exact hg (i + 1) fs (by simpa using hfs)
  rw [contents, H.ids, hwalk 1 (pages L), flatten_pages]
  intro i fs hfs
  rw [Nat.add_comm 1 i]
  exact H.framesFrom_page hfs

theorem Stores.contents_eq (H : d.Stores P L) : d.contents = L := by
  rcases H with H | ⟨hids, -, -, rfl⟩
  · exact H.contents_eq
  · rw [contents, hids, List.flatMap_nil]

/-- Seeking in an unused directory through a writable mapping creates the first page. -/
theorem Stores.seekToTime_spec (H : d.Stores P L) (T : Int64) {j : Journal}
    (hj : j.cursor = none) (hw : j.isWriting || !j.lazy) :
    ∃ d', Journal.seekToTime (d, j) T =
        .ok (d', { j with cursor := some (endCursor (L.take (seekIndex P T L))) }) ∧
      d'.Holds P L := by
  rcases H with H | ⟨hids, rfl, hP, rfl⟩
  · exact H.seekToTime_spec T j
  · have H' := holds_addPage_empty hids hP
    have hload : Journal.loadPage (d, j) 1 = .ok _ := loadPage_absent (by simp [hids])
      (by simp only [mappingSize]; omega) hw (by simp [hj])
    obtain ⟨d₁, hskip, H₁⟩ := H'.skipPages_spec T
      { j with cursor := some ⟨1, pageHeaderSize, 0⟩ } 0 (Journal.pageFuel (d.addPage 1)) (by simp) (by
        rw [Journal.pageFuel, H'.ids, List.length_range']; omega) rfl
    have hstop : ((pages []).takeWhile (endedBy d.pageSize T)) = [] := by
      have hlast := H'.endedBy_lastPage T
      simpa [pages_eq, closedPages] using hlast
    rw [List.drop_zero, hstop] at hskip
    obtain ⟨d₂, hscan, H₂⟩ := H₁.skipFrames_spec T
      { j with cursor := some ⟨1, pageHeaderSize, 0⟩ } 0 (Journal.frameFuel d₁) le_rfl (by rw [Journal.frameFuel, List.length_nil]; omega) rfl
    refine ⟨d₂, ?_, H₂⟩
    have hfind : Page.findPageId d T = .ok 1 := by rw [Page.findPageId, hids]
    simp only [Journal.seekToTime, hfind, Except.mapError, bind, Except.bind, hload]
    rw [hskip]
    simpa using hscan

end Dir

end Kungfu.Yijinjing
