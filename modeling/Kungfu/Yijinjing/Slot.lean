import Kungfu.Yijinjing.Load

/-!
# Stores into one slot

The writer completes a frame in three stages: `open_frame` stores the header fields but
not the length, the caller stores the data, and `close_frame` stores the time and the
length.  Each stage is described by what the slot holds afterwards and by the ranges
it leaves alone.
-/

namespace Kungfu.Yijinjing

open Memory

variable {m : Mem} {a size : ℕ} {triggerTime : Int64} {msgType : Int32} {source dest : UInt32}

/-- The slot at `a` has the header of a frame that is being written. -/
structure Opened (m : Mem) (a : ℕ) (triggerTime : Int64) (msgType : Int32)
    (source dest : UInt32) : Prop where
  headerLength : (FrameHeader.headerLength m a).toNat = frameHeaderSize
  triggerTime : FrameHeader.triggerTime m a = triggerTime
  msgType : FrameHeader.msgType m a = msgType
  source : FrameHeader.source m a = source
  dest : FrameHeader.dest m a = dest

namespace Opened

/-- Stores into the length, the time and the data keep the header. -/
theorem store (H : Opened m a triggerTime msgType source dest) {b : ℕ} {bs : List UInt8}
    (h : b + bs.length ≤ a + 4 ∨ (a + 8 ≤ b ∧ b + bs.length ≤ a + 16) ∨ a + 36 ≤ b) :
    Opened (m.store b bs) a triggerTime msgType source dest := by
  refine ⟨?_, ?_, ?_, ?_, ?_⟩
  · rw [← H.headerLength]
    exact congrArg UInt32.toNat (Mem.get_store_of_disjoint m bs (by simp; omega))
  · rw [← H.triggerTime]
    exact Mem.get_store_of_disjoint m bs (by simp; omega)
  · rw [← H.msgType]
    exact Mem.get_store_of_disjoint m bs (by simp; omega)
  · rw [← H.source]
    exact Mem.get_store_of_disjoint m bs (by simp; omega)
  · rw [← H.dest]
    exact Mem.get_store_of_disjoint m bs (by simp; omega)

theorem put {α : Type} [Scalar α] (H : Opened m a triggerTime msgType source dest) {b : ℕ}
    (x : α) (h : b + Scalar.width α ≤ a + 4 ∨ (a + 8 ≤ b ∧ b + Scalar.width α ≤ a + 16) ∨
      a + 36 ≤ b) : Opened (m.put b x) a triggerTime msgType source dest :=
  H.store (by simpa using h)

/-- `write_as` replaces the addresses. -/
theorem address (H : Opened m a triggerTime msgType source dest) (source' dest' : UInt32) :
    Opened ((m.put (a + 28) source').put (a + 32) dest') a triggerTime msgType source' dest' := by
  refine ⟨?_, ?_, ?_, ?_, ?_⟩
  · rw [← H.headerLength, FrameHeader.headerLength, Mem.get_put_of_disjoint _ _ (by simp),
      Mem.get_put_of_disjoint _ _ (by simp)]
    rfl
  · rw [← H.triggerTime, FrameHeader.triggerTime, Mem.get_put_of_disjoint _ _ (by simp),
      Mem.get_put_of_disjoint _ _ (by simp)]
    rfl
  · rw [← H.msgType, FrameHeader.msgType, Mem.get_put_of_disjoint _ _ (by simp),
      Mem.get_put_of_disjoint _ _ (by simp)]
    rfl
  · rw [FrameHeader.source, Mem.get_put_of_disjoint _ _ (by simp), Mem.get_put_same]
  · rw [FrameHeader.dest, Mem.get_put_same]

/-- A header with its data and its two last fields is a frame. -/
theorem frameAt {f : Frame} (H : Opened m a f.triggerTime f.msgType f.source f.dest)
    (hlen : (FrameHeader.frameLength m a).toNat = f.length)
    (htime : FrameHeader.genTime m a = f.genTime)
    (hdata : m.load (a + frameHeaderSize) f.data.length = f.data) : FrameAt m a f :=
  ⟨hlen, H.headerLength, htime, H.triggerTime, H.msgType, H.source, H.dest, hdata⟩

end Opened

namespace Writer

/-- `open_frame`'s stores leave the length and the time of the slot alone. -/
theorem putHeader_ok (size : ℕ) (m : Mem) (a : ℕ) (h : a + frameHeaderSize ≤ size) (triggerTime : Int64)
    (msgType : Int32) (source dest : UInt32) :
    ∃ m', putHeader size m a triggerTime msgType source dest = .ok m' ∧
      Opened m' a triggerTime msgType source dest ∧
      Set.EqOn m' m (Set.Ico 0 (a + 4)) ∧ Set.EqOn m' m (Set.Ico (a + 8) (a + 16)) := by
  simp only [frameHeaderSize] at h
  refine ⟨((((m.put (a + 4) (UInt32.ofNat frameHeaderSize)).put (a + 16) triggerTime).put
    (a + 24) msgType).put (a + 28) source).put (a + 32) dest, ?_, ?_, ?_, ?_⟩
  · simp only [putHeader, bind, Except.bind, putAt, width_uint32, width_int64, width_int32]
    rw [if_pos (by omega)]
    simp only [if_pos (show a + 16 + 8 ≤ size by omega), if_pos (show a + 24 + 4 ≤ size by omega),
      if_pos (show a + 28 + 4 ≤ size by omega), if_pos (show a + 32 + 4 ≤ size by omega)]
  · have hopen : Opened ((m.put (a + 4) (UInt32.ofNat frameHeaderSize)).put (a + 16) triggerTime
        |>.put (a + 24) msgType) a triggerTime msgType
        (FrameHeader.source ((m.put (a + 4) (UInt32.ofNat frameHeaderSize)).put (a + 16) triggerTime
          |>.put (a + 24) msgType) a)
        (FrameHeader.dest ((m.put (a + 4) (UInt32.ofNat frameHeaderSize)).put (a + 16) triggerTime
          |>.put (a + 24) msgType) a) := by
      refine ⟨?_, ?_, ?_, rfl, rfl⟩
      · simp [FrameHeader.headerLength, Mem.get_put_of_disjoint, frameHeaderSize]
      · simp [FrameHeader.triggerTime, Mem.get_put_of_disjoint]
      · simp [FrameHeader.msgType]
    exact hopen.address source dest
  · refine (Mem.eqOn_put _ _ (Or.inl (by omega))).trans ?_
    refine (Mem.eqOn_put _ _ (Or.inl (by omega))).trans ?_
    refine (Mem.eqOn_put _ _ (Or.inl (by omega))).trans ?_
    refine (Mem.eqOn_put _ _ (Or.inl (by omega))).trans ?_
    exact Mem.eqOn_put _ _ (Or.inl le_rfl)
  · refine (Mem.eqOn_put _ _ (Or.inl (by omega))).trans ?_
    refine (Mem.eqOn_put _ _ (Or.inl (by omega))).trans ?_
    refine (Mem.eqOn_put _ _ (Or.inl (by omega))).trans ?_
    refine (Mem.eqOn_put _ _ (Or.inl le_rfl)).trans ?_
    exact Mem.eqOn_put _ _ (Or.inr (by simp))

/-- A slot whose length and time were not touched is still empty. -/
theorem vacant_of_eqOn {m' : Mem} (H : Vacant m a) (hlen : Set.EqOn m' m (Set.Ico 0 (a + 4)))
    (htime : Set.EqOn m' m (Set.Ico (a + 8) (a + 16))) : Vacant m' a := by
  constructor
  · rw [← H.frameLength]
    exact Mem.get_eqOn hlen (Nat.zero_le a) (by simp)
  · rw [← H.genTime]
    exact Mem.get_eqOn htime le_rfl (by simp)

theorem putLastFramePosition_ok (size : ℕ) (m : Mem) (a' : ℕ) (h : pageHeaderSize ≤ size)
    (ha : a' < 2 ^ 32) :
    ∃ m', putLastFramePosition size m a' = .ok m' ∧ Page.lastFrameAddress m' = a' ∧
      Set.EqOn m' m (Set.Ico 0 16) ∧ ∀ hi, Set.EqOn m' m (Set.Ico pageHeaderSize hi) := by
  refine ⟨m.put 16 (UInt64.ofNat a'), putAt_ok _ _ (by simpa [pageHeaderSize] using h), ?_,
    Mem.eqOn_put _ _ (Or.inl le_rfl), fun hi => Mem.eqOn_put _ _ (Or.inr (by simp [pageHeaderSize]))⟩
  simp only [Page.lastFrameAddress, Page.lastFramePosition, Mem.get_put_same, UInt64.toNat_ofNat']
  exact Nat.mod_eq_of_lt (by omega)

/-- The two last stores of a frame make it complete, and no other frame changes. -/
theorem complete_ok {f : Frame} (H : Opened m a f.triggerTime f.msgType f.source f.dest)
    (hdata : m.load (a + frameHeaderSize) f.data.length = f.data)
    (ha : pageHeaderSize ≤ a) (hsize : a + f.length ≤ size) (hlt : size < 2 ^ 32) :
    ∃ m₁ m₂, putLength size m a f.genTime f.data.length = .ok m₁ ∧
      putLastFramePosition size m₁ a = .ok m₂ ∧ FrameAt m₂ a f ∧ Page.lastFrameAddress m₂ = a ∧
      Set.EqOn m₂ m (Set.Ico 0 16) ∧ Set.EqOn m₂ m (Set.Ico pageHeaderSize a) ∧
      ∀ hi, Set.EqOn m₂ m (Set.Ico (a + 16) hi) := by
  have hlen : f.length = 36 + f.data.length := rfl
  simp only [pageHeaderSize] at ha
  have hhead : FrameHeader.headerLength (m.put (a + 8) f.genTime) a =
      FrameHeader.headerLength m a := Mem.get_put_of_disjoint _ _ (by simp)
  let m₁ := (m.put (a + 8) f.genTime).put a
    (FrameHeader.headerLength m a + UInt32.ofNat f.data.length)
  have hput : putLength size m a f.genTime f.data.length = .ok m₁ := by
    rw [putLength, putAt_ok _ _ (by simp; omega)]
    simp only [bind, Except.bind]
    rw [putAt_ok _ _ (by simp; omega), hhead]
  obtain ⟨m₂, hlast, hpos, hlow, hrest⟩ :=
    putLastFramePosition_ok size m₁ a (by simp [pageHeaderSize]; omega) (by omega)
  have hopen : Opened m₁ a f.triggerTime f.msgType f.source f.dest :=
    (H.put _ (Or.inr (Or.inl (by simp)))).put _ (Or.inl (by simp))
  have hframe : FrameAt m₁ a f := by
    refine hopen.frameAt ?_ ?_ ?_
    · have hle : f.data.length < 2 ^ 32 := by omega
      have hsum : (FrameHeader.headerLength m a).toNat + f.data.length < 2 ^ 32 := by
        rw [H.headerLength, frameHeaderSize]
        omega
      rw [FrameHeader.frameLength, Mem.get_put_same, UInt32.toNat_add, UInt32.toNat_ofNat',
        Nat.mod_eq_of_lt hle, Nat.mod_eq_of_lt hsum, H.headerLength]
      rfl
    · rw [FrameHeader.genTime, Mem.get_put_of_disjoint _ _ (by simp), Mem.get_put_same]
    · rw [Mem.load_put_of_disjoint _ _ (by simp [frameHeaderSize]),
        Mem.load_put_of_disjoint _ _ (by simp [frameHeaderSize]), hdata]
  refine ⟨m₁, m₂, hput, hlast, ?_, hpos, ?_, ?_, fun hi => ?_⟩
  · exact hframe.eqOn (hrest (a + f.length)) ha le_rfl
  · exact hlow.trans ((Mem.eqOn_put _ _ (Or.inl (by omega))).trans
      (Mem.eqOn_put _ _ (Or.inl (by omega))))
  · exact (hrest a).trans ((Mem.eqOn_put _ _ (Or.inl le_rfl)).trans
      (Mem.eqOn_put _ _ (Or.inl (by omega))))
  · exact ((hrest hi).mono (Set.Ico_subset_Ico_left (by simp [pageHeaderSize]; omega))).trans
      ((Mem.eqOn_put _ _ (Or.inr (by simp))).trans
        (Mem.eqOn_put _ _ (Or.inr (by simp))))

end Writer

end Kungfu.Yijinjing
