import Kungfu.Yijinjing.Contents

/-!
# Writer incarnations

The history of one `(location, dest)` is a sequence of writer incarnations: each
constructs a writer, which seeks to its clock's present time, writes frames, and ends
without notice, possibly with a frame still open.

A new writer stands on the empty slot exactly when the frames its seek has to pass
are all complete and none of them is newer than its clock (`Clear`).  As long as every
construction meets this, no incarnation changes a frame that an earlier one left.
-/

namespace Kungfu.Yijinjing

open Memory

/-- One write of a process. -/
inductive Write
  /-- `open_frame`, the caller's stores, `close_frame`. -/
  | record (now : Int64) (r : Writer.Record)
  /-- `copy_frame` of the frame at `a` in `src`. -/
  | copy (triggerTime now : Int64) (src : Mem) (a : ℕ)

/-- The writes of one process: the clock readings of the constructor, the complete writes,
and a last frame that was opened and filled but never closed. -/
structure Incarnation where
  startTime : Int64
  now : Int64
  lazy : Bool
  writes : List Write
  opened : Option (Int64 × Writer.Record)

namespace Write

/-- Perform a write. -/
def run (b : Build) (s : Writer.State) : Write → Except Fault Writer.State
  | record now r => Writer.write b now r s
  | copy triggerTime now src a => Writer.copyFrame b triggerTime now src a s

/-- Perform writes one after another. -/
def runAll (b : Build) (s : Writer.State) (ws : List Write) : Except Fault Writer.State :=
  ws.foldlM (run b) s

/-- The frame and its successor's header fit an empty page of `P` bytes. -/
def Fits (P : UInt32) : Write → Prop
  | record _ r => r.data.length ≤ r.length.toNat ∧
      pageHeaderSize + (frameHeaderSize + r.length.toNat) + frameHeaderSize < P.toNat
  | copy _ _ src a => (FrameHeader.headerLength src a).toNat = frameHeaderSize ∧
      frameHeaderSize ≤ (FrameHeader.frameLength src a).toNat ∧
      pageHeaderSize + (FrameHeader.frameLength src a).toNat + frameHeaderSize < P.toNat

instance (P : UInt32) : (w : Write) → Decidable (w.Fits P)
  | record _ _ => inferInstanceAs (Decidable (_ ∧ _))
  | copy _ _ _ _ => inferInstanceAs (Decidable (_ ∧ _ ∧ _))

/-- The frames a write appends to the journal `L`. -/
def frames (location dest P : UInt32) (L : List Frame) : Write → List Frame
  | record now r => Writer.switchMark location dest P now r.triggerTime
      (frameHeaderSize + r.length.toNat) L ++ [r.toFrame location dest]
  | copy triggerTime now src a => Writer.switchMark location dest P now triggerTime
      (Frame.read src a).length L ++ [Frame.read src a]

/-- The frames that writes append, one after another. -/
def allFrames (location dest P : UInt32) (L : List Frame) : List Write → List Frame
  | [] => []
  | w :: ws => w.frames location dest P L ++
      allFrames location dest P (L ++ w.frames location dest P L) ws

end Write

namespace Incarnation

/-- A process constructs its writer, writes, and dies. -/
def run (hash : Int64 → UInt32) (b : Build) (location dest : UInt32) (d : Dir)
    (i : Incarnation) : Except Fault Dir := do
  let s ← Writer.make hash location dest i.lazy i.startTime i.now d
  let s ← Write.runAll b s i.writes
  match i.opened with
  | none => .ok s.1
  | some (now, r) =>
      let s ← Writer.openFrame b now r.triggerTime r.msgType r.length s
      let s ← Writer.fillFrame r.data r.as s
      .ok s.1

/-- Processes one after another. -/
def runAll (hash : Int64 → UInt32) (b : Build) (location dest : UInt32) (d : Dir)
    (is : List Incarnation) : Except Fault Dir :=
  is.foldlM (run hash b location dest) d

end Incarnation

/-- The frames that a seek to `now` has to pass all have data and are not newer. -/
def Clear (P : UInt32) (now : Int64) (L : List Frame) : Prop :=
  ∀ f ∈ L.drop (pageStart L (seekPage P now L)), f.hasData = true ∧ f.genTime ≤ now

instance (P : UInt32) (now : Int64) (L : List Frame) : Decidable (Clear P now L) :=
  inferInstanceAs (Decidable (∀ f ∈ _, _))

namespace Incarnation

/-- What an incarnation needs to find in the directory, and what it may write. -/
structure Safe (P : UInt32) (d : Dir) (i : Incarnation) : Prop where
  start : Clear P i.now d.contents
  writes : ∀ w ∈ i.writes, w.Fits P
  opened : ∀ now r, i.opened = some (now, r) → (Write.record now r).Fits P

/-- Every incarnation of a history is safe in the directory it finds. -/
def AllSafe (hash : Int64 → UInt32) (b : Build) (location dest P : UInt32) (d : Dir) :
    List Incarnation → Prop
  | [] => True
  | i :: is => i.Safe P d ∧
      ∀ d', i.run hash b location dest d = .ok d' → AllSafe hash b location dest P d' is

end Incarnation

/-! ## Where a new writer stands -/

variable {d : Dir} {P location dest : UInt32} {L : List Frame} {s : Writer.State}
  {hash : Int64 → UInt32} {b : Build}

theorem seekIndex_eq_length_iff (P : UInt32) (now : Int64) (L : List Frame) :
    L.length ≤ seekIndex P now L ↔ Clear P now L := by
  have hle := pageStart_le L (seekPage P now L)
  have hpre := List.takeWhile_prefix (passedBy now)
    (l := L.drop (pageStart L (seekPage P now L)))
  have hlen := hpre.length_le
  have hdrop : (L.drop (pageStart L (seekPage P now L))).length =
      L.length - pageStart L (seekPage P now L) := List.length_drop
  have hclear : Clear P now L ↔ ∀ f ∈ L.drop (pageStart L (seekPage P now L)),
      passedBy now f = true := by simp [Clear, passedBy]
  rw [hclear, ← List.takeWhile_eq_self_iff, seekIndex, scanFrom]
  constructor
  · intro h
    exact hpre.eq_of_length (by omega)
  · intro h
    have hlen' := congrArg List.length h
    omega

theorem clear_nil (P : UInt32) (now : Int64) : Clear P now [] := by simp [Clear]

namespace Writer

/-- The constructor stands where its seek stops. -/
theorem make_spec (hash : Int64 → UInt32) (location dest : UInt32) (lazy : Bool)
    (startTime now : Int64) (H : d.Stores P L) :
    ∃ s, make hash location dest lazy startTime now d = .ok s ∧ s.1.Holds P L ∧
      s.2.journal = { Journal.make location dest true lazy with
        cursor := some (endCursor (L.take (seekIndex P now L))) } ∧ s.2.locked = false := by
  obtain ⟨d', hseek, H'⟩ :=
    H.seekToTime_spec now (j := Journal.make location dest true lazy) rfl rfl
  rw [make, onJournal, hseek]
  exact ⟨_, rfl, H', rfl, rfl⟩

/-- The constructor stands on the empty slot exactly when nothing is in its way. -/
theorem make_cursor_iff {lazy : Bool} {startTime now : Int64} (H : d.Stores P L)
    (hmake : make hash location dest lazy startTime now d = .ok s) :
    s.2.journal.cursor = some (endCursor L) ↔ Clear P now L := by
  obtain ⟨s', hmake', H', hj, -⟩ := make_spec hash location dest lazy startTime now H
  obtain rfl : s = s' := by simpa [hmake] using hmake'
  rw [hj, Option.some.injEq, H'.endCursor_take_eq_iff, seekIndex_eq_length_iff]

theorem make_ready (hash : Int64 → UInt32) (location dest : UInt32) (lazy : Bool)
    (startTime : Int64) {now : Int64} (H : d.Stores P L) (hclear : Clear P now L) :
    ∃ s, make hash location dest lazy startTime now d = .ok s ∧ Ready location dest P s L := by
  obtain ⟨s, hmake, H', hj, hlocked⟩ := make_spec hash location dest lazy startTime now H
  have hcur := (make_cursor_iff H hmake).mpr hclear
  exact ⟨s, hmake, H', hcur, by rw [hj]; rfl, by rw [hj]; rfl, by rw [hj]; rfl, hlocked⟩

end Writer

/-! ## What an incarnation appends -/

theorem frameAt_read {m : Mem} {a : ℕ}
    (hhead : (FrameHeader.headerLength m a).toNat = frameHeaderSize)
    (hlen : frameHeaderSize ≤ (FrameHeader.frameLength m a).toNat) :
    FrameAt m a (Frame.read m a) := by
  have hle : FrameHeader.headerLength m a ≤ FrameHeader.frameLength m a := by
    rw [UInt32.le_iff_toNat_le, hhead]
    exact hlen
  have hdata : (FrameHeader.dataLength m a).toNat =
      (FrameHeader.frameLength m a).toNat - frameHeaderSize := by
    rw [FrameHeader.dataLength, UInt32.toNat_sub_of_le _ _ hle, hhead]
  refine ⟨?_, hhead, rfl, rfl, rfl, rfl, rfl, ?_⟩
  · simp only [Frame.length, Frame.read, Mem.length_load, hdata]
    omega
  · simp only [Frame.read, Mem.length_load, hhead]

namespace Write

theorem run_ready (H : Writer.Ready location dest P s L) (b : Build) {w : Write} (hw : w.Fits P) :
    ∃ s', w.run b s = .ok s' ∧
      Writer.Ready location dest P s' (L ++ w.frames location dest P L) := by
  cases w with
  | record now r =>
      obtain ⟨s', hrun, H'⟩ := Writer.write_ready H b now hw.1 hw.2
      exact ⟨s', hrun, by simpa only [frames, List.append_assoc] using H'⟩
  | copy triggerTime now src a =>
      obtain ⟨hhead, hlen, hfit⟩ := hw
      have hat := frameAt_read hhead hlen
      rw [hat.frameLength] at hfit
      obtain ⟨s', hrun, H'⟩ := Writer.copyFrame_ready H b triggerTime now hat hfit
      exact ⟨s', hrun, by simpa only [frames, List.append_assoc] using H'⟩

theorem runAll_ready (H : Writer.Ready location dest P s L) (b : Build) {ws : List Write}
    (hws : ∀ w ∈ ws, w.Fits P) :
    ∃ s', runAll b s ws = .ok s' ∧
      Writer.Ready location dest P s' (L ++ allFrames location dest P L ws) := by
  induction ws generalizing s L with
  | nil => exact ⟨s, rfl, by simpa [allFrames] using H⟩
  | cons w ws ih =>
      obtain ⟨s₁, hrun, H₁⟩ := run_ready H b (hws w List.mem_cons_self)
      obtain ⟨s₂, hruns, H₂⟩ := ih H₁ fun v hv => hws v (List.mem_cons_of_mem w hv)
      refine ⟨s₂, ?_, by simpa only [allFrames, List.append_assoc] using H₂⟩
      rw [runAll, List.foldlM_cons, hrun]
      exact hruns

/-- The frames that a write appends fit an empty page. -/
theorem fits_of_mem_frames {w : Write} (hw : w.Fits P) {f : Frame}
    (hf : f ∈ w.frames location dest P L) :
    pageHeaderSize + f.length + frameHeaderSize < P.toNat := by
  cases w with
  | record now r =>
      obtain ⟨hlen, hfit⟩ := hw
      rcases List.mem_append.mp hf with hmark | hframe
      · exact Writer.fits_of_mem_switchMark (Nat.le_add_right _ _) hfit hmark
      · have hle : f.length ≤ frameHeaderSize + r.length.toNat := by
          rw [List.mem_singleton.mp hframe]
          exact Nat.add_le_add_left hlen _
        omega
  | copy triggerTime now src a =>
      obtain ⟨hhead, hlen, hfit⟩ := hw
      rw [(frameAt_read hhead hlen).frameLength] at hfit
      rcases List.mem_append.mp hf with hmark | hframe
      · exact Writer.fits_of_mem_switchMark (Frame.length_ge _) hfit hmark
      · rwa [List.mem_singleton.mp hframe]

theorem fits_of_mem_allFrames {ws : List Write} (hws : ∀ w ∈ ws, w.Fits P) {f : Frame}
    (hf : f ∈ allFrames location dest P L ws) :
    pageHeaderSize + f.length + frameHeaderSize < P.toNat := by
  induction ws generalizing L with
  | nil => exact absurd hf List.not_mem_nil
  | cons w ws ih =>
      rcases List.mem_append.mp hf with hf | hf
      · exact fits_of_mem_frames (hws w List.mem_cons_self) hf
      · exact ih (fun v hv => hws v (List.mem_cons_of_mem w hv)) hf

end Write

namespace Incarnation

/-- A safe incarnation appends frames that fit a page, also when it dies with an open frame. -/
theorem run_appends (hash : Int64 → UInt32) (b : Build) (location dest : UInt32)
    (H : d.Stores P L) {i : Incarnation} (hi : i.Safe P d) :
    ∃ d' M, i.run hash b location dest d = .ok d' ∧ d'.Holds P (L ++ M) ∧
      ∀ f ∈ M, pageHeaderSize + f.length + frameHeaderSize < P.toNat := by
  have hclear := hi.start
  rw [H.contents_eq] at hclear
  obtain ⟨s₁, hmake, H₁⟩ := Writer.make_ready hash location dest i.lazy i.startTime H hclear
  obtain ⟨s₂, hwrites, H₂⟩ := Write.runAll_ready H₁ b hi.writes
  have hfits : ∀ f ∈ Write.allFrames location dest P L i.writes,
      pageHeaderSize + f.length + frameHeaderSize < P.toNat :=
    fun f hf => Write.fits_of_mem_allFrames hi.writes hf
  cases hopened : i.opened with
  | none =>
      refine ⟨s₂.1, _, ?_, H₂.holds, hfits⟩
      simp only [run, bind, Except.bind, hmake, hwrites, hopened]
  | some p =>
      obtain ⟨now, r⟩ := p
      obtain ⟨hlen, hfit⟩ := hi.opened now r hopened
      obtain ⟨s₃, hopen, H₃⟩ := Writer.openFrame_ready H₂ b now r.triggerTime r.msgType hfit
      obtain ⟨s₄, hfill, H₄⟩ := Writer.fillFrame_writing H₃ hlen r.as
      have H₅ := H₄.holds
      rw [List.append_assoc] at H₅
      refine ⟨s₄.1, _, ?_, H₅, fun f hf => ?_⟩
      · simp only [run, bind, Except.bind, hmake, hwrites, hopened, hopen, hfill]
      · rcases List.mem_append.mp hf with hf | hf
        · exact hfits f hf
        · exact Writer.fits_of_mem_switchMark (Nat.le_add_right _ _) hfit hf

/-- A safe incarnation appends. -/
theorem run_holds (hash : Int64 → UInt32) (b : Build) (location dest : UInt32)
    (H : d.Stores P L) {i : Incarnation} (hi : i.Safe P d) :
    ∃ d' L', i.run hash b location dest d = .ok d' ∧ d'.Holds P L' ∧ L <+: L' := by
  obtain ⟨d', M, hrun, H', -⟩ := run_appends hash b location dest H hi
  exact ⟨d', L ++ M, hrun, H', List.prefix_append L M⟩

/-- A safe history runs to its end and leaves a journal. -/
theorem runAll_stores (H : d.Stores P L) {is : List Incarnation}
    (his : AllSafe hash b location dest P d is) :
    ∃ d' L', runAll hash b location dest d is = .ok d' ∧ d'.Stores P L' ∧ L <+: L' := by
  induction is generalizing d L with
  | nil => exact ⟨d, L, rfl, H, List.prefix_rfl⟩
  | cons i is ih =>
      obtain ⟨d₁, L₁, hrun, H₁, hpre₁⟩ := run_holds hash b location dest H his.1
      obtain ⟨d₂, L₂, hruns, H₂, hpre₂⟩ := ih (Or.inl H₁) (his.2 d₁ hrun)
      refine ⟨d₂, L₂, ?_, H₂, hpre₁.trans hpre₂⟩
      rw [runAll, List.foldlM_cons, hrun]
      exact hruns

end Incarnation

/-! ## History across restarts -/

/-- Every frame found in `d` is found in `d'`, in the same position of the journal and in
the same place of its page. -/
structure ReadsBack (d d' : Dir) : Prop where
  isPrefix : d.contents <+: d'.contents
  frame : ∀ (n : ℕ) (h : n < d.contents.length),
    Frame.read (d'.mem (endCursor (d.contents.take n)).page)
      (endCursor (d.contents.take n)).frame = d.contents[n]

theorem Dir.Stores.readsBack {d' : Dir} {L' : List Frame} (H : d.Stores P L)
    (H' : d'.Stores P L') (hpre : L <+: L') : ReadsBack d d' := by
  refine ⟨by rw [H.contents_eq, H'.contents_eq]; exact hpre, fun n hn => ?_⟩
  simp only [H.contents_eq] at hn ⊢
  have hlt : n < L'.length := Nat.lt_of_lt_of_le hn hpre.length_le
  have htake : L'.take n = L.take n := by
    obtain ⟨M, rfl⟩ := hpre
    exact List.take_append_of_le_length hn.le
  rcases H' with H' | ⟨-, -, -, rfl⟩
  · rw [← htake, (H'.frameAt hlt).2.read_eq]
    exact (hpre.getElem hn).symm
  · exact absurd hlt (Nat.not_lt_zero n)

/-- In a history whose constructions all find nothing newer than their clock in the way of
their seek, every new writer stands on the empty slot exactly when its own seek is clear
too, and later safe incarnations keep every frame. -/
theorem reopen_keeps_history (hash : Int64 → UInt32) (b : Build) (location dest : UInt32)
    (hP : pageHeaderSize + frameHeaderSize < P.toNat) {past : List Incarnation}
    (hpast : Incarnation.AllSafe hash b location dest P (Dir.empty P) past) :
    ∃ d, Incarnation.runAll hash b location dest (Dir.empty P) past = .ok d ∧
      (∀ lazy startTime now, ∃ s, Writer.make hash location dest lazy startTime now d = .ok s ∧
        FrameHeader.hasData (s.1.mem (endCursor d.contents).page)
          (endCursor d.contents).frame = false ∧
        (s.2.journal.cursor = some (endCursor d.contents) ↔ Clear P now d.contents)) ∧
      ∀ later, Incarnation.AllSafe hash b location dest P d later →
        ∃ d', Incarnation.runAll hash b location dest d later = .ok d' ∧ ReadsBack d d' := by
  obtain ⟨d, L, hrun, H, -⟩ :=
    Incarnation.runAll_stores (Dir.stores_empty hP) hpast
  refine ⟨d, hrun, fun lazy startTime now => ?_, fun later hlater => ?_⟩
  · obtain ⟨s, hmake, H', -, -⟩ := Writer.make_spec hash location dest lazy startTime now H
    refine ⟨s, hmake, ?_, ?_⟩
    · rw [H.contents_eq]
      exact H'.vacant.hasData
    · rw [H.contents_eq]
      exact Writer.make_cursor_iff H hmake
  · obtain ⟨d', L', hrun', H', hpre⟩ := Incarnation.runAll_stores H hlater
    exact ⟨d', hrun', H.readsBack H' hpre⟩

/-- One write, stamped `genTime`, by a process that starts at `now`. -/
def Incarnation.single (now genTime : Int64) (data : List UInt8) : Incarnation where
  startTime := now
  now := now
  lazy := false
  writes := [.record now ⟨0, 7, UInt32.ofNat data.length, data, none, genTime⟩]
  opened := none

/-- Two writes, stamped `now` and ten later, of which the second one needs a new page of 200 bytes. -/
def Incarnation.twoPages (now : Int64) : Incarnation where
  startTime := now
  now := now
  lazy := false
  writes := [.record now ⟨0, 7, 3, [1, 2, 3], none, now⟩,
    .record (now + 10) ⟨0, 7, 80, List.replicate 80 0, none, now + 10⟩]
  opened := none

/-- A journal that has frames on two pages is opened again. -/
theorem reopen_keeps_history_two :
    ∃ d, Incarnation.runAll (fun _ => 0) .checked 1 2 (Dir.empty 200)
        [.twoPages 10, .single 30 30 [4]] = .ok d ∧
      (∀ lazy startTime now, ∃ s, Writer.make (fun _ => 0) 1 2 lazy startTime now d = .ok s ∧
        FrameHeader.hasData (s.1.mem (endCursor d.contents).page)
          (endCursor d.contents).frame = false ∧
        (s.2.journal.cursor = some (endCursor d.contents) ↔ Clear 200 now d.contents)) ∧
      ∀ later, Incarnation.AllSafe (fun _ => 0) .checked 1 2 200 d later →
        ∃ d', Incarnation.runAll (fun _ => 0) .checked 1 2 d later = .ok d' ∧ ReadsBack d d' := by
  have hfirst : okAnd (Incarnation.run (fun _ => 0) .checked 1 2 (Dir.empty 200) (.twoPages 10))
      (fun d => decide (Clear 200 30 d.contents)) = true := by decide +kernel
  obtain ⟨d, hd, hclear⟩ := exists_of_okAnd hfirst
  refine reopen_keeps_history (fun _ => 0) .checked 1 2 (by decide)
    ⟨⟨by decide, by decide, by simp [Incarnation.twoPages]⟩, fun d' hd' => ?_⟩
  obtain rfl : d = d' := Except.ok.inj (hd.symm.trans hd')
  exact ⟨⟨of_decide_eq_true hclear, by decide, by simp [Incarnation.single]⟩, fun _ _ => trivial⟩

/-- A frame stamped 100, for example before the clock stepped back, is overwritten by the
writer that is constructed at 50. -/
theorem reopen_overwrites_newer_frame :
    ∃ d, Incarnation.runAll (fun _ => 0) .checked 1 2 (Dir.empty 200) [.single 10 100 [1, 2, 3]] =
        .ok d ∧
      ∃ s, Writer.make (fun _ => 0) 1 2 false 50 50 d = .ok s ∧
        s.2.journal.cursor ≠ some (endCursor d.contents) ∧
        ∃ s', Writer.write .checked 51 ⟨0, 7, 3, [4, 5, 6], none, 51⟩ s = .ok s' ∧
          ¬ ReadsBack d s'.1 := by
  have hrun : okAnd (Incarnation.runAll (fun _ => 0) .checked 1 2 (Dir.empty 200)
      [.single 10 100 [1, 2, 3]]) (fun d =>
        okAnd (Writer.make (fun _ => 0) 1 2 false 50 50 d) fun s =>
          decide (s.2.journal.cursor ≠ some (endCursor d.contents)) &&
          okAnd (Writer.write .checked 51 ⟨0, 7, 3, [4, 5, 6], none, 51⟩ s) fun s' =>
            !d.contents.isPrefixOf s'.1.contents) = true := by decide +kernel
  obtain ⟨d, hd, hrest⟩ := exists_of_okAnd hrun
  obtain ⟨s, hs, hrest⟩ := exists_of_okAnd hrest
  obtain ⟨hcur, hrest⟩ := (Bool.and_eq_true _ _).mp hrest
  obtain ⟨s', hs', hpre⟩ := exists_of_okAnd hrest
  refine ⟨d, hd, s, hs, of_decide_eq_true hcur, s', hs', fun hback => ?_⟩
  rw [List.isPrefixOf_iff_prefix.mpr hback.isPrefix] at hpre
  exact Bool.false_ne_true hpre

end Kungfu.Yijinjing
