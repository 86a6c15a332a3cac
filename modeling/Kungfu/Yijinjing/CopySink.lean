import Kungfu.Yijinjing.Assemble

/-!
# Copying an assemble

`assemble >> copy_sink` puts every frame that the assemble delivers, end marks included, into
the target journal of the same location and dest.  A target journal has a writer from its
first frame on, and `copy_frame` closes its pages where they are full, so that its end marks
stand elsewhere than those of the source.  The frames between them are the same.

A frame is shown only if its message type is positive, and the join from time zero passes
frames stamped with no positive time, so both are needed of what is copied.
-/

namespace Kungfu.Yijinjing

open Memory Merge Outcome Writer

/-- A `copy_sink`: the page files of the target locator, and `writers_`. -/
structure CopySink where
  dirs : Key → Dir
  writers : Key → Option Writer

namespace CopySink

/-- A sink that has no writer yet. -/
def make (dirs : Key → Dir) : CopySink := ⟨dirs, fun _ => none⟩

/-- The writer of a target journal, which is lazy and constructed when it is missing. -/
def writer (hash : Int64 → UInt32) (now : Reading → Int64) (k : Key) (s : CopySink) :
    Except Fault Writer.State :=
  match s.writers k with
  | some w => .ok (s.dirs k, w)
  | none => Writer.make hash k.location k.dest true (now .started) (now .sought) (s.dirs k)

/-- `copy_sink::put`, of the frame at `a` in the memory `src`. -/
def put (hash : Int64 → UInt32) (b : Build) (now : Reading → Int64) (k : Key) (src : Mem) (a : ℕ)
    (s : CopySink) : Except Fault CopySink := do
  let state ← writer hash now k s
  let (d, w) ← copyFrame b (now .triggered) (now .closed) src a state
  .ok ⟨Function.update s.dirs k d, Function.update s.writers k (some w)⟩

end CopySink

/-- `assemble::operator>>`; every round reads the clock anew. -/
def copyTo (hash : Int64 → UInt32) (b : Build) (clock : ℕ → Reading → Int64) :
    ℕ → Assemble × CopySink → Except Fault (Assemble × CopySink)
  | 0, _ => .error .outOfFuel
  | fuel + 1, (a, sink) => do
      let (available, a) ← a.dataAvailable (clock fuel)
      if available then
        match a.currentHead with
        | none => .error .nullFrame
        | some (k, src, frame) =>
            let sink ← sink.put hash b (clock fuel) k src frame
            let a ← a.next (clock fuel)
            copyTo hash b clock fuel (a, sink)
      else .ok (a, sink)

/-! ## What writers leave -/

/-- A journal as writers leave it: the page files are the frames `L`, and each of them fits an
empty page, as `close_frame` asserts. -/
structure Dir.Written (d : Dir) (P : UInt32) (L : List Frame) : Prop where
  holds : d.Holds P L
  fits : ∀ f ∈ L, pageHeaderSize + f.length + frameHeaderSize < P.toNat

namespace Incarnation

variable {hash : Int64 → UInt32} {b : Build} {location dest P : UInt32} {d : Dir} {L : List Frame}

theorem run_written (H : d.Stores P L)
    (hfits : ∀ f ∈ L, pageHeaderSize + f.length + frameHeaderSize < P.toNat) {i : Incarnation}
    (hi : i.Safe P d) : ∃ d' L', run hash b location dest d i = .ok d' ∧ d'.Written P L' := by
  obtain ⟨d', M, hrun, H', hM⟩ := run_appends hash b location dest H hi
  refine ⟨d', L ++ M, hrun, H', fun f hf => ?_⟩
  rcases List.mem_append.mp hf with hf | hf
  · exact hfits f hf
  · exact hM f hf

/-- Safe incarnations leave such a journal. -/
theorem runAll_written (H : d.Stores P L)
    (hfits : ∀ f ∈ L, pageHeaderSize + f.length + frameHeaderSize < P.toNat) {i : Incarnation}
    {is : List Incarnation} (his : AllSafe hash b location dest P d (i :: is)) :
    ∃ d' L', runAll hash b location dest d (i :: is) = .ok d' ∧ d'.Written P L' := by
  induction is generalizing d L i with
  | nil =>
      obtain ⟨d', L', hrun, H'⟩ := run_written H hfits his.1
      refine ⟨d', L', ?_, H'⟩
      rw [runAll, List.foldlM_cons, hrun]
      rfl
  | cons i' is ih =>
      obtain ⟨d₁, L₁, hrun, H₁⟩ := run_written H hfits his.1
      obtain ⟨d', L', hruns, H'⟩ := ih (Or.inl H₁.holds) H₁.fits (his.2 d₁ hrun)
      refine ⟨d', L', ?_, H'⟩
      rw [runAll, List.foldlM_cons, hrun]
      exact hruns

end Incarnation

/-! ## One frame -/

variable (hash : Int64 → UInt32) (b : Build) {P : Key → UInt32} {L : Key → List Frame} {n : Key → ℕ}
  {keys : List (List Key)} {sink : CopySink} {k : Key} {fs : List Frame} {f : Frame}

/-- The sink's journal `k` has the frames that were put into it, apart from end marks. -/
inductive Copied (P : UInt32) (sink : CopySink) (k : Key) (fs : List Frame) : Prop
  /-- Nothing was put, and there is no writer. -/
  | untouched (hwriter : sink.writers k = none) (hdir : sink.dirs k = Dir.empty P) (hfs : fs = [])
  /-- The writer stands behind what it wrote. -/
  | written {w : Writer} {M : List Frame} (hwriter : sink.writers k = some w)
      (hready : Ready k.location k.dest P (sink.dirs k, w) M)
      (hframes : userFrames M = userFrames fs)

theorem Copied.congr {Q : UInt32} {sink' : CopySink} (H : Copied Q sink k fs)
    (hdir : sink'.dirs k = sink.dirs k) (hwriter : sink'.writers k = sink.writers k) :
    Copied Q sink' k fs := by
  cases H with
  | untouched hw hd hfs => exact .untouched (hwriter.trans hw) (hdir.trans hd) hfs
  | written hw hready hframes => exact .written (hwriter.trans hw) (hdir ▸ hready) hframes

/-- What is found in the page files. -/
theorem Copied.contents {Q : UInt32} (H : Copied Q sink k fs) :
    userFrames (sink.dirs k).contents = userFrames fs := by
  cases H with
  | untouched hw hd hfs =>
      rw [hd, hfs]
      rfl
  | written hw hready hframes => rw [hready.holds.contents_eq, hframes]

/-- The writer stands behind what was put, whether it is new or not. -/
theorem Copied.writer {Q : UInt32} (H : Copied Q sink k fs)
    (hQ : pageHeaderSize + frameHeaderSize < Q.toNat) (now : Reading → Int64) :
    ∃ s M, sink.writer hash now k = .ok s ∧ Ready k.location k.dest Q s M ∧
      userFrames M = userFrames fs := by
  cases H with
  | untouched hw hd hfs =>
      obtain ⟨s, hmake, hready⟩ := make_ready hash k.location k.dest true (now .started)
        (Dir.stores_empty hQ) (clear_nil Q (now .sought))
      exact ⟨s, [], by rw [CopySink.writer, hw, hd, ← hmake], hready, by rw [hfs]⟩
  | written hw hready hframes => exact ⟨_, _, by rw [CopySink.writer, hw], hready, hframes⟩

/-- A frame that is put is appended to the journal of its key, and no other journal changes. -/
theorem Copied.put {Q : UInt32} (H : Copied Q sink k fs) {src : Mem} {a : ℕ} (hsrc : FrameAt src a f)
    (hfit : pageHeaderSize + f.length + frameHeaderSize < Q.toNat) (now : Reading → Int64) :
    ∃ sink', sink.put hash b now k src a = .ok sink' ∧ Copied Q sink' k (fs ++ [f]) ∧
      ∀ k' ≠ k, sink'.dirs k' = sink.dirs k' ∧ sink'.writers k' = sink.writers k' := by
  obtain ⟨s, M, hwriter, hready, hframes⟩ := H.writer hash (by omega) now
  obtain ⟨⟨d, w⟩, hcopy, hready'⟩ := copyFrame_ready hready b (now .triggered) (now .closed) hsrc hfit
  refine ⟨⟨Function.update sink.dirs k d, Function.update sink.writers k (some w)⟩, ?_, ?_, ?_⟩
  · simp only [CopySink.put, hwriter, ok_bind, hcopy]
  · have hdir : (Function.update sink.dirs k d) k = d := Function.update_self ..
    refine .written (Function.update_self ..) (hdir.symm ▸ hready') ?_
    simp only [userFrames_append, hframes, userFrames_switchMark, List.append_nil]
  · exact fun k' hk' => ⟨Function.update_of_ne hk' .., Function.update_of_ne hk' ..⟩

/-! ## The whole run -/

/-- What the readers stand in: written journals. -/
theorem Assemble.ReaderAt.currentHead {r : Reader.State} (H : Assemble.ReaderAt P L n r)
    {a : Assemble} {i : ℕ} (hi : a.current = some i) (hr : a.readers[i]? = some r)
    (hk : r.2.current = some k) (hf : (L k)[n k]? = some f) :
    ∃ src frame, a.currentHead = some (k, src, frame) ∧ FrameAt src frame f := by
  obtain ⟨hhead, hat⟩ := H.currentHead_spec hk hf
  exact ⟨_, _, by simp [Assemble.currentHead, hi, hr, hhead], hat⟩

/-- Every round copies one frame, until every journal was read to its end. -/
theorem copyTo_spec {a : Assemble} (H : Assemble.Stands keys P L n a.readers)
    (hnodup : keys.flatten.Nodup)
    (hfits : ∀ k ∈ keys.flatten, ∀ f ∈ L k, pageHeaderSize + f.length + frameHeaderSize <
      (P k).toNat)
    {clock : ℕ → Reading → Int64}
    (hshown : ∀ round reading, ∀ ks ∈ keys, Assemble.Shown L (clock round reading) ks)
    (hsink : ∀ k, Copied (P k) sink k ((L k).take (n k))) {fuel : ℕ}
    (hfuel : remaining L n keys.flatten < fuel) :
    ∃ a' sink', copyTo hash b clock fuel (a, sink) = .ok (a', sink') ∧
      ∀ k ∈ keys.flatten, Copied (P k) sink' k (L k) := by
  induction fuel generalizing n a sink with
  | zero => exact absurd hfuel (Nat.not_lt_zero _)
  | succ fuel ih =>
      obtain ⟨available, a₁, havail, H₁, htrue, hfalse⟩ :=
        Assemble.dataAvailable_spec H (hshown fuel)
      rw [copyTo, havail, ok_bind]
      cases available with
      | false =>
          refine ⟨a₁, sink, rfl, fun k hk => ?_⟩
          obtain ⟨ks, hks, hk⟩ := List.mem_flatten.mp hk
          have hcopied := hsink k
          rwa [List.take_of_length_le (hfalse rfl ks hks k hk)] at hcopied
      | true =>
          obtain ⟨i, r, hi, hr, k, f, hk, hf⟩ := htrue rfl
          have Hr := H₁.readerAt r (List.mem_of_getElem? hr)
          obtain ⟨hlt, hget⟩ := List.getElem?_eq_some_iff.mp hf
          have hkeys : k ∈ keys.flatten := by
            rw [← H₁.keys_eq]
            exact List.mem_flatten.mpr ⟨_, List.mem_map_of_mem (List.mem_of_getElem? hr),
              Hr.wf.current k hk⟩
          obtain ⟨src, frame, hhead, hsrc⟩ := Hr.currentHead hi hr hk hf
          obtain ⟨sink₁, hput, hcopied, hothers⟩ := (hsink k).put hash b hsrc
            (hfits k hkeys f (List.mem_of_getElem? hf)) (clock fuel)
          obtain ⟨a₂, hnext, H₂⟩ := Assemble.next_spec H₁ hnodup (hshown fuel) hi hr hk hlt
          have hsink₁ : ∀ k', Copied (P k') sink₁ k' ((L k').take (advance n k k')) := by
            intro k'
            by_cases hkk : k' = k
            · subst hkk
              rwa [advance_same, List.take_add_one, hf, Option.toList_some]
            · rw [advance_of_ne n hkk]
              exact (hsink k').congr (hothers k' hkk).1 (hothers k' hkk).2
          have hless := remaining_advance hnodup hkeys hlt
          obtain ⟨a', sink', hrun, hend⟩ := ih H₂ hsink₁ (by omega)
          exact ⟨a', sink', by simp only [if_true, hhead, hput, hnext, ok_bind, hrun], hend⟩

/-- The journals of any number of locators, written before, are copied into an empty target:
apart from end marks every target journal has the frames of its source, in their order and
unchanged. -/
theorem copy_preserves_journals {locators : List Locator}
    (hnodup : (locators.flatMap Locator.keys).Nodup)
    (hwritten : ∀ l ∈ locators, ∀ k ∈ l.keys, (l.dirs k).Written (P k) (L k))
    (hframes : ∀ k ∈ locators.flatMap Locator.keys, ∀ f ∈ L k, 0 < f.msgType ∧ 0 < f.genTime)
    {start : ℕ → Int64} {clock : ℕ → Reading → Int64}
    (hpast : ∀ k ∈ locators.flatMap Locator.keys, ∀ f ∈ L k,
      (∀ i, f.genTime < start i) ∧ ∀ round reading, f.genTime < clock round reading) :
    ∃ a, Assemble.make start locators = .ok a ∧
      ∀ fuel, ((locators.flatMap Locator.keys).map fun k => (L k).length).sum < fuel →
        ∃ a' sink, copyTo hash b clock fuel (a, CopySink.make fun k => Dir.empty (P k)) =
            .ok (a', sink) ∧
          ∀ l ∈ locators, ∀ k ∈ l.keys,
            userFrames (sink.dirs k).contents = userFrames (l.dirs k).contents := by
  have hdata : ∀ k ∈ locators.flatMap Locator.keys, ∀ f ∈ L k, f.hasData = true :=
    fun k hk f hf => decide_eq_true (hframes k hk f hf).1
  obtain ⟨a, keys, hmake, H, hperm⟩ := Assemble.make_spec hnodup
    (fun l hl k hk => (hwritten l hl k hk).holds) (fun k hk f hf => (hframes k hk f hf).2)
    fun i k hk f hf => ⟨hdata k hk f hf, (hpast k hk f hf).1 i⟩
  refine ⟨a, hmake, fun fuel hfuel => ?_⟩
  have hfits : ∀ k ∈ keys.flatten, ∀ f ∈ L k,
      pageHeaderSize + f.length + frameHeaderSize < (P k).toNat := by
    intro k hk
    obtain ⟨l, hl, hk⟩ := List.mem_flatMap.mp (hperm.mem_iff.mp hk)
    exact (hwritten l hl k hk).fits
  have hshown : ∀ round reading, ∀ ks ∈ keys, Assemble.Shown L (clock round reading) ks := by
    intro round reading ks hks k hk f hf
    have hk' := hperm.mem_iff.mp (List.mem_flatten.mpr ⟨ks, hks, hk⟩)
    exact ⟨hdata k hk' f hf, (hpast k hk' f hf).2 round reading⟩
  have hremaining : remaining L (fun _ => 0) keys.flatten =
      ((locators.flatMap Locator.keys).map fun k => (L k).length).sum :=
    (hperm.map fun k => (L k).length).sum_eq
  have hempty : ∀ k, Copied (P k) (CopySink.make fun k => Dir.empty (P k)) k ((L k).take 0) :=
    fun k => .untouched rfl rfl List.take_zero
  obtain ⟨a', sink, hrun, hcopied⟩ := copyTo_spec hash b H (hperm.nodup_iff.mpr hnodup) hfits
    hshown hempty (hremaining ▸ hfuel)
  refine ⟨a', sink, hrun, fun l hl k hk => ?_⟩
  have hkeys : k ∈ keys.flatten := hperm.mem_iff.mpr (List.mem_flatMap.mpr ⟨l, hl, hk⟩)
  rw [(hcopied k hkeys).contents, (hwritten l hl k hk).holds.contents_eq]

/-- A process that writes three frames, of which two fit a page of 200 bytes. -/
def Incarnation.three (now : Int64) : Incarnation where
  startTime := now
  now := now
  lazy := false
  writes := List.replicate 3 (.record now ⟨0, 7, 30, List.replicate 30 1, none, now⟩)
  opened := none

theorem exists_three (location : UInt32) (h : okAnd (Incarnation.runAll (fun _ => 0) .checked
    location 2 (Dir.empty 200) [.three 10]) (fun d => decide (d.contents.length = 4) &&
      d.contents.all fun f => decide (0 < f.msgType ∧ 0 < f.genTime ∧ f.genTime < 30)) = true) :
    ∃ d, Incarnation.runAll (fun _ => 0) .checked location 2 (Dir.empty 200) [.three 10] = .ok d ∧
      d.Written 200 d.contents ∧ d.contents.length = 4 ∧
      ∀ f ∈ d.contents, (0 < f.msgType ∧ 0 < f.genTime) ∧ f.genTime < 30 := by
  have hsafe : Incarnation.AllSafe (fun _ => 0) .checked location 2 200 (Dir.empty 200) [.three 10] :=
    ⟨⟨clear_nil 200 10, by decide, by simp [Incarnation.three]⟩, fun _ _ => trivial⟩
  obtain ⟨d, L, hrun, H⟩ := Incarnation.runAll_written (Dir.stores_empty (P := 200) (by decide))
    (fun f hf => absurd hf List.not_mem_nil) hsafe
  obtain ⟨d', hrun', htest⟩ := exists_of_okAnd h
  obtain rfl : d = d' := Except.ok.inj (hrun.symm.trans hrun')
  obtain rfl : d.contents = L := H.holds.contents_eq
  simp only [Bool.and_eq_true, decide_eq_true_eq, List.all_eq_true] at htest
  exact ⟨d, hrun, H, htest.1, fun f hf => ⟨⟨(htest.2 f hf).1, (htest.2 f hf).2.1⟩, (htest.2 f hf).2.2⟩⟩

/-- Two locators with a journal of two pages each, all frames with the same time. -/
theorem copy_preserves_journals_two :
    ∃ d₁ d₂, Incarnation.runAll (fun _ => 0) .checked 1 2 (Dir.empty 200) [.three 10] = .ok d₁ ∧
      Incarnation.runAll (fun _ => 0) .checked 3 2 (Dir.empty 200) [.three 10] = .ok d₂ ∧
      ∃ a, Assemble.make (fun _ => 30) [⟨fun _ => d₁, [⟨⟨1, 2⟩, 30, .front⟩]⟩,
          ⟨fun _ => d₂, [⟨⟨3, 2⟩, 30, .front⟩]⟩] = .ok a ∧
        ∀ fuel, 8 < fuel → ∃ a' sink, copyTo (fun _ => 0) .checked (fun _ _ => 30) fuel
            (a, CopySink.make fun _ => Dir.empty 200) = .ok (a', sink) ∧
          userFrames (sink.dirs ⟨1, 2⟩).contents = userFrames d₁.contents ∧
          userFrames (sink.dirs ⟨3, 2⟩).contents = userFrames d₂.contents := by
  obtain ⟨d₁, hrun₁, H₁, hlen₁, hframes₁⟩ := exists_three 1 (by decide +kernel)
  obtain ⟨d₂, hrun₂, H₂, hlen₂, hframes₂⟩ := exists_three 3 (by decide +kernel)
  refine ⟨d₁, d₂, hrun₁, hrun₂, ?_⟩
  obtain ⟨a, hmake, hcopy⟩ := @copy_preserves_journals (fun _ => 0) .checked (fun _ => 200)
    (fun k => if k.location = 1 then d₁.contents else d₂.contents)
    [⟨fun _ => d₁, [⟨⟨1, 2⟩, 30, .front⟩]⟩, ⟨fun _ => d₂, [⟨⟨3, 2⟩, 30, .front⟩]⟩] (by simp [Locator.keys])
    (by simpa [Locator.keys] using ⟨H₁, H₂⟩)
    (by simpa [Locator.keys] using ⟨fun f hf => (hframes₁ f hf).1, fun f hf => (hframes₂ f hf).1⟩)
    (fun _ => 30) (fun _ _ => 30)
    (by simpa [Locator.keys] using ⟨fun f hf => ⟨(hframes₁ f hf).2, fun _ => (hframes₁ f hf).2⟩,
      fun f hf => ⟨(hframes₂ f hf).2, fun _ => (hframes₂ f hf).2⟩⟩)
  refine ⟨a, hmake, fun fuel hfuel => ?_⟩
  obtain ⟨a', sink, hrun, hall⟩ := hcopy fuel (by simpa [Locator.keys, hlen₁, hlen₂] using hfuel)
  exact ⟨a', sink, hrun, by simpa [Locator.keys] using hall⟩

/-- A frame of message type zero is never shown, so neither it nor the frame behind it is
copied. -/
theorem type_zero_not_copied :
    ∃ d, Incarnation.runAll (fun _ => 0) .checked 1 2 (Dir.empty 200)
        [{ Incarnation.three 10 with
          writes := [.record 10 (.mark 0 0 10), .record 10 (.mark 0 7 20)] }] = .ok d ∧
      d.Written 200 d.contents ∧ Chronological d.contents ∧
      (∀ f ∈ userFrames d.contents, f.genTime < 30) ∧ (userFrames d.contents).length = 2 ∧
      ∃ a, Assemble.make (fun _ => 30) [⟨fun _ => d, [⟨⟨1, 2⟩, 30, .front⟩]⟩] = .ok a ∧
        ∃ a' sink, copyTo (fun _ => 0) .checked (fun _ _ => 30) 5
            (a, CopySink.make fun _ => Dir.empty 200) = .ok (a', sink) ∧
          (sink.dirs ⟨1, 2⟩).contents = [] := by
  have hsafe : Incarnation.AllSafe (fun _ => 0) .checked 1 2 200 (Dir.empty 200)
      [{ Incarnation.three 10 with
        writes := [.record 10 (.mark 0 0 10), .record 10 (.mark 0 7 20)] }] :=
    ⟨⟨clear_nil 200 10, by decide, by simp [Incarnation.three]⟩, fun _ _ => trivial⟩
  obtain ⟨d, L, hrun, H⟩ := Incarnation.runAll_written (Dir.stores_empty (P := 200) (by decide))
    (fun f hf => absurd hf List.not_mem_nil) hsafe
  obtain rfl : d.contents = L := H.holds.contents_eq
  have htest : okAnd (Incarnation.runAll (fun _ => 0) .checked 1 2 (Dir.empty 200)
      [{ Incarnation.three 10 with
        writes := [.record 10 (.mark 0 0 10), .record 10 (.mark 0 7 20)] }]) (fun d =>
      decide (Chronological d.contents) && decide (∀ f ∈ userFrames d.contents, f.genTime < 30) &&
      decide ((userFrames d.contents).length = 2) &&
      okAnd (Assemble.make (fun _ => 30) [⟨fun _ => d, [⟨⟨1, 2⟩, 30, .front⟩]⟩]) fun a =>
        okAnd (copyTo (fun _ => 0) .checked (fun _ _ => 30) 5
          (a, CopySink.make fun _ => Dir.empty 200)) fun r =>
            decide ((r.2.dirs ⟨1, 2⟩).contents = [])) = true := by decide +kernel
  rw [hrun] at htest
  simp only [okAnd, Bool.and_eq_true, decide_eq_true_eq] at htest
  obtain ⟨⟨⟨hchron, htime⟩, hlen⟩, hrest⟩ := htest
  obtain ⟨a, hmake, hrest⟩ := exists_of_okAnd hrest
  obtain ⟨⟨a', sink⟩, hcopy, hnil⟩ := exists_of_okAnd hrest
  exact ⟨d, hrun, H, hchron, htime, hlen, a, hmake, a', sink, hcopy, of_decide_eq_true hnil⟩

end Kungfu.Yijinjing
