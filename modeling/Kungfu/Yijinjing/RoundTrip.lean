import Kungfu.Yijinjing.LiveMerge

/-!
# What is written is read back

A writer on a fresh directory performs writes that fit a page, and a live reader joins the
journal from time zero and reads until nothing is available.  Apart from end marks it
delivers the written frames, in order, each once and unchanged, over any number of pages.

A frame is shown only if its message type is positive, and the seek to zero passes frames
stamped with no positive time, so both are needed of what is written.
-/

namespace Kungfu.Yijinjing

open Merge Writer

/-- The frames that are not end marks. -/
def userFrames (L : List Frame) : List Frame := L.filter fun f => !f.isPageEnd

/-- `open_frame`, stores and `close_frame` for every record, with the clock at its open. -/
def records (ws : List (Int64 × Record)) : List Write := ws.map fun w => .record w.1 w.2

variable {location dest P : UInt32} {L : List Frame}

@[simp] theorem userFrames_append (L M : List Frame) :
    userFrames (L ++ M) = userFrames L ++ userFrames M := List.filter_append L M

theorem isPageEnd_pageEnd (now triggerTime : Int64) :
    (pageEnd location dest now triggerTime).isPageEnd = true := by
  simp [Frame.isPageEnd, pageEnd]

@[simp] theorem userFrames_switchMark (now triggerTime : Int64) (n : ℕ) :
    userFrames (switchMark location dest P now triggerTime n L) = [] := by
  rw [userFrames, List.filter_eq_nil_iff]
  intro f hf
  simp [mem_switchMark hf, isPageEnd_pageEnd]

/-! ## The frames of a run of writes -/

theorem userFrames_allFrames (ws : List (Int64 × Record)) :
    userFrames (Write.allFrames location dest P L (records ws)) =
      userFrames (ws.map fun w => w.2.toFrame location dest) := by
  induction ws generalizing L with
  | nil => rfl
  | cons w ws ih =>
      have hstep := ih (L := L ++ (Write.record w.1 w.2).frames location dest P L)
      rw [records] at hstep
      rw [records, List.map_cons, Write.allFrames, userFrames_append, hstep, Write.frames,
        userFrames_append, userFrames_switchMark, List.nil_append, ← userFrames_append]
      rfl

theorem length_allFrames_le (ws : List (Int64 × Record)) :
    (Write.allFrames location dest P L (records ws)).length ≤ 2 * ws.length := by
  induction ws generalizing L with
  | nil => exact le_rfl
  | cons w ws ih =>
      have hstep := ih (L := L ++ (Write.record w.1 w.2).frames location dest P L)
      have hmark : (switchMark location dest P w.1 w.2.triggerTime
          (frameHeaderSize + w.2.length.toNat) L).length ≤ 1 := by
        rw [switchMark]
        split <;> simp
      rw [records] at hstep
      rw [records, List.map_cons, Write.allFrames, List.length_append, Write.frames,
        List.length_append, List.length_cons]
      simp only [Write.frames, List.length_cons, List.length_nil] at hstep ⊢
      omega

/-- The frames of the journal are end marks, stamped by the clock, and the given ones. -/
theorem mem_allFrames {ws : List (Int64 × Record)} {f : Frame}
    (h : f ∈ Write.allFrames location dest P L (records ws)) :
    ∃ w ∈ ws, f = pageEnd location dest w.1 w.2.triggerTime ∨ f = w.2.toFrame location dest := by
  induction ws generalizing L with
  | nil => exact absurd h List.not_mem_nil
  | cons w ws ih =>
      rw [records, List.map_cons, Write.allFrames, List.mem_append, Write.frames,
        List.mem_append, List.mem_singleton] at h
      rcases h with (hmark | hframe) | hrest
      · exact ⟨w, List.mem_cons_self, Or.inl (mem_switchMark hmark)⟩
      · exact ⟨w, List.mem_cons_self, Or.inr hframe⟩
      · obtain ⟨v, hv, hf⟩ := ih hrest
        exact ⟨v, List.mem_cons_of_mem w hv, hf⟩

/-- The journal starts with an end mark or with the first frame that was given. -/
theorem genTime_head_allFrames {ws : List (Int64 × Record)} (hclock : ∀ w ∈ ws, 0 < w.1)
    (hfirst : ∀ w ∈ ws.head?, 0 < w.2.genTime) :
    ∀ f ∈ (Write.allFrames location dest P L (records ws)).head?, 0 < f.genTime := by
  cases ws with
  | nil => exact fun f hf => absurd hf (by simp [records, Write.allFrames])
  | cons w ws =>
      intro f hf
      rw [records, List.map_cons, Write.allFrames, Write.frames, switchMark] at hf
      split at hf
      · obtain rfl : pageEnd location dest w.1 w.2.triggerTime = f := by simpa using hf
        exact hclock w List.mem_cons_self
      · obtain rfl : w.2.toFrame location dest = f := by simpa using hf
        exact hfirst w rfl

/-! ## A seek to time zero lands on the first frame -/

/-- The page loop of a seek to zero passes none of the pages that are closed. -/
def OpenAtZero (P : UInt32) (L : List Frame) : Prop :=
  ∀ fs ∈ closedPages L, endedBy P 0 fs = false

theorem OpenAtZero.concat (H : OpenAtZero P L) {f : Frame}
    (hf : f.isPageEnd = true → endedBy P 0 (lastPage L ++ [f]) = false) :
    OpenAtZero P (L ++ [f]) := by
  intro fs hfs
  by_cases hend : f.isPageEnd
  · rw [closedPages, Segment.split_concat_of_end _ L hend] at hfs
    rcases List.mem_append.mp hfs with hfs | hfs
    · exact H fs hfs
    · rw [List.mem_singleton.mp hfs]
      exact hf hend
  · rw [closedPages, Segment.split_concat_of_not_end _ L (by simpa using hend)] at hfs
    exact H fs hfs

/-- An end mark is stamped after time zero, and a written frame, whatever its type, leaves
its page with room for another header. -/
theorem OpenAtZero.write (H : OpenAtZero P L) (location dest : UInt32) {now : Int64} (hnow : 0 < now) {r : Record}
    (hfits : (Write.record now r).Fits P) :
    OpenAtZero P (L ++ (Write.record now r).frames location dest P L) := by
  obtain ⟨hlen, hfit⟩ := hfits
  have hroom := room_switchMark location dest now r.triggerTime L hfit
  rw [Write.frames, ← List.append_assoc]
  refine OpenAtZero.concat ?_ fun _ => ?_
  · rw [switchMark]
    split
    · refine H.concat fun _ => ?_
      have hlate : ¬ now ≤ 0 := Int64.not_le.mpr hnow
      simp [endedBy, pageLast, pageEnd, hlate]
    · simpa using H
  · have hframe : (r.toFrame location dest).length ≤ frameHeaderSize + r.length.toNat :=
      Nat.add_le_add_left hlen _
    simp only [endCursor] at hroom
    have hfull : ¬ P.toNat - frameHeaderSize < pageHeaderSize + span (lastPage
        (L ++ switchMark location dest P now r.triggerTime (frameHeaderSize + r.length.toNat) L) ++
          [r.toFrame location dest]) := by
      rw [span_append, span_cons, span_nil]
      omega
    rw [endedBy, decide_eq_false hfull, Bool.false_and]

theorem OpenAtZero.writeAll (H : OpenAtZero P L) {ws : List (Int64 × Record)}
    (hclock : ∀ w ∈ ws, 0 < w.1) (hfits : ∀ w ∈ ws, (Write.record w.1 w.2).Fits P) :
    OpenAtZero P (L ++ Write.allFrames location dest P L (records ws)) := by
  induction ws generalizing L with
  | nil => simpa [records, Write.allFrames] using H
  | cons w ws ih =>
      have hstep := ih (H.write location dest (hclock w List.mem_cons_self)
        (hfits w List.mem_cons_self))
        (fun v hv => hclock v (List.mem_cons_of_mem w hv))
        fun v hv => hfits v (List.mem_cons_of_mem w hv)
      rw [records, List.map_cons, Write.allFrames, ← List.append_assoc]
      exact hstep

/-- Closed pages end with a frame, and no frame is stamped with time zero or before it. -/
theorem openAtZero_of_pos (h : ∀ f ∈ L, 0 < f.genTime) : OpenAtZero P L := by
  intro fs hfs
  obtain ⟨gs, e, rfl, -, -⟩ := Segment.closed_shape Frame.isPageEnd hfs
  have he : e ∈ L := by
    rw [← flatten_pages L, pages_eq]
    exact List.mem_flatten.mpr ⟨gs ++ [e], List.mem_append_left _ hfs, by simp⟩
  have hlate : ¬ e.genTime ≤ 0 := Int64.not_le.mpr (h e he)
  simp [endedBy, pageLast, hlate]

theorem seekIndex_zero {d : Dir} (H : d.Holds P L) (hopen : OpenAtZero P L)
    (hfirst : ∀ f ∈ L.head?, 0 < f.genTime) : seekIndex P 0 L = 0 := by
  have hskip : (pages L).takeWhile (endedBy P 0) = [] := by
    have hall : ∀ fs ∈ pages L, endedBy P 0 fs = false := by
      intro fs hfs
      rcases List.mem_append.mp hfs with hfs | hfs
      · exact hopen fs hfs
      · rw [List.mem_singleton.mp hfs]
        exact H.endedBy_lastPage 0
    rw [List.takeWhile_eq_nil_iff]
    intro hpos
    rw [hall _ (List.get_mem _ _)]
    exact Bool.false_ne_true
  have hscan : L.takeWhile (passedBy 0) = [] := by
    cases L with
    | nil => rfl
    | cons f L =>
        have hlate : ¬ f.genTime ≤ 0 := Int64.not_le.mpr (hfirst f rfl)
        rw [List.takeWhile_cons, if_neg (by simp [passedBy, hlate])]
  simp [seekIndex, seekPage, foundPage, hskip, pageStart, scanFrom, hscan]

/-! ## The round trip -/

/-- A fresh journal is written, and a live reader that joins it from time zero delivers
the written frames. -/
theorem write_read_round_trip (hash : Int64 → UInt32) (b : Build) (location dest : UInt32)
    (hP : pageHeaderSize + frameHeaderSize < P.toNat) {ws : List (Int64 × Record)}
    (hfits : ∀ w ∈ ws, w.2.data.length ≤ w.2.length.toNat ∧
      pageHeaderSize + (frameHeaderSize + w.2.length.toNat) + frameHeaderSize < P.toNat)
    (htype : ∀ w ∈ ws, 0 < w.2.msgType) (hfirst : ∀ w ∈ ws.head?, 0 < w.2.genTime)
    (hclock : ∀ w ∈ ws, 0 < w.1) (lazy : Bool) (startTime now : Int64) :
    ∃ s₀ s, Writer.make hash location dest lazy startTime now (Dir.empty P) = .ok s₀ ∧
      Write.runAll b s₀ (records ws) = .ok s ∧
      ∀ (dirs : Key → Dir), dirs ⟨location, dest⟩ = s.1 →
        ∀ (order : HashOrder) (time : Int64) (lazyReader : Bool) (clock : ℕ → Int64),
          ∃ r, Reader.join order time ⟨location, dest⟩ 0 (dirs, Reader.make lazyReader true) = .ok r ∧
            ∀ fuel, 2 * ws.length < fuel → ∃ out r', Reader.readAll clock fuel r = .ok (out, r') ∧
              userFrames (out.map Prod.snd) =
                userFrames (ws.map fun w => w.2.toFrame location dest) := by
  obtain ⟨s₀, hmake, H₀⟩ := Writer.make_ready hash location dest lazy startTime
    (Dir.stores_empty hP) (clear_nil P now)
  have hws : ∀ w ∈ records ws, w.Fits P := by
    intro w hw
    obtain ⟨v, hv, rfl⟩ := List.mem_map.mp hw
    exact hfits v hv
  obtain ⟨s, hrun, H⟩ := Write.runAll_ready H₀ b hws
  rw [List.nil_append] at H
  refine ⟨s₀, s, hmake, hrun, fun dirs hdirs order time lazyReader clock => ?_⟩
  set L := Write.allFrames location dest P [] (records ws) with hL
  set k : Key := ⟨location, dest⟩ with hk
  have hzero : seekIndex P 0 L = 0 := by
    have hopen : OpenAtZero P [] := fun fs hfs => absurd hfs List.not_mem_nil
    exact seekIndex_zero H.holds (hopen.writeAll hclock hfits)
      (genTime_head_allFrames hclock hfirst)
  have hdata : ∀ f ∈ L, f.hasData = true := by
    intro f hf
    obtain ⟨w, hw, rfl | rfl⟩ := mem_allFrames hf
    · rfl
    · exact decide_eq_true (htype w hw)
  have H₁ : Reader.Tracks {k} (fun _ => P) (fun _ => L) true (fun _ => 0)
      (dirs, Reader.make lazyReader true) := by
    refine Reader.tracks_make (fun k' hk' => ?_) lazyReader true
    rw [Set.mem_singleton_iff.mp hk', hdirs]
    exact H.holds
  have hnew : k ∉ (Reader.make lazyReader true).keys := List.not_mem_nil
  obtain ⟨r, hjoin, H₂, hkeys⟩ := H₁.join (Set.mem_singleton k) hnew order time 0
  refine ⟨r, hjoin, fun fuel hfuel => ?_⟩
  have hkeys' : r.2.keys = [k] := List.perm_singleton.mp hkeys
  have hlen : L.length ≤ 2 * ws.length := length_allFrames_le ws
  have hremaining : Merge.remaining (fun _ => L)
      (Function.update (fun _ => 0) k (seekIndex P 0 L)) r.2.keys < fuel := by
    simp [Merge.remaining, hkeys', hzero]
    omega
  obtain ⟨out, r', n', hread, hreads, hend⟩ := H₂.readAll (fun _ _ => hdata) clock hremaining
  refine ⟨out, r', hread, ?_⟩
  have hall : out.filter (fun p => p.1 = k) = out := by
    refine List.filter_eq_self.mpr fun p hp => ?_
    obtain ⟨-, -, -, m, hrule⟩ := hreads.exists_of_mem (k := p.1) (x := p.2) hp
    simpa [hkeys'] using hrule.joined
  have hout := hreads.filter_eq k
  rw [hall, hend k (by simp [hkeys']), Function.update_self, hzero, List.drop_zero, Nat.sub_zero,
    List.take_length] at hout
  rw [hout, hL, userFrames_allFrames]

theorem write_read_round_trip_two :
    ∃ s₀ s, Writer.make (fun _ => 0) 1 2 false 10 10 (Dir.empty 200) = .ok s₀ ∧
      Write.runAll .checked s₀ (records [(10, ⟨5, 7, 90, [1, 2, 3], none, 11⟩),
        (12, ⟨6, 8, 90, [4, 5], some (3, 4), 9⟩)]) = .ok s ∧
      ∀ (dirs : Key → Dir), dirs ⟨1, 2⟩ = s.1 →
        ∀ (order : HashOrder) (time : Int64) (lazyReader : Bool) (clock : ℕ → Int64),
          ∃ r, Reader.join order time ⟨1, 2⟩ 0 (dirs, Reader.make lazyReader true) = .ok r ∧
            ∀ fuel, 4 < fuel → ∃ out r', Reader.readAll clock fuel r = .ok (out, r') ∧
              userFrames (out.map Prod.snd) =
                [⟨11, 5, 7, 1, 2, [1, 2, 3]⟩, ⟨9, 6, 8, 3, 4, [4, 5]⟩] :=
  write_read_round_trip (fun _ => 0) .checked 1 2 (by decide) (by decide) (by decide) (by decide)
    (by decide) false 10 10

/-- A frame of message type zero is written but not read back, nor is the frame after it. -/
theorem type_zero_not_read_back :
    ∃ s₀ s, Writer.make (fun _ => 0) 1 2 false 10 10 (Dir.empty 200) = .ok s₀ ∧
      Write.runAll .checked s₀ (records [(10, .mark 0 0 11), (12, .mark 0 7 13)]) = .ok s ∧
      ∃ r, Reader.join .front 20 ⟨1, 2⟩ 0 (fun _ => s.1, Reader.make true true) = .ok r ∧
        ∃ r', Reader.readAll (fun _ => 20) 5 r = .ok ([], r') := by
  have hrun : okAnd (Writer.make (fun _ => 0) 1 2 false 10 10 (Dir.empty 200)) (fun s₀ =>
      okAnd (Write.runAll .checked s₀ (records [(10, .mark 0 0 11), (12, .mark 0 7 13)])) fun s =>
        okAnd (Reader.join .front 20 ⟨1, 2⟩ 0 (fun _ => s.1, Reader.make true true)) fun r =>
          okAnd (Reader.readAll (fun _ => 20) 5 r) fun out => decide (out.1 = [])) = true := by
    decide +kernel
  obtain ⟨s₀, hs₀, hrest⟩ := exists_of_okAnd hrun
  obtain ⟨s, hs, hrest⟩ := exists_of_okAnd hrest
  obtain ⟨r, hr, hrest⟩ := exists_of_okAnd hrest
  obtain ⟨out, hout, hnil⟩ := exists_of_okAnd hrest
  exact ⟨s₀, s, hs₀, hs, r, hr, out.2, by rw [hout, ← of_decide_eq_true hnil]⟩

end Kungfu.Yijinjing
