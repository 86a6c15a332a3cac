import Kungfu.Practice.Hero
import Kungfu.Yijinjing.LiveMerge

/-!
# What the event loop dispatches

Every iteration ends with `reader_->next()`, which advances whatever journal is selected.
A handler that disjoins journals makes the reader select again, so the iteration dispatches
one frame and advances one journal, but not always the same one.

It is the same one as long as the last disjoin of every handler either leaves the journal
of the dispatched frame joined and first in the selection, or takes it away and leaves no
visible head (`Keeps`).  In a run of which this holds every journal's frames are
dispatched one after another, none lost or repeated.
-/

namespace Kungfu.Practice

open Yijinjing Merge

variable {W : Set Key} {P : Key → UInt32} {L L' : Key → List Frame} {n n' : Key → ℕ}
  {live : Bool} {h h' : Hero} {k : Key}

/-! ## Conditions on a run -/

/-- Other processes only append to the journals in `W`. -/
def Appends (W : Set Key) (P : Key → UInt32) (dirs dirs' : Key → Dir) : Prop :=
  ∀ k ∈ W, (dirs' k).Holds (P k) (dirs' k).contents ∧ (dirs k).contents <+: (dirs' k).contents

/-- A selection among the remaining journals takes `k` if it is still joined, and nothing
otherwise. -/
def Undisturbed (now : Int64) (k : Key) (s : Reader.State) : Prop :=
  if k ∈ s.2.keys then LastLeast (Reader.heads s) (s.2.minTime now) k
  else ∀ p ∈ Reader.heads s, ¬ p.2 ≤ s.2.minTime now

namespace Action

/-- The clock of a disjoin. -/
def clock : Action → Option Int64
  | disjoin now _ => some now
  | disjoinChannel now _ => some now
  | others _ => none
  | signalStop => none

/-- What others write is appended. -/
def Valid (W : Set Key) (P : Key → UInt32) : List Action → Hero → Prop
  | [], _ => True
  | a :: as, h => (∀ dirs, a = others dirs → Appends W P h.reader.1 dirs) ∧
      ∀ h', a.run h = .ok h' → Valid W P as h'

/-- The last disjoin of a handler that is dispatching a frame of `k` leaves the selection
of `k` undisturbed. -/
def Keeps (k : Key) : List Action → Hero → Prop
  | [], _ => True
  | a :: as, h => ((∀ b ∈ as, b.clock = none) → ∀ now, a.clock = some now →
        Undisturbed now k (a.removed h.reader)) ∧
      ∀ h', a.run h = .ok h' → Keeps k as h'

end Action

/-- Every handler that runs in a loop is valid and keeps the selection. -/
def LoopSafe (W : Set Key) (P : Key → UInt32) : List Round → Hero → Prop
  | [], _ => True
  | r :: rounds, h => ∀ s k f, Reader.dataAvailable r.check h.reader = .ok (true, s) →
      Reader.currentFrame s = some (k, f) →
        Action.Valid W P r.handler (Hero.advanceTo { h with reader := s } f.genTime) ∧
        Action.Keeps k r.handler (Hero.advanceTo { h with reader := s } f.genTime) ∧
        ∀ h', Hero.dispatch r f { h with reader := s } = .ok h' → LoopSafe W P rounds h'

/-- Every handler that runs in a sequence of calls of `hero::drain` does; what happens
between the calls only has to be valid. -/
def RunSafe (W : Set Key) (P : Key → UInt32) : List Pass → Hero → Prop
  | [], _ => True
  | p :: ps, h => Action.Valid W P p.before (h.notified p.notice) ∧
      (∀ h', Action.runAll (h.notified p.notice) p.before = .ok h' → LoopSafe W P p.rounds h') ∧
      ∀ r, Hero.drain p h = .ok r → RunSafe W P ps r.hero

/-! ## Progress -/

/-- From `h` to `h'` the journals grew to `L'`, none was joined, and the frames were
dispatched, each taken at its journal's position. -/
structure Progress (W : Set Key) (P : Key → UInt32) (L : Key → List Frame) (n : Key → ℕ)
    (h : Hero) (frames : List (Key × Frame)) (L' : Key → List Frame) (n' : Key → ℕ) (h' : Hero) :
    Prop where
  tracks : Reader.Tracks W P L' h.isLive n' h'.reader
  grew : ∀ k, L k <+: L' k
  keys : ∀ k ∈ h'.reader.2.keys, k ∈ h.reader.2.keys
  isLive : h'.isLive = h.isLive
  reads : Reads (fun _ _ => True) L' n frames n'

namespace Progress

variable {frames frames' : List (Key × Frame)}

theorem refl (H : Reader.Tracks W P L h.isLive n h.reader) : Progress W P L n h [] L n h :=
  ⟨H, fun _ => List.prefix_rfl, fun _ hk => hk, rfl, Reads.nil n⟩

theorem trans {L'' : Key → List Frame} {n'' : Key → ℕ} {h'' : Hero}
    (H : Progress W P L n h frames L' n' h') (H' : Progress W P L' n' h' frames' L'' n'' h'') :
    Progress W P L n h (frames ++ frames') L'' n'' h'' := by
  refine ⟨H.isLive ▸ H'.tracks, fun k => (H.grew k).trans (H'.grew k),
    fun k hk => H.keys k (H'.keys k hk), H'.isLive.trans H.isLive, ?_⟩
  exact (H.reads.grow H'.grew).append H'.reads

/-- What was dispatched of a journal, followed by what is left of it, is the journal from
the first position on. -/
theorem drop_eq (H : Progress W P L n h frames L' n' h') (k : Key) :
    (L' k).drop (n k) = (frames.filter fun p => p.1 = k).map Prod.snd ++ (L' k).drop (n' k) := by
  have hle := H.reads.le k
  have hsplit := List.take_append_drop (n' k - n k) ((L' k).drop (n k))
  rw [List.drop_drop, Nat.add_sub_cancel' hle] at hsplit
  rw [H.reads.filter_eq k, hsplit]

end Progress

/-! ## Actions -/

namespace Action

theorem run_of_clock {a : Action} {now : Int64} (ha : a.clock = some now) (h : Hero) :
    a.run h = (Reader.sort now (a.removed h.reader)).map fun s => { h with reader := s } := by
  cases a with
  | disjoin now' location =>
      obtain rfl : now' = now := Option.some.inj ha
      rw [run, Reader.disjoin, removed]
      cases Reader.sort now' _ <;> rfl
  | disjoinChannel now' k =>
      obtain rfl : now' = now := Option.some.inj ha
      rw [run, Reader.disjoinChannel, removed]
      cases Reader.sort now' _ <;> rfl
  | others dirs => exact absurd ha (by simp [clock])
  | signalStop => exact absurd ha (by simp [clock])

theorem removed_tracks (H : Reader.Tracks W P L live n h.reader) {a : Action} {now : Int64}
    (ha : a.clock = some now) :
    Reader.Tracks W P L live n (a.removed h.reader) ∧ (a.removed h.reader).2.current = none ∧
      ∀ k ∈ (a.removed h.reader).2.keys, k ∈ h.reader.2.keys := by
  cases a with
  | disjoin now' location =>
      have hsub : (h.reader.2.journals.filter fun e => e.1.location ≠ location).Sublist
        h.reader.2.journals := List.filter_sublist
      exact ⟨H.restrict hsub, rfl, fun k hk => (hsub.map Prod.fst).subset hk⟩
  | disjoinChannel now' k =>
      have hsub : (h.reader.2.journals.eraseP fun e => e.1 = k).Sublist
        h.reader.2.journals := List.eraseP_sublist
      exact ⟨H.restrict hsub, rfl, fun k hk => (hsub.map Prod.fst).subset hk⟩
  | others dirs => exact absurd ha (by simp [clock])
  | signalStop => exact absurd ha (by simp [clock])

/-- After a disjoin the reader has selected among the remaining journals. -/
theorem run_disjoin (H : Reader.Tracks W P L h.isLive n h.reader) {a : Action} {now : Int64}
    (ha : a.clock = some now) :
    ∃ h', a.run h = .ok h' ∧ Progress W P L n h [] L n h' ∧
      h'.reader.2.keys = (a.removed h.reader).2.keys ∧
      h'.reader.2.current = pick (Reader.heads (a.removed h.reader))
        ((a.removed h.reader).2.minTime now) none := by
  obtain ⟨H₁, hcur₁, hsub⟩ := removed_tracks H ha
  obtain ⟨s, hsort, H₂, -, hjournals, hcur₂⟩ := H₁.sort now
  have hkeys : s.2.keys = (a.removed h.reader).2.keys := by
    rw [Reader.keys, Reader.keys, hjournals]
  refine ⟨{ h with reader := s }, ?_, ⟨H₂, fun _ => List.prefix_rfl, fun k hk => ?_, rfl,
    Reads.nil n⟩, hkeys, ?_⟩
  · rw [run_of_clock ha, hsort]
    rfl
  · exact hsub k (hkeys ▸ hk)
  · rw [hcur₂, hcur₁]

/-- One action. -/
theorem run_progress (H : Reader.Tracks W P L h.isLive n h.reader) {a : Action}
    (ha : ∀ dirs, a = others dirs → Appends W P h.reader.1 dirs) :
    ∃ h' L', a.run h = .ok h' ∧ Progress W P L n h [] L' n h' := by
  cases a with
  | disjoin now location =>
      obtain ⟨h', hrun, H', -⟩ := run_disjoin H (a := disjoin now location) rfl
      exact ⟨h', L, hrun, H'⟩
  | disjoinChannel now k =>
      obtain ⟨h', hrun, H', -⟩ := run_disjoin H (a := disjoinChannel now k) rfl
      exact ⟨h', L, hrun, H'⟩
  | others dirs =>
      classical
      have happ := ha dirs rfl
      let L' : Key → List Frame := fun k => if k ∈ W then (dirs k).contents else L k
      have hL : ∀ k, L k <+: L' k := by
        intro k
        by_cases hk : k ∈ W
        · have hpre := (happ k hk).2
          rw [(H.holds k hk).contents_eq] at hpre
          simpa [L', hk] using hpre
        · simp [L', hk]
      refine ⟨{ h with reader := (dirs, h.reader.2) }, L', rfl,
        ⟨H.append (fun k hk => ?_) fun k _ => hL k, hL, fun _ hk => hk, rfl, Reads.nil n⟩⟩
      simpa [L', hk] using (happ k hk).1
  | signalStop =>
      exact ⟨{ h with live := false }, L, rfl, H, fun _ => List.prefix_rfl, fun _ hk => hk, rfl,
        Reads.nil n⟩

theorem runAll_cons (a : Action) (as : List Action) (h : Hero) :
    runAll h (a :: as) = a.run h >>= fun h' => runAll h' as := List.foldlM_cons

theorem runAll_progress (H : Reader.Tracks W P L h.isLive n h.reader) {as : List Action}
    (has : Valid W P as h) :
    ∃ h' L', runAll h as = .ok h' ∧ Progress W P L n h [] L' n h' := by
  induction as generalizing h L with
  | nil => exact ⟨h, L, rfl, Progress.refl H⟩
  | cons a as ih =>
      obtain ⟨h₁, L₁, hrun, H₁⟩ := run_progress H has.1
      obtain ⟨h₂, L₂, hruns, H₂⟩ := ih (H₁.isLive ▸ H₁.tracks) (has.2 h₁ hrun)
      refine ⟨h₂, L₂, ?_, H₁.trans H₂⟩
      rw [runAll_cons, hrun]
      exact hruns

/-- The journal of the dispatched frame is selected, or it is gone and nothing is. -/
def Selected (k : Key) (h : Hero) : Prop :=
  h.reader.2.current = if k ∈ h.reader.2.keys then some k else none

/-- The last disjoin decides the selection that `reader_->next()` finds. -/
theorem runAll_selected (H : Reader.Tracks W P L h.isLive n h.reader) {as : List Action}
    (has : Valid W P as h) (hkeep : Keeps k as h)
    (hsel : (∀ a ∈ as, a.clock = none) → Selected k h) (hrun : runAll h as = .ok h') :
    Selected k h' := by
  induction as generalizing h L with
  | nil =>
      obtain rfl : h = h' := Except.ok.inj hrun
      exact hsel fun a ha => absurd ha List.not_mem_nil
  | cons a as ih =>
      obtain ⟨h₁, L₁, hrun₁, H₁⟩ := run_progress H has.1
      rw [runAll_cons, hrun₁] at hrun
      refine ih (H₁.isLive ▸ H₁.tracks) (has.2 h₁ hrun₁) (hkeep.2 h₁ hrun₁) (fun hrest => ?_) hrun
      cases hclock : a.clock with
      | some now =>
          have hund := hkeep.1 hrest now hclock
          obtain ⟨h₂, hrun₂, -, hkeys, hcur⟩ := run_disjoin H hclock
          obtain rfl : h₁ = h₂ := Except.ok.inj (hrun₁.symm.trans hrun₂)
          rw [Selected, hkeys, hcur]
          rw [Undisturbed] at hund
          split at hund
          · rw [if_pos ‹_›, pick_of_lastLeast none hund]
          · rw [if_neg ‹_›, pick_of_forall_not_le none hund]
      | none =>
          have hsel₀ : Selected k h := by
            refine hsel fun b hb => ?_
            rcases List.mem_cons.mp hb with rfl | hb
            · exact hclock
            · exact hrest b hb
          cases a with
          | disjoin now location => exact absurd hclock (by simp [clock])
          | disjoinChannel now k => exact absurd hclock (by simp [clock])
          | others dirs =>
              obtain rfl : { h with reader := (dirs, h.reader.2) } = h₁ := Except.ok.inj hrun₁
              exact hsel₀
          | signalStop =>
              obtain rfl : { h with live := false } = h₁ := Except.ok.inj hrun₁
              exact hsel₀

end Action

/-! ## The loop -/

namespace Hero

/-- `reader_->next()` after a handler that kept the selection. -/
theorem next_progress (H : Reader.Tracks W P L h.isLive n h.reader) (hsel : Action.Selected k h)
    (hlt : n k < (L k).length) (now : Int64) :
    ∃ s, Reader.next now h.reader = .ok s ∧
      Reader.Tracks W P L h.isLive (advance n k) s ∧ s.2.keys = h.reader.2.keys := by
  rw [Action.Selected] at hsel
  by_cases hk : k ∈ h.reader.2.keys
  · rw [if_pos hk] at hsel
    exact H.next hsel hlt now
  · rw [if_neg hk] at hsel
    obtain ⟨s, hsort, H', -, hjournals, -⟩ := H.sort now
    have hkeys : s.2.keys = h.reader.2.keys := by rw [Reader.keys, Reader.keys, hjournals]
    refine ⟨s, ?_, H'.congr fun k' hk' => advance_of_ne n ?_, hkeys⟩
    · rw [Reader.next, Reader.nextCurrent, hsel]
      exact hsort
    · rintro rfl
      exact hk (hkeys ▸ hk')

/-- One iteration dispatches the frame at the position of `k`. -/
theorem dispatch_progress (H : Reader.Tracks W P L h.isLive n h.reader)
    (hcur : h.reader.2.current = some k) {f : Frame} (hf : (L k)[n k]? = some f) {r : Round}
    (hvalid : Action.Valid W P r.handler (h.advanceTo f.genTime))
    (hkeep : Action.Keeps k r.handler (h.advanceTo f.genTime)) :
    ∃ h' L', dispatch r f h = .ok h' ∧ Progress W P L n h [(k, f)] L' (advance n k) h' := by
  have H₀ : Reader.Tracks W P L (h.advanceTo f.genTime).isLive n (h.advanceTo f.genTime).reader := H
  obtain ⟨h₁, L', hrun, H₁⟩ := Action.runAll_progress H₀ hvalid
  have hsel : Action.Selected k h₁ := by
    refine Action.runAll_selected H₀ hvalid hkeep (fun _ => ?_) hrun
    rw [Action.Selected]
    exact hcur.trans (if_pos (H.wf.current k hcur)).symm
  have hf' : (L' k)[n k]? = some f := by
    obtain ⟨M, hM⟩ := H₁.grew k
    obtain ⟨hlt, rfl⟩ := List.getElem?_eq_some_iff.mp hf
    rw [← hM, List.getElem?_append_left hlt, List.getElem?_eq_getElem hlt]
  obtain ⟨s, hnext, H₂, hkeys⟩ := next_progress (H₁.isLive ▸ H₁.tracks) hsel
    (List.getElem?_eq_some_iff.mp hf').1 r.next
  refine ⟨{ h₁ with reader := s }, L', ?_, ⟨H₁.isLive ▸ H₂, H₁.grew, fun k' hk' => ?_, H₁.isLive,
    Reads.cons trivial hf' (Reads.nil _)⟩⟩
  · rw [dispatch, hrun]
    simp only [bind, Except.bind, hnext]
  · exact H₁.keys k' (hkeys ▸ hk')

/-- What a call leaves when it is over because no data is available. -/
def Exhausted (r : Drained) : Prop :=
  r.stop = .idle → r.hero.isLive = true → Reader.heads r.hero.reader = []

theorem drainLoop_progress (H : Reader.Tracks W P L h.isLive n h.reader) {rounds : List Round}
    (hsafe : LoopSafe W P rounds h) :
    ∃ r L' n', drainLoop rounds h = .ok r ∧ Progress W P L n h r.frames L' n' r.hero ∧
      Exhausted r ∧ (r.stop = .running → r.frames.length = rounds.length) := by
  induction rounds generalizing h L n with
  | nil => exact ⟨_, L, n, rfl, Progress.refl H, fun hstop => absurd hstop (by simp), fun _ => rfl⟩
  | cons r rounds ih =>
      rw [drainLoop]
      by_cases hlive : h.live = false
      · rw [if_pos hlive]
        exact ⟨_, L, n, rfl, Progress.refl H, fun hstop => absurd hstop (by simp),
          fun hstop => absurd hstop (by simp)⟩
      · rw [if_neg hlive]
        obtain ⟨available, s, havail, H₁, hjournals, -, hiff⟩ := H.dataAvailable r.check
        have hkeys : s.2.keys = h.reader.2.keys := by rw [Reader.keys, Reader.keys, hjournals]
        have H₁' : Progress W P L n h [] L n { h with reader := s } :=
          ⟨H₁, fun _ => List.prefix_rfl, fun k hk => hkeys ▸ hk, rfl, Reads.nil n⟩
        cases available with
        | false =>
            refine ⟨_, L, n, by rw [havail], H₁', fun _ hisLive => ?_, fun hstop => absurd hstop (by simp)⟩
            have Hlive : Reader.Tracks W P L true n h.reader := hisLive ▸ H
            exact (Hlive.heads_eq_nil havail).2
        | true =>
            obtain ⟨k, f, hcur, hf, -⟩ := hiff.mp rfl
            have hframe := H₁.currentFrame_eq hcur hf
            rw [havail]
            simp only [hframe]
            by_cases htime : f.genTime ≤ h.endTime
            · rw [if_pos htime]
              obtain ⟨hvalid, hkeep, hrest⟩ := hsafe s k f havail hframe
              obtain ⟨h₂, L₂, hdispatch, H₂⟩ :=
                dispatch_progress (h := { h with reader := s }) H₁ hcur hf hvalid hkeep
              obtain ⟨r', L₃, n₃, hloop, H₃, hidle, hrunning⟩ :=
                ih (H₂.isLive ▸ H₂.tracks) (hrest h₂ hdispatch)
              refine ⟨{ r' with frames := (k, f) :: r'.frames }, L₃, n₃, ?_,
                H₁'.trans (H₂.trans H₃), hidle, fun hstop => ?_⟩
              · simp only [bind, Except.bind, hdispatch, hloop]
              · rw [List.length_cons, List.length_cons, hrunning hstop]
            · rw [if_neg htime]
              exact ⟨_, L, n, rfl, H₁', fun hstop => absurd hstop (by simp),
                fun hstop => absurd hstop (by simp)⟩

theorem finish_progress (check : Int64) {r : Drained}
    (H : Reader.Tracks W P L r.hero.isLive n r.hero.reader) (hidle : Exhausted r) :
    ∃ r', finish check r = .ok r' ∧ r'.frames = r.frames ∧
      Progress W P L n r.hero [] L n r'.hero ∧ Exhausted r' ∧
      (r'.stop = .running → r.stop = .running) := by
  have hkeep : ∃ r', (.ok r : Result Drained) = .ok r' ∧ r'.frames = r.frames ∧
      Progress W P L n r.hero [] L n r'.hero ∧ Exhausted r' ∧
      (r'.stop = .running → r.stop = .running) :=
    ⟨r, rfl, rfl, Progress.refl H, hidle, id⟩
  rw [finish]
  split
  · exact hkeep
  · exact hkeep
  · exact hkeep
  all_goals
    split
    · exact hkeep
    · rename_i hnotLive
      obtain ⟨available, s, havail, H', hjournals, -, -⟩ := H.dataAvailable check
      have hkeys : s.2.keys = r.hero.reader.2.keys := by rw [Reader.keys, Reader.keys, hjournals]
      have H₁ : Progress W P L n r.hero [] L n { r.hero with reader := s } :=
        ⟨H', fun _ => List.prefix_rfl, fun k hk => hkeys ▸ hk, rfl, Reads.nil n⟩
      rw [havail]
      cases available with
      | true => exact ⟨_, rfl, rfl, H₁, fun _ hisLive => absurd hisLive hnotLive, id⟩
      | false =>
          refine ⟨_, rfl, rfl, H₁, fun _ hisLive => absurd hisLive hnotLive, fun hstop => ?_⟩
          dsimp only at hstop
          split at hstop <;> exact absurd hstop (by simp)

theorem reader_notified (h : Hero) (notice : Option Int64) :
    (h.notified notice).reader = h.reader ∧ (h.notified notice).isLive = h.isLive := by
  cases notice with
  | none => exact ⟨rfl, rfl⟩
  | some now =>
      rw [notified]
      split <;> exact ⟨rfl, rfl⟩

theorem drain_progress (H : Reader.Tracks W P L h.isLive n h.reader) {p : Pass}
    (hbefore : Action.Valid W P p.before (h.notified p.notice))
    (hloop : ∀ h', Action.runAll (h.notified p.notice) p.before = .ok h' →
      LoopSafe W P p.rounds h') :
    ∃ r L' n', drain p h = .ok r ∧ Progress W P L n h r.frames L' n' r.hero ∧ Exhausted r ∧
      (r.stop = .running → r.frames.length = p.rounds.length) := by
  obtain ⟨hreader, hisLive⟩ := reader_notified h p.notice
  have H₀ : Reader.Tracks W P L (h.notified p.notice).isLive n (h.notified p.notice).reader := by
    rw [hreader, hisLive]
    exact H
  obtain ⟨h₁, L₁, hrun, H₁⟩ := Action.runAll_progress H₀ hbefore
  obtain ⟨r₂, L₂, n₂, hdrain, H₂, hidle₂, hrunning₂⟩ :=
    drainLoop_progress (H₁.isLive ▸ H₁.tracks) (hloop h₁ hrun)
  obtain ⟨r₃, hfinish, hframes, H₃, hidle₃, hrunning₃⟩ :=
    finish_progress p.check (H₂.isLive ▸ H₂.tracks) hidle₂
  have Hstart : Progress W P L n h [] L n (h.notified p.notice) :=
    ⟨by rw [hreader]; exact H, fun _ => List.prefix_rfl, fun k hk => hreader ▸ hk, hisLive,
      Reads.nil n⟩
  refine ⟨r₃, L₂, n₂, ?_, ?_, hidle₃, fun hstop => ?_⟩
  · rw [drain]
    simp only [bind, Except.bind, hrun, hdrain, hfinish]
  · have H := Hstart.trans (H₁.trans (H₂.trans H₃))
    rw [List.append_nil] at H
    rw [hframes]
    exact H
  · rw [hframes]
    exact hrunning₂ (hrunning₃ hstop)

theorem produce_progress (H : Reader.Tracks W P L h.isLive n h.reader) {passes : List Pass}
    (hsafe : RunSafe W P passes h) :
    ∃ r L' n', produce passes h = .ok r ∧ Progress W P L n h r.frames L' n' r.hero ∧
      Exhausted r ∧ (r.stop = .running →
        passes = [] ∨ ∃ p ∈ passes, p.rounds.length ≤ r.frames.length) := by
  induction passes generalizing h L n with
  | nil =>
      exact ⟨_, L, n, rfl, Progress.refl H, fun hstop => absurd hstop (by simp),
        fun _ => Or.inl rfl⟩
  | cons p ps ih =>
      obtain ⟨hbefore, hloop, hrest⟩ := hsafe
      obtain ⟨r₁, L₁, n₁, hdrain, H₁, hidle₁, hrunning₁⟩ := drain_progress H hbefore hloop
      rw [produce]
      simp only [bind, Except.bind, hdrain]
      by_cases hgo : r₁.stop = .idle ∧ ps ≠ []
      · rw [if_pos hgo]
        obtain ⟨r₂, L₂, n₂, hproduce, H₂, hidle₂, hrunning₂⟩ :=
          ih (H₁.isLive ▸ H₁.tracks) (hrest r₁ hdrain)
        refine ⟨{ r₂ with frames := r₁.frames ++ r₂.frames }, L₂, n₂, by simp only [hproduce],
          H₁.trans H₂, hidle₂, fun hstop => ?_⟩
        obtain ⟨q, hq, hlen⟩ := (hrunning₂ hstop).resolve_left hgo.2
        refine Or.inr ⟨q, List.mem_cons_of_mem p hq, ?_⟩
        rw [List.length_append]
        omega
      · rw [if_neg hgo]
        refine ⟨r₁, L₁, n₁, rfl, H₁, hidle₁, fun hstop => ?_⟩
        exact Or.inr ⟨p, List.mem_cons_self, (hrunning₁ hstop).ge⟩

end Hero

/-! ## Whole runs -/

/-- In a run whose handlers keep the selection, what is dispatched of a journal is the
stretch from its first position to its last, and when a live process runs out of data that
is all that was written.  A run that is not over has dispatched a frame in every
iteration of some call. -/
theorem produce_dispatches_once (H : Reader.Tracks W P L h.isLive n h.reader)
    {passes : List Pass} (hsafe : RunSafe W P passes h) :
    ∃ r L' n', Hero.produce passes h = .ok r ∧ (∀ k, L k <+: L' k) ∧
      Reader.Tracks W P L' h.isLive n' r.hero.reader ∧
      (∀ k, (L' k).drop (n k) =
        (r.frames.filter fun p => p.1 = k).map Prod.snd ++ (L' k).drop (n' k)) ∧
      (r.stop = .idle → h.isLive = true → ∀ k ∈ r.hero.reader.2.keys,
        (∀ f ∈ L' k, f.hasData = true) →
          (r.frames.filter fun p => p.1 = k).map Prod.snd = (L' k).drop (n k)) ∧
      (r.stop = .running → passes = [] ∨ ∃ p ∈ passes, p.rounds.length ≤ r.frames.length) := by
  obtain ⟨r, L', n', hproduce, H', hidle, hrunning⟩ := Hero.produce_progress H hsafe
  refine ⟨r, L', n', hproduce, H'.grew, H'.tracks, H'.drop_eq, fun hstop hlive k hk hdata => ?_,
    hrunning⟩
  have hnil := hidle hstop (H'.isLive.trans hlive)
  have hend : (L' k).length ≤ n' k := by
    by_contra hlt
    have hf := List.getElem?_eq_getElem (Nat.lt_of_not_le hlt)
    have hmem := H'.tracks.mem_heads_iff.mpr
      ⟨hk, _, hf, hdata _ (List.getElem_mem _), rfl⟩
    rw [hnil] at hmem
    exact absurd hmem List.not_mem_nil
  rw [H'.drop_eq k, List.drop_eq_nil_of_le hend, List.append_nil]

/-- The handler of the first frame takes away the other journal; the one that stays is dispatched
to its end. -/
theorem produce_dispatches_once_two :
    ∃ d₁ d₂, Incarnation.run (fun _ => 0) .checked 1 2 (Dir.empty 200)
        { Incarnation.single 10 10 [1] with
          writes := [.record 10 (.mark 0 7 10), .record 12 (.mark 0 7 12)] } = .ok d₁ ∧
      Incarnation.run (fun _ => 0) .checked 3 2 (Dir.empty 200) (.single 20 20 [2]) = .ok d₂ ∧
      ∃ s₁ s, Reader.join .front 30 ⟨1, 2⟩ 0
          (fun k => if k.location = 1 then d₁ else d₂, Reader.make true true) = .ok s₁ ∧
        Reader.join .front 30 ⟨3, 2⟩ 0 s₁ = .ok s ∧
        ∃ r, Hero.produce [⟨none, [], [⟨30, [.disjoin 30 3], 30⟩, ⟨31, [], 31⟩, ⟨32, [], 32⟩], 32⟩]
            ⟨s, 0, Int64.maxValue, true, true⟩ = .ok r ∧
          (⟨3, 2⟩ : Key) ∉ r.hero.reader.2.keys ∧
          (r.frames.filter fun p => p.1 = (⟨1, 2⟩ : Key)).map Prod.snd = d₁.contents := by
  have hsafe₁ : Incarnation.Safe 200 (Dir.empty 200) { Incarnation.single 10 10 [1] with
      writes := [.record 10 (.mark 0 7 10), .record 12 (.mark 0 7 12)] } :=
    ⟨clear_nil 200 10, by decide, by simp [Incarnation.single]⟩
  have hsafe₂ : (Incarnation.single 20 20 [2]).Safe 200 (Dir.empty 200) :=
    ⟨clear_nil 200 20, by decide, by simp [Incarnation.single]⟩
  obtain ⟨d₁, L₁, hd₁, HL₁, -⟩ := Incarnation.run_holds (fun _ => 0) .checked 1 2
    (Dir.stores_empty (P := 200) (by decide)) hsafe₁
  obtain ⟨d₂, L₂, hd₂, HL₂, -⟩ := Incarnation.run_holds (fun _ => 0) .checked 3 2
    (Dir.stores_empty (P := 200) (by decide)) hsafe₂
  have H₀ : Reader.Tracks Set.univ (fun _ => 200) (fun k => if k.location = 1 then L₁ else L₂) true
      (fun _ => 0) (fun k => if k.location = 1 then d₁ else d₂, Reader.make true true) := by
    refine Reader.tracks_make (fun k _ => ?_) true true
    split
    · exact HL₁
    · exact HL₂
  obtain ⟨s₁, hjoin₁, H₁, hkeys₁⟩ := H₀.join (k := ⟨1, 2⟩) trivial List.not_mem_nil .front 30 0
  have hnew : (⟨3, 2⟩ : Key) ∉ s₁.2.keys := by
    rw [hkeys₁.mem_iff]
    change (⟨3, 2⟩ : Key) ∉ [(⟨1, 2⟩ : Key)]
    decide
  obtain ⟨s, hjoin, H, hkeys⟩ := H₁.join (k := ⟨3, 2⟩) trivial hnew .front 30 0
  have htest : okAnd (Incarnation.run (fun _ => 0) .checked 1 2 (Dir.empty 200)
      { Incarnation.single 10 10 [1] with
        writes := [.record 10 (.mark 0 7 10), .record 12 (.mark 0 7 12)] }) (fun d₁ =>
      okAnd (Incarnation.run (fun _ => 0) .checked 3 2 (Dir.empty 200) (.single 20 20 [2])) fun d₂ =>
        decide (seekIndex 200 0 d₁.contents = 0 ∧ ∀ f ∈ d₁.contents, f.hasData = true) &&
        okAnd (Reader.join .front 30 ⟨1, 2⟩ 0
            (fun k => if k.location = 1 then d₁ else d₂, Reader.make true true)) fun s₁ =>
          okAnd (Reader.join .front 30 ⟨3, 2⟩ 0 s₁) fun s =>
            okAnd (Reader.dataAvailable 30 s) (fun a =>
              let s' := (Action.disjoin 30 3).removed a.2
              decide ((Reader.currentFrame a.2).map Prod.fst = some ⟨1, 2⟩ ∧
                s'.2.keys = [⟨1, 2⟩] ∧ Reader.heads s' = [(⟨1, 2⟩, 10)] ∧
                (10 : Int64) ≤ s'.2.minTime 30)) &&
            okAnd (Hero.produce
                [⟨none, [], [⟨30, [.disjoin 30 3], 30⟩, ⟨31, [], 31⟩, ⟨32, [], 32⟩], 32⟩]
                ⟨s, 0, Int64.maxValue, true, true⟩) fun r =>
              decide (r.stop = .idle ∧ r.hero.reader.2.keys = [⟨1, 2⟩] ∧
                (r.hero.reader.1 ⟨1, 2⟩).contents = d₁.contents)) = true := by decide +kernel
  rw [hd₁, okAnd, hd₂, okAnd, hjoin₁, okAnd, hjoin, okAnd] at htest
  simp only [Bool.and_eq_true, decide_eq_true_eq] at htest
  obtain ⟨⟨hzero, hdata⟩, htest, hend⟩ := htest
  obtain ⟨a, havail, htest⟩ := exists_of_okAnd htest
  obtain ⟨hframe, hkeys', hheads, hbound⟩ := of_decide_eq_true htest
  obtain ⟨r₀, hr₀, htest⟩ := exists_of_okAnd hend
  obtain ⟨hstop, hend, hcontents⟩ := of_decide_eq_true htest
  have hrun : RunSafe Set.univ (fun _ => 200)
      [⟨none, [], [⟨30, [.disjoin 30 3], 30⟩, ⟨31, [], 31⟩, ⟨32, [], 32⟩], 32⟩]
      ⟨s, 0, Int64.maxValue, true, true⟩ := by
    refine ⟨trivial, fun h' hh => ?_, fun _ _ => trivial⟩
    obtain rfl : (⟨s, 0, Int64.maxValue, true, true⟩ : Hero) = h' := Except.ok.inj hh
    intro t k f havail' hframe'
    obtain rfl : a = (true, t) := Except.ok.inj (havail.symm.trans havail')
    obtain rfl : k = ⟨1, 2⟩ := by simpa [hframe'] using hframe
    refine ⟨⟨fun _ h => absurd h (by simp), fun _ _ => trivial⟩, ⟨fun _ now hnow => ?_,
      fun _ _ => trivial⟩, fun h' _ => fun _ _ _ _ _ => ⟨trivial, trivial, fun h' _ =>
        fun _ _ _ _ _ => ⟨trivial, trivial, fun _ _ => trivial⟩⟩⟩
    obtain rfl : 30 = now := Option.some.inj hnow
    have hjoined : (⟨1, 2⟩ : Key) ∈ ((Action.disjoin 30 3).removed t).2.keys :=
      hkeys'.symm ▸ List.mem_singleton_self _
    have hundisturbed : Undisturbed 30 ⟨1, 2⟩ ((Action.disjoin 30 3).removed t) := by
      rw [Undisturbed, if_pos hjoined]
      exact ⟨[], 10, [], hheads, hbound, by simp, by simp⟩
    exact hundisturbed
  obtain ⟨r, L', n', hproduce, -, H', -, hall, -⟩ := produce_dispatches_once
    (h := ⟨s, 0, Int64.maxValue, true, true⟩) H hrun
  obtain rfl : r₀ = r := Except.ok.inj (hr₀.symm.trans hproduce)
  have hL' : L' ⟨1, 2⟩ = d₁.contents := (H'.holds _ trivial).contents_eq.symm.trans hcontents
  have hkey : (⟨1, 2⟩ : Key) ∈ r₀.hero.reader.2.keys := by
    rw [hend]
    exact List.mem_singleton_self _
  have hgone : (⟨3, 2⟩ : Key) ∉ r₀.hero.reader.2.keys := by
    rw [hend]
    decide
  have hstart : Function.update (Function.update (fun _ : Key => 0) ⟨1, 2⟩ (seekIndex 200 0 L₁))
      ⟨3, 2⟩ (seekIndex 200 0 L₂) ⟨1, 2⟩ = 0 := by
    rw [Function.update_of_ne (by decide), Function.update_self, ← HL₁.contents_eq, hzero]
  refine ⟨d₁, d₂, hd₁, hd₂, s₁, s, hjoin₁, hjoin, r₀, hproduce, hgone, ?_⟩
  rw [hall hstop rfl ⟨1, 2⟩ hkey (by rwa [hL']), hL']
  exact (congrArg (fun n => d₁.contents.drop n) hstart).trans (List.drop_zero ..)
/-- The frame that announces a deregistration makes its handler disjoin the journal it came
from: the other journal is selected, and its first frame is passed over. -/
theorem disjoin_loses_frame :
    ∃ d₁ d₂, Incarnation.run (fun _ => 0) .checked 1 2 (Dir.empty 200) (.single 10 10 [1]) =
        .ok d₁ ∧
      Incarnation.run (fun _ => 0) .checked 3 2 (Dir.empty 200) { Incarnation.single 10 20 [2] with
        writes := [.record 20 (.mark 0 7 20), .record 30 (.mark 0 7 30)] } = .ok d₂ ∧
      d₂.contents.map Frame.genTime = [20, 30] ∧
      ∃ s, Reader.joinAll [⟨.front, 40, ⟨1, 2⟩, 0⟩, ⟨.front, 40, ⟨3, 2⟩, 0⟩]
          (fun k => if k.location = 1 then d₁ else d₂, Reader.make true true) = .ok s ∧
        ∃ r, Hero.produce [⟨none, [], [⟨40, [.disjoin 40 1], 40⟩, ⟨41, [], 41⟩, ⟨42, [], 42⟩], 42⟩]
            ⟨s, 0, Int64.maxValue, true, true⟩ = .ok r ∧
          r.stop = .idle ∧ (⟨3, 2⟩ : Key) ∈ r.hero.reader.2.keys ∧
          (r.frames.filter fun p => p.1 = (⟨3, 2⟩ : Key)).map (fun p => p.2.genTime) = [30] := by
  have hrun : okAnd (Incarnation.run (fun _ => 0) .checked 1 2 (Dir.empty 200)
      (.single 10 10 [1])) (fun d₁ =>
        okAnd (Incarnation.run (fun _ => 0) .checked 3 2 (Dir.empty 200)
          { Incarnation.single 10 20 [2] with
            writes := [.record 20 (.mark 0 7 20), .record 30 (.mark 0 7 30)] }) fun d₂ =>
          decide (d₂.contents.map Frame.genTime = [20, 30]) &&
          okAnd (Reader.joinAll [⟨.front, 40, ⟨1, 2⟩, 0⟩, ⟨.front, 40, ⟨3, 2⟩, 0⟩]
            (fun k => if k.location = 1 then d₁ else d₂, Reader.make true true)) fun s =>
            okAnd (Hero.produce
              [⟨none, [], [⟨40, [.disjoin 40 1], 40⟩, ⟨41, [], 41⟩, ⟨42, [], 42⟩], 42⟩]
              ⟨s, 0, Int64.maxValue, true, true⟩) fun r =>
                decide (r.stop = .idle ∧ (⟨3, 2⟩ : Key) ∈ r.hero.reader.2.keys ∧
                  (r.frames.filter fun p => p.1 = (⟨3, 2⟩ : Key)).map (fun p => p.2.genTime) =
                    [30])) = true := by
    decide +kernel
  obtain ⟨d₁, hd₁, hrest⟩ := exists_of_okAnd hrun
  obtain ⟨d₂, hd₂, hrest⟩ := exists_of_okAnd hrest
  obtain ⟨htimes, hrest⟩ := (Bool.and_eq_true _ _).mp hrest
  obtain ⟨s, hs, hrest⟩ := exists_of_okAnd hrest
  obtain ⟨r, hr, hrest⟩ := exists_of_okAnd hrest
  obtain ⟨hstop, hkey, hframes⟩ := of_decide_eq_true hrest
  exact ⟨d₁, d₂, hd₁, hd₂, of_decide_eq_true htimes, s, hs, r, hr, hstop, hkey, hframes⟩

end Kungfu.Practice
