import Kungfu.Yijinjing.Selection
import Kungfu.Yijinjing.Reopen

/-!
# Visibility by the clock

A reader that is not in live mode withholds frames later than its clock.  `sort` keeps the
old selection when nothing is within its bound, so what `data_available` answers depends
on the history of selections: a frame of the future is delivered when the cached
journal's next frame lies there and no other journal has a visible one.
-/

namespace Kungfu.Yijinjing

namespace Reader

variable {s : State}

/-- `data_available` answers whether a head with data is visible at the clock, and then the
current frame is such a head with the least time. -/
def Exact (now : Int64) (s : State) : Prop :=
  ∃ available s', dataAvailable now s = .ok (available, s') ∧
    (available = true ↔ ∃ h ∈ heads s, h.2 ≤ now) ∧
    (available = true → ∃ k t, s'.2.current = some k ∧ (k, t) ∈ heads s ∧ t ≤ now ∧
      ∀ h ∈ heads s, t ≤ h.2)

/-- In every state that any calls reach, with any changes of the page files in between, a
reader bound to its clock answers right exactly when every joined journal has been
positioned and either some head is visible or the cached journal's head has no data. -/
theorem exact_iff (lazy : Bool) (dirs : Key → Dir) (calls : List Call) (now : Int64) :
    Exact now (runCalls lazy false dirs calls) ↔
      Positioned (runCalls lazy false dirs calls).2 ∧
        ((∃ h ∈ heads (runCalls lazy false dirs calls), h.2 ≤ now) ∨
          ∀ k t, (runCalls lazy false dirs calls).2.current = some k →
            (k, t) ∉ heads (runCalls lazy false dirs calls)) := by
  have H := runCalls_wf lazy false dirs calls
  generalize runCalls lazy false dirs calls = s at H
  by_cases hpos : Positioned s.2
  · have hsort := sort_ok hpos now
    have Hsort := H.sort now
    rw [hsort] at Hsort
    obtain ⟨available, havail, hiff⟩ := dataAvailable_of_sort Hsort hpos hsort
    have hmin : s.2.minTime now = now := by simp [minTime, H.liveMode]
    rw [hmin] at hiff havail hsort
    rcases pick_heads_cases s now s.2.current with ⟨hpick, hnone⟩ | ⟨k, t, hpick, hmem, hle, hleast⟩
    · have hno : ¬ ∃ h ∈ heads s, h.2 ≤ now := fun ⟨h, hh, hle⟩ => hnone h hh hle
      rw [hpick] at hiff havail
      constructor
      · rintro ⟨available', s', havail', hvis, -⟩
        obtain ⟨rfl, rfl⟩ := Prod.mk.inj (Except.ok.inj (havail.symm.trans havail'))
        refine ⟨hpos, Or.inr fun k t hk hmem => hno (hvis.mp (hiff.mpr ⟨k, t, hk, hmem⟩))⟩
      · rintro ⟨-, hcond⟩
        have hcur := hcond.resolve_left hno
        have hfalse : ¬ available = true := fun h => by
          obtain ⟨k, t, hk, hmem⟩ := hiff.mp h
          exact hcur k t hk hmem
        exact ⟨available, _, havail, iff_of_false hfalse hno, fun h => absurd h hfalse⟩
    · have hvis : ∃ h ∈ heads s, h.2 ≤ now := ⟨(k, t), hmem, hle⟩
      rw [hpick] at hiff havail
      have htrue : available = true := hiff.mpr ⟨k, t, rfl, hmem⟩
      refine iff_of_true ⟨available, _, havail, iff_of_true htrue hvis, fun _ => ?_⟩
        ⟨hpos, Or.inl hvis⟩
      exact ⟨k, t, rfl, hmem, hle, hleast⟩
  · refine iff_of_false ?_ fun h => hpos h.1
    rintro ⟨available, s', havail, -⟩
    rw [dataAvailable, sort_error hpos] at havail
    exact absurd havail (by simp [bind, Except.bind])

/-- Two frames stamped 10 and 100, read at 50: after the first one `data_available` still
returns true and the frame of the future is delivered. -/
theorem delivers_future_frame :
    ∃ d, Incarnation.run (fun _ => 0) .checked 1 2 (Dir.empty 200)
        { Incarnation.single 10 10 [1] with
          writes := [.record 10 ⟨0, 7, 1, [1], none, 10⟩, .record 11 ⟨0, 7, 1, [2], none, 100⟩] } =
        .ok d ∧
      let s := runCalls true false (fun _ => d)
        [.join .front 50 ⟨1, 2⟩ 0, .dataAvailable 50, .next 50]
      ¬ Exact 50 s ∧
      ∃ s', dataAvailable 50 s = .ok (true, s') ∧
        (currentFrame s').map (fun p => p.2.genTime) = some 100 := by
  have hrun : okAnd (Incarnation.run (fun _ => 0) .checked 1 2 (Dir.empty 200)
      { Incarnation.single 10 10 [1] with
        writes := [.record 10 ⟨0, 7, 1, [1], none, 10⟩, .record 11 ⟨0, 7, 1, [2], none, 100⟩] })
      (fun d => okAnd (dataAvailable 50 (runCalls true false (fun _ => d)
        [.join .front 50 ⟨1, 2⟩ 0, .dataAvailable 50, .next 50])) fun r =>
          r.1 && decide ((currentFrame r.2).map (fun p => p.2.genTime) = some 100) &&
          decide (∀ h ∈ heads (runCalls true false (fun _ => d)
            [.join .front 50 ⟨1, 2⟩ 0, .dataAvailable 50, .next 50]), ¬ h.2 ≤ 50)) = true := by
    decide +kernel
  obtain ⟨d, hd, hrest⟩ := exists_of_okAnd hrun
  obtain ⟨⟨available, s'⟩, havail, hrest⟩ := exists_of_okAnd hrest
  simp only [Bool.and_eq_true, decide_eq_true_eq] at hrest
  obtain ⟨⟨rfl, htime⟩, hfuture⟩ := hrest
  refine ⟨d, hd, ?_, s', havail, htime⟩
  rintro ⟨available, s'', havail', hvis, -⟩
  obtain ⟨rfl, -⟩ := Prod.mk.inj (Except.ok.inj (havail.symm.trans havail'))
  obtain ⟨h, hh, hle⟩ := hvis.mp rfl
  exact hfuture h hh hle

end Reader

end Kungfu.Yijinjing
