import Kungfu.Yijinjing.Selection
import Kungfu.Yijinjing.Reopen

/-!
# A join that throws

`reader::join` inserts the journal before it seeks, and nothing removes it when the seek
throws.  The entry stays, positioned wherever the seek had come: later joins of the same
journal find it and do not seek again, and when no page could be loaded at all its frame
pointer is null, so that every later selection follows a null pointer.
-/

namespace Kungfu.Yijinjing

namespace Reader

variable {s : State} {k : Key} {j : Journal} {live : Bool}

/-- The journal object that `try_emplace` constructs. -/
abbrev fresh (lazy : Bool) (k : Key) : Journal := Journal.make k.location k.dest false lazy

/-- If a join throws, the reader is as before, and a later join of the same journal, once
its pages can be read, succeeds and positions it. -/
def JoinAtomic (order : HashOrder) (now : Int64) (k : Key) (fromTime : Int64) (s : State) : Prop :=
  ∀ e s', join order now k fromTime s = .error (.journalError e, s') →
    s'.2 = s.2 ∧
      ∀ (dirs : Key → Dir) order' now' d j, Positioned s.2 →
        Journal.seekToTime (dirs k, fresh s.2.lazy k) fromTime = .ok (d, j) →
        ∃ s'', join order' now' k fromTime (dirs, s'.2) = .ok s'' ∧
          s''.2.journals.lookup k = some j

/-- `sort` throws nothing. -/
theorem sort_ne_journalError (now : Int64) (s : State) (e : JournalError) (s' : State) :
    sort now s ≠ .error (.journalError e, s') := by
  by_cases hpos : Positioned s.2
  · rw [sort_ok hpos]
    exact fun h => absurd h (by simp)
  · rw [sort_error hpos]
    exact fun h => absurd h (by simp)

/-- A seek that fails leaves its entry in the map. -/
theorem join_throws (H : Wf live s.2) (hk : k ∉ s.2.keys) (order : HashOrder) {fromTime : Int64}
    {fault : Fault} {d : Dir}
    (hseek : Journal.seekToTime (s.1 k, fresh s.2.lazy k) fromTime = .error (fault, d, j))
    (now : Int64) :
    join order now k fromTime s = .error (fault, set (emplace order k s) k d j) := by
  have hlook := lookup_emplace H order hk
  have hnone : ¬ (s.2.journals.lookup k).isSome = true := mt lookup_isSome_iff.mp hk
  rw [join, insert, if_neg hnone, onJournal, hlook]
  simp only [emplace] at hseek ⊢
  rw [hseek]
  rfl

/-- The entry that a throwing join leaves is not positioned by any later join. -/
theorem join_after_throw (hk : k ∈ s.2.keys) {order : HashOrder}
    {now fromTime : Int64} {s' : State} (hjoin : join order now k fromTime s = .ok s') :
    s'.2.journals.lookup k = s.2.journals.lookup k := by
  rw [join, insert, if_pos (lookup_isSome_iff.mpr hk)] at hjoin
  simp only [bind, Except.bind] at hjoin
  split at hjoin
  · by_cases hpos : Positioned s.2
    · rw [sort_ok hpos] at hjoin
      rw [← Except.ok.inj hjoin]
    · rw [sort_error hpos] at hjoin
      exact absurd hjoin (by simp)
  · rw [← Except.ok.inj hjoin]

/-- In every reachable state a join is atomic exactly when the journal is joined already
or a seek of a new journal object does not throw. -/
theorem joinAtomic_iff (lazy live : Bool) (dirs : Key → Dir) (calls : List Call)
    (order : HashOrder) (now : Int64) (k : Key) (fromTime : Int64) :
    JoinAtomic order now k fromTime (runCalls lazy live dirs calls) ↔
      k ∈ (runCalls lazy live dirs calls).2.keys ∨
        ∀ e d j, Journal.seekToTime ((runCalls lazy live dirs calls).1 k,
          fresh (runCalls lazy live dirs calls).2.lazy k) fromTime ≠
            .error (.journalError e, d, j) := by
  have H := runCalls_wf lazy live dirs calls
  generalize runCalls lazy live dirs calls = s at H
  constructor
  · intro hatomic
    by_contra hnot
    obtain ⟨hk, hthrow⟩ := not_or.mp hnot
    refine hthrow fun e d j hseek => ?_
    have hreader := (hatomic e _ (join_throws H hk order hseek now)).1
    -- the key is joined afterwards
    have hmem : k ∈ (set (emplace order k s) k d j).2.keys := by
      rw [keys_set]
      exact (keys_emplace order k s).mem_iff.mpr List.mem_cons_self
    rw [hreader] at hmem
    exact hk hmem
  · intro hcond e s' hjoin
    exfalso
    rw [join] at hjoin
    by_cases hk : k ∈ s.2.keys
    · rw [insert, if_pos (lookup_isSome_iff.mpr hk)] at hjoin
      simp only [bind, Except.bind] at hjoin
      split at hjoin
      · exact sort_ne_journalError _ _ _ _ hjoin
      · exact absurd hjoin (by simp)
    · have hseek := hcond.resolve_left hk
      have hlook := lookup_emplace H order hk
      have hnone : ¬ (s.2.journals.lookup k).isSome = true := mt lookup_isSome_iff.mp hk
      rw [insert, if_neg hnone, onJournal, hlook] at hjoin
      simp only [emplace] at hjoin
      cases hx : Journal.seekToTime (s.1 k, fresh s.2.lazy k) fromTime with
      | ok t =>
          rw [hx] at hjoin
          simp only [bind, Except.bind] at hjoin
          split at hjoin
          · exact sort_ne_journalError _ _ _ _ hjoin
          · exact absurd hjoin (by simp)
      | error x =>
          obtain ⟨fault, d, j⟩ := x
          rw [hx] at hjoin
          obtain ⟨rfl, -⟩ := Prod.mk.inj (Except.error.inj hjoin)
          exact hseek e d j hx

/-- A lazy reader joins a journal whose page file is not there yet.  The join throws; then
`data_available` follows a null pointer, and so does the join that comes after the page
has been written. -/
theorem join_throws_not_atomic :
    ¬ JoinAtomic .front 50 ⟨1, 2⟩ 0 (runCalls true true (fun _ => Dir.empty 200) []) ∧
    ∃ s', join .front 50 ⟨1, 2⟩ 0 (runCalls true true (fun _ => Dir.empty 200) []) =
        .error (.journalError (.notReady 0), s') ∧
      faults .nullFrame ((dataAvailable 50 s').mapError Prod.fst) = true ∧
      ∃ d, Incarnation.run (fun _ => 0) .checked 1 2 (Dir.empty 200) (.single 10 10 [1]) = .ok d ∧
        faults .nullFrame ((join .front 60 ⟨1, 2⟩ 0 (fun _ => d, s'.2)).mapError Prod.fst) = true := by
  have hseek : Journal.seekToTime (Dir.empty 200, fresh true ⟨1, 2⟩) 0 =
      .error (.journalError (.notReady 0), Dir.empty 200, fresh true ⟨1, 2⟩) := rfl
  have hwf := runCalls_wf true true (fun _ => Dir.empty 200) []
  have hjoin := join_throws (k := ⟨1, 2⟩) hwf (by simp [runCalls, make, keys])
    .front hseek 50
  refine ⟨fun hatomic => ?_, _, hjoin, by decide +kernel, ?_⟩
  · have hreader := congrArg keys (hatomic _ _ hjoin).1
    rw [keys_set] at hreader
    exact absurd (congrArg List.length hreader) (by decide)
  · have hrun : okAnd (Incarnation.run (fun _ => 0) .checked 1 2 (Dir.empty 200)
        (.single 10 10 [1])) (fun d => faults .nullFrame ((join .front 60 ⟨1, 2⟩ 0 (fun _ => d,
          (set (emplace .front ⟨1, 2⟩ (runCalls true true (fun _ => Dir.empty 200) [])) ⟨1, 2⟩
            (Dir.empty 200) (fresh true ⟨1, 2⟩)).2)).mapError Prod.fst)) = true := by
      decide +kernel
    exact exists_of_okAnd hrun

end Reader

end Kungfu.Yijinjing
