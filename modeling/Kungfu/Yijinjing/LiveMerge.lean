import Kungfu.Yijinjing.Tracking

/-!
# Reading several journals live

In live mode the bound of the selection is the largest time, so a head that has data is
always selected and it is a least one.  A reader that joined some journals and reads until
nothing is available therefore takes every frame of every journal once, each journal's
frames in their order, and if the journals are in order of time, so is the whole sequence.
-/

namespace Kungfu.Yijinjing

open Merge

namespace Reader

/-- The arguments of one call of `join`. -/
structure Join where
  order : HashOrder
  now : Int64
  key : Key
  fromTime : Int64

/-- Join journals one after another. -/
def joinAll (joins : List Join) (s : State) : Result :=
  joins.foldlM (fun s j => join j.order j.now j.key j.fromTime s) s

/-- `k` is joined, and its frame at `n` is not later than that of any other joined journal. -/
structure LeastHead (keys : List Key) (L : Key → List Frame) (n : Key → ℕ) (k : Key) : Prop where
  joined : k ∈ keys
  least : ∀ k' ∈ keys, ∀ f f', (L k)[n k]? = some f → (L k')[n k']? = some f' →
    f.genTime ≤ f'.genTime

variable {W : Set Key} {P : Key → UInt32} {L : Key → List Frame} {n : Key → ℕ} {live : Bool}
  {s : State}

namespace Tracks

/-! ## Joining -/

/-- Every journal stands where its own seek landed. -/
theorem joinAll (H : Tracks W P L live n s) {joins : List Join} (hW : ∀ j ∈ joins, j.key ∈ W)
    (hnodup : (joins.map Join.key).Nodup) (hnew : ∀ j ∈ joins, j.key ∉ s.2.keys) :
    ∃ s' n', Reader.joinAll joins s = .ok s' ∧ Tracks W P L live n' s' ∧
      (∀ k, k ∈ s'.2.keys ↔ k ∈ joins.map Join.key ∨ k ∈ s.2.keys) ∧
      (∀ j ∈ joins, n' j.key = seekIndex (P j.key) j.fromTime (L j.key)) ∧
      ∀ k ∉ joins.map Join.key, n' k = n k := by
  induction joins generalizing s n with
  | nil => exact ⟨s, n, rfl, H, by simp, by simp, fun _ _ => rfl⟩
  | cons j joins ih =>
      rw [List.map_cons, List.nodup_cons] at hnodup
      obtain ⟨s₁, hjoin, H₁, hperm⟩ := H.join (hW j List.mem_cons_self)
        (hnew j List.mem_cons_self) j.order j.now j.fromTime
      obtain ⟨s₂, n₂, hjoins, H₂, hkeys, hpos, hrest⟩ := ih H₁
        (fun i hi => hW i (List.mem_cons_of_mem j hi)) hnodup.2 fun i hi => by
          rw [hperm.mem_iff, List.mem_cons, not_or]
          refine ⟨fun heq => hnodup.1 ?_, hnew i (List.mem_cons_of_mem j hi)⟩
          exact List.mem_map.mpr ⟨i, hi, heq⟩
      refine ⟨s₂, n₂, ?_, H₂, fun k => ?_, fun i hi => ?_, fun k hk => ?_⟩
      · rw [Reader.joinAll, List.foldlM_cons, hjoin]
        exact hjoins
      · rw [hkeys, hperm.mem_iff, List.map_cons, List.mem_cons, List.mem_cons]
        tauto
      · rcases List.mem_cons.mp hi with rfl | hi
        · rw [hrest i.key hnodup.1, Function.update_self]
        · exact hpos i hi
      · rw [List.map_cons, List.mem_cons, not_or] at hk
        rw [hrest k hk.2, Function.update_of_ne hk.1]

/-! ## Reading -/

/-- Unless the clock withholds a frame, `data_available` finds a least head, if there is any
head. -/
theorem dataAvailable_visible (H : Tracks W P L live n s) (now : Int64)
    (hvisible : ∀ k ∈ s.2.keys, ∀ f ∈ L k, f.hasData = true ∧ f.genTime ≤ s.2.minTime now) :
    ∃ available s', Reader.dataAvailable now s = .ok (available, s') ∧ Tracks W P L live n s' ∧
      s'.2.keys = s.2.keys ∧
      (available = true → ∃ k f, s'.2.current = some k ∧ (L k)[n k]? = some f ∧
        LeastHead s.2.keys L n k) ∧
      (available = false → ∀ k ∈ s.2.keys, (L k).length ≤ n k) := by
  obtain ⟨available, s', havail, H', hjournals, hcur, hiff⟩ := H.dataAvailable now
  have hhead : ∀ k f, k ∈ s.2.keys → (L k)[n k]? = some f → (k, f.genTime) ∈ heads s :=
    fun k f hk hf => H.mem_heads_iff.mpr
      ⟨hk, f, hf, (hvisible k hk f (List.mem_of_getElem? hf)).1, rfl⟩
  have hbound : ∀ p ∈ heads s, p.2 ≤ s.2.minTime now := by
    intro p hp
    obtain ⟨hk, f, hf, -, htime⟩ := H.mem_heads_iff.mp hp
    exact htime ▸ (hvisible p.1 hk f (List.mem_of_getElem? hf)).2
  have hpick : ∀ p ∈ heads s, ∃ k t, s'.2.current = some k ∧ (k, t) ∈ heads s ∧
      ∀ q ∈ heads s, t ≤ q.2 := by
    intro p hp
    rw [hcur]
    obtain ⟨k, t, hmem, -, hmin, hpick⟩ := exists_pick s.2.current ⟨p, hp, hbound p hp⟩
    exact ⟨k, t, hpick, hmem, hmin⟩
  refine ⟨available, s', havail, H', by rw [keys, keys, hjournals], fun htrue => ?_, fun hfalse => ?_⟩
  · obtain ⟨k, f, hk, hf, -⟩ := hiff.mp htrue
    have hjoined : k ∈ s.2.keys := by
      have := H'.wf.current k hk
      rwa [keys, hjournals] at this
    obtain ⟨k₁, t, hk₁, hmem, hmin⟩ := hpick _ (hhead k f hjoined hf)
    obtain rfl : k = k₁ := Option.some.inj (hk.symm.trans hk₁)
    obtain ⟨-, f₁, hf₁, -, rfl⟩ := H.mem_heads_iff.mp hmem
    obtain rfl : f = f₁ := Option.some.inj (hf.symm.trans hf₁)
    refine ⟨k, f, hk, hf, hjoined, fun k' hk' g g' hg hg' => ?_⟩
    obtain rfl : f = g := Option.some.inj (hf.symm.trans hg)
    exact hmin _ (hhead k' g' hk' hg')
  · subst hfalse
    intro k hk
    by_contra hlt
    have hmem := hhead k _ hk (List.getElem?_eq_getElem (Nat.lt_of_not_le hlt))
    rw [H.heads_eq_nil_of_visible hbound havail] at hmem
    exact absurd hmem List.not_mem_nil

/-- The reading loop takes least heads until every joined journal is at its end, unless the clock
withholds a frame. -/
theorem readAll_visible (H : Tracks W P L live n s) {clock : ℕ → Int64}
    (hvisible : ∀ i, ∀ k ∈ s.2.keys, ∀ f ∈ L k,
      f.hasData = true ∧ (live = true ∨ f.genTime ≤ clock i)) {fuel : ℕ}
    (hfuel : remaining L n s.2.keys < fuel) :
    ∃ out s' n', Reader.readAll clock fuel s = .ok (out, s') ∧
      Reads (LeastHead s.2.keys L) L n out n' ∧ ∀ k ∈ s.2.keys, n' k = (L k).length := by
  induction fuel generalizing s n with
  | zero => exact absurd hfuel (Nat.not_lt_zero _)
  | succ fuel ih =>
      obtain ⟨available, s₁, havail, H₁, hkeys₁, htrue, hfalse⟩ :=
        H.dataAvailable_visible (clock (2 * fuel + 1)) fun k hk f hf => by
          obtain ⟨hdata, hshown⟩ := hvisible (2 * fuel + 1) k hk f hf
          refine ⟨hdata, ?_⟩
          rw [minTime, H.wf.liveMode]
          rcases hshown with rfl | hshown
          · exact Int64.le_maxValue f.genTime
          · split
            · exact Int64.le_maxValue f.genTime
            · exact hshown
      rw [Reader.readAll, havail]
      simp only [bind, Except.bind]
      cases available with
      | false =>
          refine ⟨[], s₁, n, rfl, Reads.nil n, fun k hk => ?_⟩
          exact Nat.le_antisymm (H.le k hk) (hfalse rfl k hk)
      | true =>
          obtain ⟨k, f, hcur, hf, hleast⟩ := htrue rfl
          obtain ⟨hlt, -⟩ := List.getElem?_eq_some_iff.mp hf
          obtain ⟨s₂, hnext, H₂, hkeys₂⟩ := H₁.next hcur hlt (clock (2 * fuel))
          have hkeys : s₂.2.keys = s.2.keys := hkeys₂.trans hkeys₁
          have hless := remaining_advance H.wf.nodup hleast.joined hlt
          obtain ⟨out, s₃, n', hread, hreads, hend⟩ := ih H₂ (by rwa [hkeys])
            (by rw [hkeys]; omega)
          rw [hkeys] at hreads hend
          refine ⟨(k, f) :: out, s₃, n', ?_, Reads.cons hleast hf hreads, hend⟩
          simp only [if_true, hnext, hread, H₁.currentFrame_eq hcur hf, Option.toList_some,
            List.singleton_append]

/-- In live mode no frame is withheld. -/
theorem readAll (H : Tracks W P L true n s)
    (hdata : ∀ k ∈ s.2.keys, ∀ f ∈ L k, f.hasData = true) (clock : ℕ → Int64) {fuel : ℕ}
    (hfuel : remaining L n s.2.keys < fuel) :
    ∃ out s' n', Reader.readAll clock fuel s = .ok (out, s') ∧
      Reads (LeastHead s.2.keys L) L n out n' ∧ ∀ k ∈ s.2.keys, n' k = (L k).length :=
  H.readAll_visible (fun _ k hk f hf => ⟨hdata k hk f hf, .inl rfl⟩) hfuel

end Tracks

/-! ## From the first frame on -/

/-- A seek to a time before every frame lands on the first one. -/
theorem seekIndex_eq_zero {d : Dir} {P : UInt32} {L : List Frame} {T : Int64} (H : d.Holds P L)
    (hL : Chronological L) (hT : ∀ f ∈ L, T < f.genTime)
    (hempty : 0 < T → lastPage L = [] → L = []) : seekIndex P T L = 0 := by
  have hzero : firstNewer T L = 0 := by
    rw [firstNewer, List.length_eq_zero_iff, List.takeWhile_eq_nil_iff]
    intro hpos
    simpa using hT _ (List.getElem_mem hpos)
  rw [← hzero, seekIndex, scanFrom_eq_firstNewer_iff hL _ (pageStart_le L _),
    H.pageStart_le_firstNewer_iff hL]
  refine ⟨?_, fun f hf hle => absurd (hT f (List.mem_of_mem_drop hf)) (Int64.not_lt.mpr hle)⟩
  rintro ⟨hlast, hpos, f, hf, -⟩
  rw [hempty hpos hlast] at hf
  exact absurd hf List.not_mem_nil

theorem tracks_make {W : Set Key} {P : Key → UInt32} {L : Key → List Frame} {dirs : Key → Dir}
    (hdirs : ∀ k ∈ W, (dirs k).Holds (P k) (L k)) (lazy live : Bool) :
    Tracks W P L live (fun _ => 0) (dirs, make lazy live) :=
  ⟨⟨List.nodup_nil, fun _ h => absurd h (by simp [make]), rfl⟩, hdirs, fun _ h => absurd h (by simp [make, keys]),
    fun _ h => absurd h (by simp [make]), fun _ _ => Nat.zero_le _⟩

/-- A live reader that joins journals in order of time, each from a time before its first
frame, delivers every frame of every journal once and all of them in order of time. -/
theorem live_merge {dirs : Key → Dir} {P : Key → UInt32} {L : Key → List Frame}
    {joins : List Join} (hdirs : ∀ j ∈ joins, (dirs j.key).Holds (P j.key) (L j.key))
    (hnodup : (joins.map Join.key).Nodup) (hchron : ∀ j ∈ joins, Chronological (L j.key))
    (hdata : ∀ j ∈ joins, ∀ f ∈ L j.key, f.hasData = true)
    (hfrom : ∀ j ∈ joins, ∀ f ∈ L j.key, j.fromTime < f.genTime)
    (hempty : ∀ j ∈ joins, 0 < j.fromTime → lastPage (L j.key) = [] → L j.key = [])
    (lazy : Bool) (clock : ℕ → Int64) :
    ∃ s, joinAll joins (dirs, make lazy true) = .ok s ∧
      ∀ fuel, (joins.map fun j => (L j.key).length).sum < fuel →
        ∃ out s', readAll clock fuel s = .ok (out, s') ∧
          (∀ j ∈ joins, (out.filter fun p => p.1 = j.key).map Prod.snd = L j.key) ∧
          (∀ p ∈ out, p.1 ∈ joins.map Join.key) ∧ Chronological (out.map Prod.snd) := by
  have hkeys : ∀ k ∈ joins.map Join.key, ∃ j ∈ joins, j.key = k := fun k hk => List.mem_map.mp hk
  have H : Tracks {k | k ∈ joins.map Join.key} P L true (fun _ => 0) (dirs, make lazy true) := by
    refine tracks_make (fun k hk => ?_) lazy true
    obtain ⟨j, hj, rfl⟩ := hkeys k hk
    exact hdirs j hj
  obtain ⟨s, n, hjoin, H', hmem, hpos, -⟩ := H.joinAll
    (fun j hj => List.mem_map_of_mem hj) hnodup fun j _ => by simp [make, keys]
  have hmem' : ∀ k, k ∈ s.2.keys ↔ k ∈ joins.map Join.key := by simpa [make, keys] using hmem
  have hzero : ∀ k ∈ s.2.keys, n k = 0 := by
    intro k hk
    obtain ⟨j, hj, rfl⟩ := hkeys k ((hmem' k).mp hk)
    rw [hpos j hj]
    exact seekIndex_eq_zero (hdirs j hj) (hchron j hj) (hfrom j hj) (hempty j hj)
  refine ⟨s, hjoin, fun fuel hfuel => ?_⟩
  have hremaining : remaining L n s.2.keys = (joins.map fun j => (L j.key).length).sum := by
    have hperm : s.2.keys.Perm (joins.map Join.key) :=
      (List.perm_ext_iff_of_nodup H'.wf.nodup hnodup).mpr hmem'
    have hlen : s.2.keys.map (fun k => (L k).length - n k) = s.2.keys.map fun k => (L k).length :=
      List.map_congr_left fun k hk => by rw [hzero k hk, Nat.sub_zero]
    rw [remaining, hlen, (hperm.map _).sum_eq, List.map_map]
    rfl
  obtain ⟨out, s', n', hread, hreads, hend⟩ := H'.readAll
    (fun k hk f hf => by
      obtain ⟨j, hj, rfl⟩ := hkeys k ((hmem' k).mp hk)
      exact hdata j hj f hf) clock (hremaining ▸ hfuel)
  refine ⟨out, s', hread, fun j hj => ?_, fun p hp => ?_, ?_⟩
  · have hj' : j.key ∈ s.2.keys := (hmem' _).mpr (List.mem_map_of_mem hj)
    rw [hreads.filter_eq, hend _ hj', hzero _ hj', List.drop_zero, Nat.sub_zero, List.take_length]
  · obtain ⟨-, -, -, m, hrule⟩ := hreads.exists_of_mem (k := p.1) (x := p.2) hp
    exact (hmem' _).mp hrule.joined
  · refine hreads.pairwise (fun f => Int64.le_refl f.genTime) Int64.le_trans ?_ ?_
    · exact fun n k f hrule hf m k' f' hrule' hf' => hrule.least k' hrule'.joined f f' hf hf'
    · intro m k hrule
      obtain ⟨j, hj, rfl⟩ := hkeys k ((hmem' k).mp hrule.joined)
      exact hchron j hj

/-- Two writers, and a reader that joins both journals from the beginning. -/
theorem live_merge_two :
    ∃ d₁ d₂, Incarnation.run (fun _ => 0) .checked 1 2 (Dir.empty 200) (.single 10 10 [1, 2, 3]) =
        .ok d₁ ∧
      Incarnation.run (fun _ => 0) .checked 3 2 (Dir.empty 200) (.single 10 20 [4]) = .ok d₂ ∧
      ∃ s, joinAll [⟨.front, 30, ⟨1, 2⟩, 0⟩, ⟨.front, 30, ⟨3, 2⟩, 0⟩]
          (fun k => if k.location = 1 then d₁ else d₂, make true true) = .ok s ∧
        ∀ fuel, 2 < fuel → ∃ out s', readAll (fun _ => 30) fuel s = .ok (out, s') ∧
          (out.filter fun p => p.1 = (⟨1, 2⟩ : Key)).map Prod.snd = d₁.contents ∧
          (out.filter fun p => p.1 = (⟨3, 2⟩ : Key)).map Prod.snd = d₂.contents := by
  have htest : ∀ L : List Frame, (decide (L.length = 1) && decide (Chronological L) &&
      decide (∀ f ∈ L, f.hasData = true) && decide (∀ f ∈ L, 0 < f.genTime)) = true →
      L.length = 1 ∧ Chronological L ∧ (∀ f ∈ L, f.hasData = true) ∧ ∀ f ∈ L, 0 < f.genTime := by
    intro L h
    simpa [and_assoc] using h
  have hsafe : ∀ t data, ((Incarnation.single 10 t data).writes.all fun w => w.Fits 200) = true →
      (Incarnation.single 10 t data).Safe 200 (Dir.empty 200) := fun t data h =>
    ⟨clear_nil 200 10, by simpa using h, by simp [Incarnation.single]⟩
  obtain ⟨d₁, L₁, hrun₁, H₁, -⟩ := Incarnation.run_holds (fun _ => 0) .checked 1 2
    (Dir.stores_empty (P := 200) (by decide))
    (hsafe 10 [1, 2, 3] (by decide))
  obtain ⟨d₂, L₂, hrun₂, H₂, -⟩ := Incarnation.run_holds (fun _ => 0) .checked 3 2
    (Dir.stores_empty (P := 200) (by decide))
    (hsafe 20 [4] (by decide))
  have htest₁ : okAnd (Incarnation.run (fun _ => 0) .checked 1 2 (Dir.empty 200)
      (.single 10 10 [1, 2, 3])) (fun d => decide (d.contents.length = 1) &&
        decide (Chronological d.contents) && decide (∀ f ∈ d.contents, f.hasData = true) &&
        decide (∀ f ∈ d.contents, 0 < f.genTime)) = true := by decide +kernel
  have htest₂ : okAnd (Incarnation.run (fun _ => 0) .checked 3 2 (Dir.empty 200)
      (.single 10 20 [4])) (fun d => decide (d.contents.length = 1) &&
        decide (Chronological d.contents) && decide (∀ f ∈ d.contents, f.hasData = true) &&
        decide (∀ f ∈ d.contents, 0 < f.genTime)) = true := by decide +kernel
  rw [hrun₁] at htest₁
  rw [hrun₂] at htest₂
  obtain ⟨hlen₁, hchron₁, hdata₁, htime₁⟩ := htest _ htest₁
  obtain ⟨hlen₂, hchron₂, hdata₂, htime₂⟩ := htest _ htest₂
  refine ⟨d₁, d₂, hrun₁, hrun₂, ?_⟩
  obtain ⟨s, hjoin, hread⟩ := @live_merge
    (fun k => if k.location = 1 then d₁ else d₂) (fun _ => 200)
    (fun k => if k.location = 1 then d₁.contents else d₂.contents)
    [⟨.front, 30, ⟨1, 2⟩, 0⟩, ⟨.front, 30, ⟨3, 2⟩, 0⟩]
    (by simpa using ⟨H₁.contents_eq.symm ▸ H₁, H₂.contents_eq.symm ▸ H₂⟩) (by decide)
    (by simpa using ⟨hchron₁, hchron₂⟩) (by simpa using ⟨hdata₁, hdata₂⟩)
    (by simpa using ⟨htime₁, htime₂⟩) (by simp) true (fun _ => 30)
  refine ⟨s, hjoin, fun fuel hfuel => ?_⟩
  obtain ⟨out, s', hout, hall, -, -⟩ := hread fuel (by simpa [hlen₁, hlen₂] using hfuel)
  exact ⟨out, s', hout, by simpa using hall _ List.mem_cons_self,
    by simpa using hall _ (List.mem_cons_of_mem _ List.mem_cons_self)⟩

/-- A frame of message type zero is never shown, and it hides the frames after it. -/
theorem live_merge_stops_at_type_zero :
    ∃ d, Incarnation.run (fun _ => 0) .checked 1 2 (Dir.empty 200)
        { Incarnation.single 10 10 [1, 2, 3] with
          writes := [.record 10 (.mark 0 0 10), .record 10 (.mark 0 7 20)] } = .ok d ∧
      Chronological d.contents ∧ d.contents.length = 2 ∧
      ∃ s, joinAll [⟨.front, 30, ⟨1, 2⟩, 0⟩] (fun _ => d, make true true) = .ok s ∧
        ∃ s', readAll (fun _ => 30) 5 s = .ok ([], s') := by
  have hrun : okAnd (Incarnation.run (fun _ => 0) .checked 1 2 (Dir.empty 200)
      { Incarnation.single 10 10 [1, 2, 3] with
        writes := [.record 10 (.mark 0 0 10), .record 10 (.mark 0 7 20)] })
      (fun d => decide (Chronological d.contents) && decide (d.contents.length = 2) &&
        okAnd (joinAll [⟨.front, 30, ⟨1, 2⟩, 0⟩] (fun _ => d, make true true)) fun s =>
          okAnd (readAll (fun _ => 30) 5 s) fun r => decide (r.1 = [])) = true := by
    decide +kernel
  obtain ⟨d, hd, hrest⟩ := exists_of_okAnd hrun
  obtain ⟨hfirst, hrest⟩ := (Bool.and_eq_true _ _).mp hrest
  obtain ⟨hchron, hlen⟩ := (Bool.and_eq_true _ _).mp hfirst
  obtain ⟨s, hs, hrest⟩ := exists_of_okAnd hrest
  obtain ⟨r, hr, hout⟩ := exists_of_okAnd hrest
  exact ⟨d, hd, of_decide_eq_true hchron, of_decide_eq_true hlen, s, hs, r.2, by
    rw [hr, ← of_decide_eq_true hout]⟩

end Reader

end Kungfu.Yijinjing
