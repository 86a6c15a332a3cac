import Kungfu.Yijinjing.Reader
import Kungfu.Log.Merge

/-!
# The reader's selection

`sort` is the selection `Merge.pick` over the heads that have data, as long as every
joined journal has been positioned.  Whatever calls are made, and whatever other processes
write in between, the keys stay unique and the cached selection is a joined journal.
-/

namespace Kungfu.Yijinjing

open Memory

namespace Reader

variable {s : State} {k : Key} {j : Journal} {live : Bool}

/-! ## The map of journals -/

theorem lookup_of_mem {l : List (Key × Journal)} (h : (l.map Prod.fst).Nodup) (hm : (k, j) ∈ l) :
    l.lookup k = some j := by
  induction l with
  | nil => simp at hm
  | cons e l ih =>
      obtain ⟨k', j'⟩ := e
      rw [List.map_cons, List.nodup_cons] at h
      rcases List.mem_cons.mp hm with heq | htail
      · obtain ⟨rfl, rfl⟩ := Prod.mk.inj heq
        exact List.lookup_cons_self
      · have hne : k ≠ k' := by
          rintro rfl
          exact h.1 (List.mem_map.mpr ⟨(k, j), htail, rfl⟩)
        rw [List.lookup_cons, beq_eq_false_iff_ne.mpr hne]
        exact ih h.2 htail

theorem mem_of_lookup {l : List (Key × Journal)} (h : l.lookup k = some j) : (k, j) ∈ l := by
  induction l with
  | nil => simp at h
  | cons e l ih =>
      obtain ⟨k', j'⟩ := e
      rw [List.lookup_cons] at h
      by_cases hk : k = k'
      · subst hk
        rw [beq_self_eq_true] at h
        obtain rfl : j' = j := Option.some.inj h
        exact List.mem_cons_self
      · rw [beq_eq_false_iff_ne.mpr hk] at h
        exact List.mem_cons_of_mem _ (ih h)

theorem lookup_isSome_iff {r : Reader} : (r.journals.lookup k).isSome ↔ k ∈ r.keys := by
  constructor
  · intro h
    obtain ⟨j, hj⟩ := Option.isSome_iff_exists.mp h
    exact List.mem_map_of_mem (f := Prod.fst) (mem_of_lookup hj)
  · intro h
    by_contra hnone
    obtain ⟨e, he, rfl⟩ := List.mem_map.mp h
    have hno : r.journals.lookup e.1 = none := by simpa only [Option.not_isSome_iff_eq_none] using hnone
    exact absurd (List.lookup_eq_none_iff.mp hno e he) (by simp)

@[simp] theorem keys_set (s : State) (k : Key) (d : Dir) (j : Journal) :
    (set s k d j).2.keys = s.2.keys := by
  simp only [set, keys, List.map_map]
  refine List.map_congr_left fun e _ => ?_
  simp only [Function.comp_apply]
  split
  · exact Eq.symm ‹_›
  · rfl

@[simp] theorem current_set (s : State) (k : Key) (d : Dir) (j : Journal) :
    (set s k d j).2.current = s.2.current := rfl

theorem keys_emplace (order : HashOrder) (k : Key) (s : State) :
    (emplace order k s).2.keys.Perm (k :: s.2.keys) := (order.perm _).map Prod.fst

/-- Unique keys, a current journal that is joined, and the mode the reader was set to. -/
structure Wf (live : Bool) (r : Reader) : Prop where
  nodup : r.keys.Nodup
  current : ∀ k, r.current = some k → k ∈ r.keys
  liveMode : r.liveMode = live

theorem Wf.set (H : Wf live s.2) (k : Key) (d : Dir) (j : Journal) : Wf live (set s k d j).2 :=
  ⟨by simpa using H.nodup, by simpa using H.current, H.liveMode⟩

theorem Wf.emplace (H : Wf live s.2) (order : HashOrder) (hk : k ∉ s.2.keys) :
    Wf live (emplace order k s).2 := by
  have hperm := keys_emplace order k s
  refine ⟨hperm.nodup_iff.mpr (List.nodup_cons.mpr ⟨hk, H.nodup⟩), fun k' hk' => ?_, H.liveMode⟩
  exact hperm.mem_iff.mpr (List.mem_cons_of_mem k (H.current k' hk'))

/-- The new entry is the one that is found. -/
theorem lookup_emplace (H : Wf live s.2) (order : HashOrder) (hk : k ∉ s.2.keys) :
    (emplace order k s).2.journals.lookup k =
      some (Journal.make k.location k.dest false s.2.lazy) :=
  lookup_of_mem (H.emplace order hk).nodup ((order.perm _).mem_iff.mpr List.mem_cons_self)

/-! ## Selection -/

/-- The head of a joined journal, if it has data: the journal's key and the frame's time. -/
def headOf (dirs : Key → Dir) (e : Key × Journal) : Option (Key × Int64) :=
  match e.2.cursor with
  | none => none
  | some c =>
      if FrameHeader.hasData ((dirs e.1).mem c.page) c.frame then
        some (e.1, FrameHeader.genTime ((dirs e.1).mem c.page) c.frame)
      else none

theorem headOf_fst {dirs : Key → Dir} {e : Key × Journal} {h : Key × Int64}
    (hh : headOf dirs e = some h) : h.1 = e.1 := by
  rw [headOf] at hh
  split at hh
  · exact absurd hh (by simp)
  · split at hh
    · exact (congrArg Prod.fst (Option.some.inj hh)).symm
    · exact absurd hh (by simp)

/-- The heads of all joined journals that have data. -/
def heads (s : State) : List (Key × Int64) := s.2.journals.filterMap (headOf s.1)

/-- Every joined journal has loaded a page. -/
def Positioned (r : Reader) : Prop := ∀ e ∈ r.journals, e.2.cursor.isSome = true

instance (r : Reader) : Decidable (Positioned r) :=
  inferInstanceAs (Decidable (∀ e ∈ r.journals, _))

theorem select_ok (dirs : Key → Dir) {js : List (Key × Journal)}
    (h : ∀ e ∈ js, e.2.cursor.isSome = true) (bound : Int64) (old : Option Key) :
    select dirs js bound old = .ok (Merge.pick (js.filterMap (headOf dirs)) bound old) := by
  induction js generalizing bound old with
  | nil => rfl
  | cons e js ih =>
      obtain ⟨k, j⟩ := e
      have hrest : ∀ e ∈ js, e.2.cursor.isSome = true := fun e he => h e (List.mem_cons_of_mem _ he)
      obtain ⟨c, hc⟩ := Option.isSome_iff_exists.mp (h (k, j) List.mem_cons_self)
      simp only at hc
      simp only [select, hc]
      by_cases hdata : FrameHeader.hasData ((dirs k).mem c.page) c.frame = true
      · have hhead : headOf dirs (k, j) =
            some (k, FrameHeader.genTime ((dirs k).mem c.page) c.frame) := by
          simp [headOf, hc, hdata]
        rw [List.filterMap_cons_some hhead, Merge.pick]
        by_cases hle : FrameHeader.genTime ((dirs k).mem c.page) c.frame ≤ bound
        · rw [if_pos ⟨hdata, hle⟩, if_pos hle, ih hrest]
        · rw [if_neg (fun h => hle h.2), if_neg hle, ih hrest]
      · have hhead : headOf dirs (k, j) = none := by simp [headOf, hc, hdata]
        rw [List.filterMap_cons_none hhead, if_neg (fun h => hdata h.1), ih hrest]

theorem select_error (dirs : Key → Dir) {js : List (Key × Journal)}
    (h : ¬ ∀ e ∈ js, e.2.cursor.isSome = true) (bound : Int64) (old : Option Key) :
    select dirs js bound old = .error .nullFrame := by
  induction js generalizing bound old with
  | nil => exact absurd (fun e he => absurd he List.not_mem_nil) h
  | cons e js ih =>
      obtain ⟨k, j⟩ := e
      cases hc : j.cursor with
      | none => simp [select, hc]
      | some c =>
          have hrest : ¬ ∀ e ∈ js, e.2.cursor.isSome = true := by
            intro hall
            refine h fun e he => ?_
            rcases List.mem_cons.mp he with rfl | he
            · simp [hc]
            · exact hall e he
          simp only [select, hc]
          split <;> exact ih hrest _ _

theorem sort_ok (h : Positioned s.2) (now : Int64) :
    sort now s = .ok (s.1, { s.2 with
      current := Merge.pick (heads s) (s.2.minTime now) s.2.current }) := by
  rw [sort, select_ok s.1 h]
  rfl

theorem sort_error (h : ¬ Positioned s.2) (now : Int64) : sort now s = .error (.nullFrame, s) := by
  rw [sort, select_error s.1 h]

theorem mem_keys_of_mem_heads {h : Key × Int64} (hh : h ∈ heads s) : h.1 ∈ s.2.keys := by
  obtain ⟨e, he, hhead⟩ := List.mem_filterMap.mp hh
  exact headOf_fst hhead ▸ List.mem_map_of_mem (f := Prod.fst) he

/-- The selection is old, or it is the least head within the bound. -/
theorem pick_heads_cases (s : State) (bound : Int64) (old : Option Key) :
    (Merge.pick (heads s) bound old = old ∧ ∀ h ∈ heads s, ¬ h.2 ≤ bound) ∨
      ∃ k t, Merge.pick (heads s) bound old = some k ∧ (k, t) ∈ heads s ∧ t ≤ bound ∧
        ∀ h ∈ heads s, t ≤ h.2 := by
  by_cases h : ∃ p ∈ heads s, p.2 ≤ bound
  · obtain ⟨k, t, hmem, hle, hmin, hpick⟩ := Merge.exists_pick old h
    exact Or.inr ⟨k, t, hpick, hmem, hle, hmin⟩
  · have hall : ∀ p ∈ heads s, ¬ p.2 ≤ bound := fun p hp hle => h ⟨p, hp, hle⟩
    exact Or.inl ⟨Merge.pick_of_forall_not_le old hall, hall⟩

/-- The state that a call leaves, whether it returns or throws. -/
def after : Result → State
  | .ok s => s
  | .error (_, s) => s

theorem Wf.sort (H : Wf live s.2) (now : Int64) : Wf live (after (Reader.sort now s)).2 := by
  by_cases hpos : Positioned s.2
  · rw [sort_ok hpos]
    refine ⟨H.nodup, fun k hk => ?_, H.liveMode⟩
    rcases pick_heads_cases s (s.2.minTime now) s.2.current with ⟨hold, -⟩ | ⟨k', t, hpick, hmem, -⟩
    · exact H.current k (hold ▸ hk)
    · obtain rfl : k' = k := Option.some.inj (hpick.symm.trans hk)
      exact mem_keys_of_mem_heads hmem
  · rw [sort_error hpos]
    exact H

/-! ## What the cached selection points to -/

/-- What the cached selection points to. -/
theorem currentHead_eq (H : Wf live s.2) (hpos : Positioned s.2) (hcur : s.2.current = some k) :
    ∃ c, currentHead s = some (k, c) ∧ ∀ t, (k, t) ∈ heads s ↔
      FrameHeader.hasData ((s.1 k).mem c.page) c.frame = true ∧
        FrameHeader.genTime ((s.1 k).mem c.page) c.frame = t := by
  obtain ⟨e, he, rfl⟩ := List.mem_map.mp (H.current k hcur)
  obtain ⟨c, hc⟩ := Option.isSome_iff_exists.mp (hpos e he)
  have hlook : s.2.journals.lookup e.1 = some e.2 := lookup_of_mem H.nodup he
  refine ⟨c, by simp [currentHead, hcur, hlook, hc], fun t => ?_⟩
  have hhead : headOf s.1 e = some (e.1, t) ↔
      FrameHeader.hasData ((s.1 e.1).mem c.page) c.frame = true ∧
        FrameHeader.genTime ((s.1 e.1).mem c.page) c.frame = t := by
    rw [headOf, hc]
    by_cases hdata : FrameHeader.hasData ((s.1 e.1).mem c.page) c.frame = true
    · simp [hdata]
    · simp [hdata]
  rw [← hhead]
  constructor
  · intro hmem
    obtain ⟨e', he', hh⟩ := List.mem_filterMap.mp hmem
    have hkey : e'.1 = e.1 := (headOf_fst hh).symm
    have hsame : e'.2 = e.2 := by
      have h := lookup_of_mem H.nodup (k := e'.1) (j := e'.2) he'
      rw [hkey, hlook] at h
      exact (Option.some.inj h).symm
    rwa [Prod.ext hkey hsame] at hh
  · exact fun hh => List.mem_filterMap.mpr ⟨e, he, hh⟩

theorem dataAvailable_of_sort {now : Int64} {s' : State} (H : Wf live s'.2)
    (hpos : Positioned s'.2) (hsort : sort now s = .ok s') :
    ∃ available, dataAvailable now s = .ok (available, s') ∧
      (available = true ↔ ∃ k t, s'.2.current = some k ∧ (k, t) ∈ heads s') := by
  rw [dataAvailable, hsort]
  simp only [bind, Except.bind]
  cases hcur : s'.2.current with
  | none => exact ⟨false, rfl, by simp⟩
  | some k =>
      obtain ⟨c, hhead, hiff⟩ := currentHead_eq H hpos hcur
      refine ⟨FrameHeader.hasData ((s'.1 k).mem c.page) c.frame, by simp only [hhead], ?_⟩
      constructor
      · intro hdata
        exact ⟨k, _, rfl, (hiff _).mpr ⟨hdata, rfl⟩⟩
      · rintro ⟨k', t, hk', hmem⟩
        obtain rfl := Option.some.inj hk'
        exact ((hiff t).mp hmem).1

/-! ## Sequences of calls -/

/-- A call on a reader, or a change that other processes make to the page files. -/
inductive Call
  | join (order : HashOrder) (now : Int64) (k : Key) (fromTime : Int64)
  | disjoin (now : Int64) (location : UInt32)
  | disjoinChannel (now : Int64) (k : Key)
  | dataAvailable (now : Int64)
  | next (now : Int64)
  | others (dirs : Key → Dir)

/-- The state after a call; a call that throws is caught and the reader is used on. -/
def Call.run (s : State) : Call → State
  | join order now k fromTime => after (Reader.join order now k fromTime s)
  | disjoin now location => after (Reader.disjoin now location s)
  | disjoinChannel now k => after (Reader.disjoinChannel now k s)
  | dataAvailable now => after ((Reader.dataAvailable now s).map Prod.snd)
  | next now => after (Reader.next now s)
  | others dirs => (dirs, s.2)

/-- A reader that is constructed on some directories and then used. -/
def runCalls (lazy liveMode : Bool) (dirs : Key → Dir) (calls : List Call) : State :=
  calls.foldl Call.run (dirs, make lazy liveMode)

theorem Wf.onJournal (H : Wf live s.2) (f : Journal.State → Journal.Result) (k : Key) :
    Wf live (after (Reader.onJournal f k s)).2 := by
  rw [Reader.onJournal]
  split
  · exact H
  · split
    · exact H.set _ _ _
    · exact H.set _ _ _

theorem Wf.after_bind {x : Result} {f : State → Result} (hx : Wf live (after x).2)
    (hf : ∀ s, x = .ok s → Wf live s.2 → Wf live (after (f s)).2) : Wf live (after (x >>= f)).2 := by
  cases x with
  | ok s => exact hf s rfl hx
  | error e => exact hx

theorem after_dataAvailable (now : Int64) (s : State) :
    after ((Reader.dataAvailable now s).map Prod.snd) = after (Reader.sort now s) := by
  rw [Reader.dataAvailable]
  cases hx : Reader.sort now s with
  | error e => rfl
  | ok s' =>
      simp only [bind, Except.bind]
      cases s'.2.current with
      | none => rfl
      | some k =>
          cases currentHead s' with
          | none => rfl
          | some h => rfl

theorem Call.run_wf (H : Wf live s.2) (c : Call) : Wf live (c.run s).2 := by
  cases c with
  | join order now k fromTime =>
      rw [run, Reader.join]
      refine Wf.after_bind ?_ fun s' _ H' => ?_
      · rw [Reader.insert]
        by_cases hk : (s.2.journals.lookup k).isSome = true
        · rw [if_pos hk]
          exact H
        · rw [if_neg hk]
          exact (H.emplace order (mt lookup_isSome_iff.mpr hk)).onJournal _ k
      · split
        · exact H'.sort now
        · exact H'
  | disjoin now location =>
      rw [run, Reader.disjoin]
      refine Wf.sort ⟨?_, ?_, ?_⟩ now
      · exact H.nodup.sublist (List.filter_sublist.map Prod.fst)
      · exact fun _ h => absurd h (by simp)
      · exact H.liveMode
  | disjoinChannel now k =>
      rw [run, Reader.disjoinChannel]
      refine Wf.sort ⟨?_, ?_, ?_⟩ now
      · exact H.nodup.sublist (List.eraseP_sublist.map Prod.fst)
      · exact fun _ h => absurd h (by simp)
      · exact H.liveMode
  | dataAvailable now =>
      rw [Call.run, after_dataAvailable]
      exact H.sort now
  | next now =>
      rw [run, Reader.next]
      refine Wf.after_bind ?_ fun s' _ H' => H'.sort now
      rw [nextCurrent]
      cases s.2.current with
      | none => exact H
      | some k => exact H.onJournal _ k
  | others dirs => exact H

theorem runCalls_wf (lazy liveMode : Bool) (dirs : Key → Dir) (calls : List Call) :
    Wf liveMode (runCalls lazy liveMode dirs calls).2 := by
  have hrun : ∀ (calls : List Call) (s : State), Wf liveMode s.2 → Wf liveMode (calls.foldl Call.run s).2 := by
    intro calls
    induction calls with
    | nil => exact fun _ H => H
    | cons c calls ih => exact fun s H => ih _ (Call.run_wf H c)
  exact hrun calls _ ⟨List.nodup_nil, fun _ h => absurd h (by simp [make]), rfl⟩

end Reader

end Kungfu.Yijinjing
