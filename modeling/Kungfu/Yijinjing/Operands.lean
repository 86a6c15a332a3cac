import Kungfu.Logic.Absorb
import Kungfu.Yijinjing.Joins

/-!
# The operators `+=` and `-=` of assembles

An assemble holds locators and readers by pointer, so two assembles may hold the same ones:
a copy holds the readers of its original, and an assemble may be its own operand.  What the
pointers lead to is a `Heap`.

`+=` is two loops.  The first gives the journals of each reader of the other operand to the
first reader that this operand has for the same locator.  The second makes new readers for
the locators that this operand lacks; it runs over the indices of `locators_` of this
operand, which grows meanwhile, and not over those of the other one.  `-=` is one loop like
the first.

In terms of what the readers have joined, the loops are runs of `Absorb.step`.
-/

namespace Kungfu.Yijinjing

open Outcome

/-- `locators_[i]` and `readers_[i]`, which are always pushed together; pointers. -/
structure Member where
  locator : ℕ
  reader : ℕ
  deriving DecidableEq, Repr

/-- What the operators read and write of an `assemble`. -/
structure Operand where
  members : List Member
  fromTime : Int64
  deriving DecidableEq

/-- The page files of each locator, the reader objects, and the next free address of one. -/
structure Heap where
  files : ℕ → Key → Dir
  reader : ℕ → Reader
  next : ℕ

/-- How an operator may fail. -/
inductive OperatorFault
  /-- A reader threw. -/
  | thrown (fault : Fault)
  /-- `at` was called with an index that does not exist. -/
  | outOfRange
  /-- A loop moved on from a map entry that it had erased. -/
  | invalidIterator
  deriving DecidableEq, Repr

namespace Heap

/-- A reader with the page files that it reads. -/
def state (h : Heap) (m : Member) : Reader.State := (h.files m.locator, h.reader m.reader)

/-- What an operation on a reader leaves. -/
def put (h : Heap) (m : Member) (s : Reader.State) : Heap :=
  { h with
    files := Function.update h.files m.locator s.1
    reader := Function.update h.reader m.reader s.2 }

/-- `make_shared<reader>(true)`. -/
def alloc (h : Heap) : Heap :=
  { h with reader := Function.update h.reader h.next (Reader.make true false), next := h.next + 1 }

/-- What the loop over `other_reader->journals()` names: location and dest of each journal. -/
def channels (h : Heap) (r : ℕ) : List Key :=
  (h.reader r).journals.map fun e => ⟨e.2.location, e.2.dest⟩

/-- The journals that a reader has joined. -/
def keys (h : Heap) (r : ℕ) : Set Key := {k | k ∈ (h.reader r).keys}

/-- Every journal of `source` is joined by `target`. -/
def joinFrom (env : ℕ → HashOrder × Int64) (fromTime : Int64) (h : Heap) (source target : Member) :
    Except OperatorFault Heap :=
  match Reader.joinKeys env fromTime (h.channels source.reader) (h.state target) with
  | .ok s => .ok (h.put target s)
  | .error (fault, _) => .error (.thrown fault)

/-- Every journal of `source` is removed from `target`.  The loop runs over the map of
`source`; in a reader's own map it erases the entry it stands at. -/
def disjoinFrom (now : ℕ → Int64) (h : Heap) (source target : Member) :
    Except OperatorFault Heap :=
  if source.reader = target.reader ∧ h.channels source.reader ≠ [] then .error .invalidIterator
  else
    match Reader.disjoinKeys now (h.channels source.reader) (h.state target) with
    | .ok s => .ok (h.put target s)
    | .error (fault, _) => .error (.thrown fault)

end Heap

namespace Operand

/-- The inner loop over `locators_`, which breaks at the first match. -/
def find (a : Operand) (locator : ℕ) : Option Member :=
  a.members.find? fun m => m.locator = locator

/-- The first loop of `+=`, from index `i` of the other operand on. -/
def addShared (env : ℕ → ℕ → HashOrder × Int64) (a : Operand) (fromTime : Int64) :
    ℕ → List Member → Heap → Except OperatorFault Heap
  | _, [], h => .ok h
  | i, m :: ms, h => do
      let h ← match a.find m.locator with
        | some t => h.joinFrom (env i) fromTime m t
        | none => .ok h
      addShared env a fromTime (i + 1) ms h

/-- The second loop of `+=`, from index `i` on; `ms` are the members of the other operand from
there on.  Its bound is the growing size of `locators_`.  An index is in `other_same_index` if
the first loop found its locator. -/
def addRest (env : ℕ → ℕ → HashOrder × Int64) (shared : Member → Bool) (fromTime : Int64) :
    ℕ → List Member → Heap × Operand → Except OperatorFault (Heap × Operand)
  | i, [], (h, a) => if i < a.members.length then .error .outOfRange else .ok (h, a)
  | i, m :: ms, (h, a) =>
      if i < a.members.length then
        if shared m then addRest env shared fromTime (i + 1) ms (h, a)
        else do
          let new : Member := ⟨m.locator, h.next⟩
          let h ← h.alloc.joinFrom (env i) fromTime m new
          addRest env shared fromTime (i + 1) ms (h, { a with members := a.members ++ [new] })
      else .ok (h, a)

/-- Whether this operand has a locator. -/
def shares (a : Operand) (m : Member) : Bool := (a.find m.locator).isSome

/-- `assemble::operator+=`. -/
def addAssign (env : ℕ → ℕ → HashOrder × Int64) (h : Heap) (a b : Operand) :
    Except OperatorFault (Heap × Operand) := do
  let h ← addShared env a b.fromTime 0 b.members h
  addRest env a.shares b.fromTime 0 b.members (h, a)

/-- The loop of `-=`, from index `i` of the other operand on. -/
def subFrom (now : ℕ → ℕ → Int64) (a : Operand) : ℕ → List Member → Heap → Except OperatorFault Heap
  | _, [], h => .ok h
  | i, m :: ms, h => do
      let h ← match a.find m.locator with
        | some t => h.disjoinFrom (now i) m t
        | none => .ok h
      subFrom now a (i + 1) ms h

/-- `assemble::operator-=`, which leaves the members as they are. -/
def subAssign (now : ℕ → ℕ → Int64) (h : Heap) (a b : Operand) : Except OperatorFault Heap :=
  subFrom now a 0 b.members h

end Operand

/-! ## What holds of the heap -/

/-- The readers of these members exist, all their joins have returned, and no reader is held
under two locators. -/
structure Heap.Holds (h : Heap) (ms : List Member) : Prop where
  bound : ∀ m ∈ ms, m.reader < h.next
  ready : ∀ m ∈ ms, Reader.Ready (h.reader m.reader)
  single : ∀ m ∈ ms, ∀ m' ∈ ms, m.reader = m'.reader → m = m'

/-- An operation on `target` changed nothing else, and nothing at all if `source` is empty. -/
structure Heap.Stepped (h h' : Heap) (source target : Member) : Prop where
  files : h'.files = h.files
  next : h'.next = h.next
  ready : Reader.Ready (h'.reader target.reader)
  other : ∀ r, r ≠ target.reader → h'.reader r = h.reader r
  idle : h.keys source.reader = ∅ → h' = h

namespace Heap

variable {h h' : Heap} {source target : Member} {fromTime : Int64} {ms : List Member} {k : Key}

theorem Holds.subset {ms' : List Member} (H : h.Holds ms) (hsub : ms' ⊆ ms) : h.Holds ms' :=
  ⟨fun m hm => H.bound m (hsub hm), fun m hm => H.ready m (hsub hm),
    fun m hm m' hm' => H.single m (hsub hm) m' (hsub hm')⟩

theorem channels_eq {r : ℕ} (H : Reader.Ready (h.reader r)) :
    h.channels r = (h.reader r).keys := H.named

theorem channels_eq_nil {r : ℕ} (H : Reader.Ready (h.reader r)) (hempty : h.keys r = ∅) :
    h.channels r = [] := by
  rw [channels_eq H]
  exact List.eq_nil_iff_forall_not_mem.mpr fun k hk => (hempty ▸ hk : k ∈ (∅ : Set Key))

theorem put_state : h.put target (h.state target) = h := by
  simp [put, state]

/-- An operation that leaves the page files as they were. -/
theorem put_stepped {s : Reader.State} (H : Reader.Ready s.2) (hdirs : s.1 = (h.state target).1)
    (hidle : h.keys source.reader = ∅ → s = h.state target) :
    Stepped h (h.put target s) source target := by
  refine ⟨?_, rfl, ?_, fun r hr => Function.update_of_ne hr _ _, fun hempty => ?_⟩
  · rw [put, hdirs]
    exact Function.update_eq_self _ _
  · simpa [put] using H
  · rw [hidle hempty, put_state]

theorem keys_put {s : Reader.State} {f : Set Key → Set Key → Set Key}
    (hkeys : {k | k ∈ s.2.keys} = f (h.keys target.reader) (h.keys source.reader)) :
    (h.put target s).keys = Absorb.step f h.keys ⟨source.reader, target.reader⟩ := by
  funext r
  by_cases hr : r = target.reader
  · subst hr
    rw [Absorb.step_target (e := ⟨source.reader, target.reader⟩), ← hkeys]
    simp [keys, put]
  · rw [Absorb.step_of_ne hr]
    simp [keys, put, Function.update_of_ne hr]

/-- A join of all that `source` has joined. -/
theorem joinFrom_spec (Hs : Reader.Ready (h.reader source.reader))
    (Ht : Reader.Ready (h.reader target.reader)) (env : ℕ → HashOrder × Int64)
    (hopen : ∀ k ∈ h.keys source.reader,
      k ∈ h.keys target.reader ∨ Opens (h.files target.locator k) k fromTime) :
    ∃ h', h.joinFrom env fromTime source target = .ok h' ∧ Stepped h h' source target ∧
      h'.keys = Absorb.step (· ∪ ·) h.keys ⟨source.reader, target.reader⟩ := by
  have hopen' : ∀ k ∈ (h.reader source.reader).keys, k ∈ (h.state target).2.keys ∨
      Opens ((h.state target).1 k) k fromTime := hopen
  obtain ⟨s, hjoin, H, hdirs, hkeys⟩ := Reader.Ready.joinKeys (s := h.state target) Ht env hopen'
  refine ⟨h.put target s, ?_, put_stepped H hdirs fun hempty => ?_, keys_put ?_⟩
  · rw [joinFrom, channels_eq Hs, hjoin]
  · rw [← channels_eq Hs, channels_eq_nil Hs hempty] at hjoin
    exact (Except.ok.inj hjoin).symm
  · ext k
    exact (hkeys k).trans Or.comm

theorem opens_of_joinFrom (Hs : Reader.Ready (h.reader source.reader))
    (Ht : Reader.Ready (h.reader target.reader)) {env : ℕ → HashOrder × Int64}
    (hjoin : h.joinFrom env fromTime source target = .ok h') :
    ∀ k ∈ h.keys source.reader,
      k ∈ h.keys target.reader ∨ Opens (h.files target.locator k) k fromTime := by
  rw [joinFrom, channels_eq Hs] at hjoin
  split at hjoin
  · rename_i s hs
    exact Reader.Ready.opens_of_joinKeys (s := h.state target) Ht hs
  · cases hjoin

/-- A removal of all that `source` has joined; from itself only if that is nothing. -/
theorem disjoinFrom_spec (Hs : Reader.Ready (h.reader source.reader))
    (Ht : Reader.Ready (h.reader target.reader)) (now : ℕ → Int64)
    (hself : source.reader = target.reader → h.keys source.reader = ∅) :
    ∃ h', h.disjoinFrom now source target = .ok h' ∧ Stepped h h' source target ∧
      h'.keys = Absorb.step (· \ ·) h.keys ⟨source.reader, target.reader⟩ := by
  obtain ⟨s, hleave, H, hdirs, hkeys⟩ :=
    Reader.Ready.disjoinKeys (s := h.state target) Ht now (h.reader source.reader).keys
  refine ⟨h.put target s, ?_, put_stepped H hdirs fun hempty => ?_, keys_put ?_⟩
  · have hvalid : ¬ (source.reader = target.reader ∧ h.channels source.reader ≠ []) :=
      fun ⟨heq, hne⟩ => hne (channels_eq_nil Hs (hself heq))
    rw [disjoinFrom, if_neg hvalid, channels_eq Hs, hleave]
  · rw [← channels_eq Hs, channels_eq_nil Hs hempty] at hleave
    exact (Except.ok.inj hleave).symm
  · ext k
    exact (hkeys k).trans and_comm

/-- What a loop over the edges `es` leaves as it was. -/
structure Ran (h h' : Heap) (es : List (Absorb.Edge ℕ)) : Prop where
  files : h'.files = h.files
  next : h'.next = h.next
  ready : ∀ r, Reader.Ready (h.reader r) → Reader.Ready (h'.reader r)
  idle : ∀ r, Absorb.fed h.keys es r = ∅ → h'.reader r = h.reader r

theorem Ran.refl (h : Heap) : Ran h h [] := ⟨rfl, rfl, fun _ H => H, fun _ _ => rfl⟩

theorem Stepped.ready_of_ready (H : Stepped h h' source target) {r : ℕ}
    (hr : Reader.Ready (h.reader r)) : Reader.Ready (h'.reader r) := by
  by_cases heq : r = target.reader
  · exact heq ▸ H.ready
  · rwa [H.other r heq]

theorem Stepped.holds (H : Stepped h h' source target) (Hms : h.Holds ms) : h'.Holds ms :=
  ⟨fun m hm => H.next ▸ Hms.bound m hm, fun m hm => H.ready_of_ready (Hms.ready m hm),
    Hms.single⟩

theorem Ran.cons {h₁ : Heap} {f : Set Key → Set Key → Set Key} {es : List (Absorb.Edge ℕ)}
    (hself : Absorb.SelfOnly (⟨source.reader, target.reader⟩ :: es))
    (hstep : Stepped h h₁ source target)
    (hkeys : h₁.keys = Absorb.step f h.keys ⟨source.reader, target.reader⟩) (hrest : Ran h₁ h' es) :
    Ran h h' (⟨source.reader, target.reader⟩ :: es) := by
  refine ⟨hrest.files.trans hstep.files, hrest.next.trans hstep.next,
    fun r hr => hrest.ready r (hstep.ready_of_ready hr), fun r hfed => ?_⟩
  have hlater : Absorb.fed h.keys es r = ∅ :=
    Set.eq_empty_of_subset_empty fun k hk => hfed ▸ Absorb.mem_fed_cons.mpr (Or.inr hk)
  by_cases hr : r = target.reader
  · -- the source is empty, so the step did nothing
    have hempty : h.keys source.reader = ∅ := Set.eq_empty_of_subset_empty fun k hk =>
      hfed ▸ Absorb.mem_fed_cons.mpr (Or.inl ⟨hr.symm, hk⟩)
    obtain rfl := hstep.idle hempty
    exact hrest.idle r hlater
  · rw [hrest.idle r, hstep.other r hr]
    rw [hkeys, Absorb.fed_step_of_ne hself hr, hlater]

end Heap

namespace Operand

variable {h h' : Heap} {a : Operand} {fromTime : Int64} {ms : List Member} {m t : Member}

/-! ## The loops over the other operand -/

theorem find_mem {locator : ℕ} (hfind : a.find locator = some t) :
    t ∈ a.members ∧ t.locator = locator :=
  ⟨List.mem_of_find?_eq_some hfind, by simpa using List.find?_some hfind⟩

theorem shares_iff : a.shares m = true ↔ ∃ t ∈ a.members, t.locator = m.locator := by
  simp [shares, find]

/-- The readers that a loop over `ms` comes to, and those it applies them to. -/
def edges (a : Operand) (ms : List Member) : List (Absorb.Edge ℕ) :=
  ms.filterMap fun m => (a.find m.locator).map fun t => ⟨m.reader, t.reader⟩

theorem edges_cons_some (hfind : a.find m.locator = some t) :
    a.edges (m :: ms) = ⟨m.reader, t.reader⟩ :: a.edges ms := by
  simp [edges, hfind]

theorem edges_cons_none (hfind : a.find m.locator = none) : a.edges (m :: ms) = a.edges ms := by
  simp [edges, hfind]

theorem mem_edges {e : Absorb.Edge ℕ} : e ∈ a.edges ms ↔
    ∃ m ∈ ms, ∃ t, a.find m.locator = some t ∧ e = ⟨m.reader, t.reader⟩ := by
  simp [edges, eq_comm]

/-- A reader that is applied to is held under one locator, so what it is applied to itself is
itself. -/
theorem selfOnly_edges (H : h.Holds (a.members ++ ms)) : Absorb.SelfOnly (a.edges ms) := by
  intro e he e' he' hsource
  obtain ⟨m, hm, t, hfind, rfl⟩ := mem_edges.mp he
  obtain ⟨m', hm', t', hfind', rfl⟩ := mem_edges.mp he'
  obtain ⟨ht, hlocator⟩ := find_mem hfind
  obtain rfl : m' = t :=
    H.single m' (List.mem_append_right _ hm') t (List.mem_append_left _ ht) hsource
  rw [hlocator, hfind] at hfind'
  exact congrArg Member.reader (Option.some.inj hfind'.symm)

theorem holds_tail (H : h.Holds (a.members ++ m :: ms)) : h.Holds (a.members ++ ms) :=
  H.subset fun m' hm' => by
    rw [List.mem_append, List.mem_cons]
    exact (List.mem_append.mp hm').imp_right Or.inr

/-- What the first loop needs: each journal is joined already or opens. -/
def CanShare (h : Heap) (a : Operand) (fromTime : Int64) (ms : List Member) : Prop :=
  ∀ m ∈ ms, ∀ t, a.find m.locator = some t → ∀ k ∈ h.keys m.reader,
    k ∈ h.keys t.reader ∨ Opens (h.files t.locator k) k fromTime

/-- A join hides nothing from the loop that goes on, and opens nothing for it. -/
theorem canShare_step (H : h.Holds (a.members ++ m :: ms)) (hfind : a.find m.locator = some t)
    (hfirst : ∀ k ∈ h.keys m.reader, k ∈ h.keys t.reader ∨ Opens (h.files t.locator k) k fromTime)
    (hfiles : h'.files = h.files)
    (hkeys : h'.keys = Absorb.step (· ∪ ·) h.keys ⟨m.reader, t.reader⟩) :
    CanShare h' a fromTime ms ↔ CanShare h a fromTime ms := by
  have hgrow : ∀ r, h.keys r ⊆ h'.keys r := fun r => hkeys ▸ Absorb.subset_step_union r
  obtain ⟨ht, hlocator⟩ := find_mem hfind
  have hsingle : ∀ m' ∈ a.members ++ m :: ms, m'.reader = t.reader → m' = t :=
    fun m' hm' => H.single m' hm' t (List.mem_append_left _ ht)
  constructor
  · intro hopen m' hm' t' hfind' k hk
    rcases hopen m' hm' t' hfind' k (hgrow _ hk) with hjoined | hopens
    · by_cases heq : t'.reader = t.reader
      · obtain rfl := hsingle t' (List.mem_append_left _ (find_mem hfind').1) heq
        rw [hkeys, Absorb.step_target (e := ⟨m.reader, t'.reader⟩)] at hjoined
        exact hjoined.elim Or.inl (hfirst k)
      · rw [hkeys, Absorb.step_of_ne heq] at hjoined
        exact Or.inl hjoined
    · exact Or.inr (hfiles ▸ hopens)
  · intro hopen m' hm' t' hfind' k hk
    by_cases heq : m'.reader = t.reader
    · -- the source has been the target, and is applied to itself
      obtain rfl := hsingle m' (by simp [hm']) heq
      rw [hlocator, hfind] at hfind'
      exact Or.inl (Option.some.inj hfind' ▸ hk)
    · rw [hkeys, Absorb.step_of_ne heq] at hk
      rw [hfiles]
      exact (hopen m' hm' t' hfind' k hk).imp_left fun hjoined => hgrow _ hjoined

theorem addShared_spec (H : h.Holds (a.members ++ ms)) (env : ℕ → ℕ → HashOrder × Int64) (i : ℕ)
    (hopen : CanShare h a fromTime ms) :
    ∃ h', addShared env a fromTime i ms h = .ok h' ∧ Heap.Ran h h' (a.edges ms) ∧
      h'.keys = Absorb.run (· ∪ ·) h.keys (a.edges ms) := by
  induction ms generalizing h i with
  | nil => exact ⟨h, rfl, Heap.Ran.refl h, rfl⟩
  | cons m ms ih =>
      have hrest : CanShare h a fromTime ms := fun m' hm' => hopen m' (List.mem_cons_of_mem m hm')
      cases hfind : a.find m.locator with
      | none =>
          rw [edges_cons_none hfind, addShared, hfind]
          exact ih (holds_tail H) (i + 1) hrest
      | some t =>
          have hself := selfOnly_edges H
          rw [edges_cons_some hfind] at hself ⊢
          have hfirst := hopen m List.mem_cons_self t hfind
          obtain ⟨h₁, hjoin, hstep, hkeys⟩ := Heap.joinFrom_spec
            (H.ready m (by simp)) (H.ready t (by simp [find_mem hfind])) (env i) hfirst
          obtain ⟨h', hloop, hran, hkeys'⟩ := ih (hstep.holds (holds_tail H)) (i + 1)
            ((canShare_step H hfind hfirst hstep.files hkeys).mpr hrest)
          refine ⟨h', ?_, Heap.Ran.cons hself hstep hkeys hran, ?_⟩
          · rw [addShared, hfind]
            simp only [hjoin, ok_bind, hloop]
          · rw [hkeys', hkeys, Absorb.run_cons]

theorem canShare_of_addShared (H : h.Holds (a.members ++ ms)) {env : ℕ → ℕ → HashOrder × Int64}
    {i : ℕ} (hadd : addShared env a fromTime i ms h = .ok h') : CanShare h a fromTime ms := by
  induction ms generalizing h i with
  | nil => exact fun m hm => absurd hm List.not_mem_nil
  | cons m ms ih =>
      rw [addShared] at hadd
      cases hfind : a.find m.locator with
      | none =>
          rw [hfind] at hadd
          intro m' hm' t ht
          rcases List.mem_cons.mp hm' with rfl | hm'
          · rw [hfind] at ht
            cases ht
          · exact ih (holds_tail H) hadd m' hm' t ht
      | some t =>
          rw [hfind] at hadd
          obtain ⟨h₁, hjoin, hloop⟩ := exists_of_bind hadd
          have Hm := H.ready m (by simp)
          have Ht := H.ready t (by simp [find_mem hfind])
          have hfirst := Heap.opens_of_joinFrom Hm Ht hjoin
          obtain ⟨h₂, hjoin', hstep, hkeys⟩ := Heap.joinFrom_spec Hm Ht (env i) hfirst
          obtain rfl : h₂ = h₁ := Except.ok.inj (hjoin'.symm.trans hjoin)
          have hrest := (canShare_step H hfind hfirst hstep.files hkeys).mp
            (ih (hstep.holds (holds_tail H)) hloop)
          intro m' hm' t' ht'
          rcases List.mem_cons.mp hm' with rfl | hm'
          · rw [hfind] at ht'
            obtain rfl := Option.some.inj ht'
            exact hfirst
          · exact hrest m' hm' t' ht'

theorem subFrom_spec (H : h.Holds (a.members ++ ms)) (now : ℕ → ℕ → Int64) (i : ℕ)
    (hself : ∀ m ∈ ms, a.find m.locator = some m → h.keys m.reader = ∅) :
    ∃ h', subFrom now a i ms h = .ok h' ∧ Heap.Ran h h' (a.edges ms) ∧
      h'.keys = Absorb.run (· \ ·) h.keys (a.edges ms) := by
  induction ms generalizing h i with
  | nil => exact ⟨h, rfl, Heap.Ran.refl h, rfl⟩
  | cons m ms ih =>
      cases hfind : a.find m.locator with
      | none =>
          rw [edges_cons_none hfind, subFrom, hfind]
          exact ih (holds_tail H) (i + 1) fun m' hm' => hself m' (List.mem_cons_of_mem m hm')
      | some t =>
          have honly := selfOnly_edges H
          rw [edges_cons_some hfind] at honly ⊢
          have hm : m ∈ a.members ++ m :: ms := by simp
          have ht : t ∈ a.members ++ m :: ms := by simp [find_mem hfind]
          obtain ⟨h₁, hleave, hstep, hkeys⟩ := Heap.disjoinFrom_spec (H.ready m hm) (H.ready t ht)
            (now i) fun heq => hself m List.mem_cons_self (H.single m hm t ht heq ▸ hfind)
          obtain ⟨h', hloop, hran, hkeys'⟩ := ih (hstep.holds (holds_tail H)) (i + 1)
            fun m' hm' hfind' => by
              have hempty := hself m' (List.mem_cons_of_mem m hm') hfind'
              rw [hkeys]
              by_cases heq : m'.reader = t.reader
              · rw [heq, Absorb.step_target (e := ⟨m.reader, t.reader⟩), ← heq, hempty]
                exact Set.empty_sdiff _
              · rw [Absorb.step_of_ne heq, hempty]
          refine ⟨h', ?_, Heap.Ran.cons honly hstep hkeys hran, ?_⟩
          · rw [subFrom, hfind]
            simp only [hleave, ok_bind, hloop]
          · rw [hkeys', hkeys, Absorb.run_cons]

/-! ## The loop over the indices -/

/-- The members for which the second loop makes readers: those that are not shared, until `n`
shared ones have been passed. -/
def visited (shared : Member → Bool) : ℕ → List Member → List Member
  | 0, _ => []
  | _ + 1, [] => []
  | n + 1, m :: ms => if shared m then visited shared n ms else m :: visited shared (n + 1) ms

/-- The members that are pushed for them; their readers are allocated one after another. -/
def placed (next : ℕ) (vs : List Member) : List Member :=
  vs.mapIdx fun j m => ⟨m.locator, next + j⟩

theorem mem_placed {next : ℕ} {vs : List Member} :
    m ∈ placed next vs ↔ ∃ j v, vs[j]? = some v ∧ m = ⟨v.locator, next + j⟩ := by
  rw [placed, List.mem_mapIdx]
  constructor
  · rintro ⟨j, hj, rfl⟩
    exact ⟨j, vs[j], List.getElem?_eq_getElem hj, rfl⟩
  · rintro ⟨j, v, hj, rfl⟩
    obtain ⟨hlt, rfl⟩ := List.getElem?_eq_some_iff.mp hj
    exact ⟨j, hlt, rfl⟩

theorem mem_of_mem_visited {shared : Member → Bool} {n : ℕ} (hm : m ∈ visited shared n ms) :
    m ∈ ms ∧ shared m = false := by
  induction ms generalizing n with
  | nil => cases n <;> simp [visited] at hm
  | cons m' ms ih =>
      cases n with
      | zero => simp [visited] at hm
      | succ n =>
          rw [visited] at hm
          split at hm
          · exact (ih hm).imp_left (List.mem_cons_of_mem m')
          · rename_i hshared
            rcases List.mem_cons.mp hm with rfl | hm
            · exact ⟨List.mem_cons_self, by simpa using hshared⟩
            · exact (ih hm).imp_left (List.mem_cons_of_mem m')

/-- `h'` has new readers, which have joined what those of `vs` have joined. -/
structure Grown (h h' : Heap) (vs : List Member) : Prop where
  files : h'.files = h.files
  next : h'.next = h.next + vs.length
  old : ∀ r < h.next, h'.reader r = h.reader r
  new : ∀ j v, vs[j]? = some v →
    Reader.Ready (h'.reader (h.next + j)) ∧ h'.keys (h.next + j) = h.keys v.reader

/-- What a new reader needs. -/
def CanOpen (h : Heap) (fromTime : Int64) (vs : List Member) : Prop :=
  ∀ v ∈ vs, ∀ k ∈ h.keys v.reader, Opens (h.files v.locator k) k fromTime

/-- A new reader that joins what the reader of `m` has joined. -/
theorem alloc_spec (hbound : m.reader < h.next) (hready : Reader.Ready (h.reader m.reader))
    (env : ℕ → HashOrder × Int64)
    (hopen : ∀ k ∈ h.keys m.reader, Opens (h.files m.locator k) k fromTime) :
    ∃ h', h.alloc.joinFrom env fromTime m ⟨m.locator, h.next⟩ = .ok h' ∧ Grown h h' [m] := by
  have hsource : h.alloc.reader m.reader = h.reader m.reader :=
    Function.update_of_ne (Nat.ne_of_lt hbound) _ _
  have hnew : h.alloc.reader h.next = Reader.make true false := Function.update_self _ _ _
  obtain ⟨h', hjoin, hstep, hkeys⟩ := @Heap.joinFrom_spec h.alloc m ⟨m.locator, h.next⟩ fromTime
    (by rwa [hsource]) (by rw [hnew]; exact Reader.Ready.make) env fun k hk => by
      rw [Heap.keys, hsource] at hk
      exact Or.inr (hopen k hk)
  refine ⟨h', hjoin, hstep.files, hstep.next, fun r hr => ?_, fun j v hj => ?_⟩
  · rw [hstep.other r (Nat.ne_of_lt hr)]
    exact Function.update_of_ne (Nat.ne_of_lt hr) _ _
  · obtain ⟨hlt, rfl⟩ := List.getElem?_eq_some_iff.mp hj
    obtain rfl : j = 0 := by simpa using hlt
    refine ⟨hstep.ready, ?_⟩
    rw [hkeys, Nat.add_zero, Absorb.step_target (e := ⟨m.reader, h.next⟩)]
    simp [Heap.keys, hsource, hnew, Reader.make, Reader.keys]

theorem Grown.cons {h₁ : Heap} {v : Member} {vs : List Member} (hfirst : Grown h h₁ [v])
    (hrest : Grown h₁ h' vs) (hbound : ∀ v ∈ vs, v.reader < h.next) : Grown h h' (v :: vs) := by
  have hnext : h₁.next = h.next + 1 := hfirst.next
  refine ⟨hrest.files.trans hfirst.files, ?_, fun r hr => ?_, fun j w hj => ?_⟩
  · rw [hrest.next, hnext, List.length_cons]
    omega
  · rw [hrest.old r (by omega), hfirst.old r hr]
  · cases j with
    | zero =>
        obtain ⟨hready, hkeys⟩ := hfirst.new 0 w (by simpa using hj)
        rw [Nat.add_zero] at hready hkeys ⊢
        have hold := hrest.old h.next (by omega)
        rw [hold, Heap.keys, hold]
        exact ⟨hready, hkeys⟩
    | succ j =>
        obtain ⟨hready, hkeys⟩ := hrest.new j w (by simpa using hj)
        rw [hnext, Nat.add_assoc, Nat.add_comm 1] at hready hkeys
        refine ⟨hready, hkeys.trans ?_⟩
        rw [Heap.keys, hfirst.old w.reader (hbound w (List.mem_of_getElem? (by simpa using hj)))]
        rfl

/-- The second loop, when `n` more indices are in its bound. -/
theorem addRest_spec {shared : Member → Bool} (env : ℕ → ℕ → HashOrder × Int64) {i n : ℕ}
    (hlen : a.members.length = i + n) (hbound : ∀ m ∈ ms, m.reader < h.next)
    (hready : ∀ m ∈ ms, Reader.Ready (h.reader m.reader)) (hcount : n ≤ ms.countP shared)
    (hopen : CanOpen h fromTime (visited shared n ms)) :
    ∃ h', addRest env shared fromTime i ms (h, a) =
        .ok (h', { a with members := a.members ++ placed h.next (visited shared n ms) }) ∧
      Grown h h' (visited shared n ms) := by
  induction ms generalizing h a i n with
  | nil =>
      obtain rfl : n = 0 := Nat.le_zero.mp hcount
      refine ⟨h, ?_, rfl, rfl, fun _ _ => rfl, fun j v hj => ?_⟩
      · simp [addRest, hlen, visited, placed]
      · simp [visited] at hj
  | cons m ms ih =>
      have hbound' : ∀ m' ∈ ms, m'.reader < h.next :=
        fun m' hm' => hbound m' (List.mem_cons_of_mem m hm')
      have hready' : ∀ m' ∈ ms, Reader.Ready (h.reader m'.reader) :=
        fun m' hm' => hready m' (List.mem_cons_of_mem m hm')
      cases n with
      | zero =>
          refine ⟨h, ?_, rfl, rfl, fun _ _ => rfl, fun j v hj => ?_⟩
          · simp [addRest, hlen, visited, placed]
          · simp [visited] at hj
      | succ n =>
          have hlt : i < a.members.length := by omega
          rw [addRest, if_pos hlt]
          cases hshared : shared m with
          | true =>
              simp only [visited, hshared, if_true] at hopen ⊢
              rw [List.countP_cons, hshared] at hcount
              exact ih (by omega) hbound' hready' (by simpa using hcount) hopen
          | false =>
              simp only [visited, hshared, Bool.false_eq_true, if_false] at hopen ⊢
              rw [List.countP_cons, hshared] at hcount
              obtain ⟨h₁, hjoin, hnew⟩ := alloc_spec (hbound m List.mem_cons_self)
                (hready m List.mem_cons_self) (env i) (hopen m List.mem_cons_self)
              have hnext : h₁.next = h.next + 1 := hnew.next
              have hsub : ∀ v ∈ visited shared (n + 1) ms, v.reader < h.next :=
                fun v hv => hbound' v (mem_of_mem_visited hv).1
              obtain ⟨h', hloop, hgrown⟩ := @ih h₁
                { a with members := a.members ++ [⟨m.locator, h.next⟩] } (i + 1) (n + 1)
                (by simp; omega) (fun m' hm' => by have := hbound' m' hm'; omega)
                (fun m' hm' => by rw [hnew.old _ (hbound' m' hm')]; exact hready' m' hm')
                (by simpa using hcount) fun v hv k hk => by
                  rw [Heap.keys, hnew.old _ (hsub v hv)] at hk
                  rw [hnew.files]
                  exact hopen v (List.mem_cons_of_mem m hv) k hk
              refine ⟨h', ?_, hnew.cons hgrown hsub⟩
              rw [hjoin, ok_bind, hloop, hnext]
              simp [placed, List.mapIdx_cons, Nat.add_assoc, Nat.add_comm 1]

/-- The second loop completes only so. -/
theorem of_addRest {shared : Member → Bool} {env : ℕ → ℕ → HashOrder × Int64} {i n : ℕ}
    {r : Heap × Operand} (hlen : a.members.length = i + n) (hbound : ∀ m ∈ ms, m.reader < h.next)
    (hready : ∀ m ∈ ms, Reader.Ready (h.reader m.reader))
    (hadd : addRest env shared fromTime i ms (h, a) = .ok r) :
    n ≤ ms.countP shared ∧ CanOpen h fromTime (visited shared n ms) := by
  induction ms generalizing h a i n with
  | nil =>
      rw [addRest] at hadd
      split at hadd
      · cases hadd
      · obtain rfl : n = 0 := by omega
        exact ⟨Nat.zero_le _, fun v hv => absurd hv List.not_mem_nil⟩
  | cons m ms ih =>
      have hbound' : ∀ m' ∈ ms, m'.reader < h.next :=
        fun m' hm' => hbound m' (List.mem_cons_of_mem m hm')
      have hready' : ∀ m' ∈ ms, Reader.Ready (h.reader m'.reader) :=
        fun m' hm' => hready m' (List.mem_cons_of_mem m hm')
      cases n with
      | zero => exact ⟨Nat.zero_le _, fun v hv => absurd hv List.not_mem_nil⟩
      | succ n =>
          have hlt : i < a.members.length := by omega
          rw [addRest, if_pos hlt] at hadd
          rw [List.countP_cons]
          cases hshared : shared m with
          | true =>
              rw [if_pos hshared] at hadd
              obtain ⟨hcount, hopen⟩ := ih (n := n) (by omega) hbound' hready' hadd
              simp only [visited, hshared, if_true]
              exact ⟨by omega, hopen⟩
          | false =>
              rw [if_neg (by simp [hshared])] at hadd
              obtain ⟨h₁, hjoin, hloop⟩ := exists_of_bind hadd
              have hm := hbound m List.mem_cons_self
              have hsource : h.alloc.reader m.reader = h.reader m.reader :=
                Function.update_of_ne (Nat.ne_of_lt hm) _ _
              have hnew : h.alloc.reader h.next = Reader.make true false :=
                Function.update_self _ _ _
              have hfirst : ∀ k ∈ h.keys m.reader, Opens (h.files m.locator k) k fromTime := by
                intro k hk
                have hopens := @Heap.opens_of_joinFrom h.alloc h₁ m ⟨m.locator, h.next⟩ fromTime
                  (by rw [hsource]; exact hready m List.mem_cons_self)
                  (by rw [hnew]; exact Reader.Ready.make) (env i) hjoin k
                  (by rwa [Heap.keys, hsource])
                refine hopens.resolve_left fun hk => ?_
                simp [Heap.keys, hnew, Reader.make, Reader.keys] at hk
              obtain ⟨h₂, hjoin', hgrown⟩ := alloc_spec hm (hready m List.mem_cons_self) (env i)
                hfirst
              obtain rfl : h₂ = h₁ := Except.ok.inj (hjoin'.symm.trans hjoin)
              have hnext : h₂.next = h.next + 1 := hgrown.next
              obtain ⟨hcount, hopen⟩ := ih (n := n + 1) (by simp; omega)
                (fun m' hm' => by have := hbound' m' hm'; omega)
                (fun m' hm' => by rw [hgrown.old _ (hbound' m' hm')]; exact hready' m' hm') hloop
              simp only [visited, hshared, Bool.false_eq_true, if_false]
              refine ⟨by omega, fun v hv k hk => ?_⟩
              rcases List.mem_cons.mp hv with rfl | hv
              · exact hfirst k hk
              · have hold := hgrown.old _ (hbound' v (mem_of_mem_visited hv).1)
                rw [← hgrown.files]
                exact hopen v hv k (by rwa [Heap.keys, hold])

end Operand

end Kungfu.Yijinjing
