import Kungfu.Yijinjing.Operands

/-!
# The set algebra of assembles

The channels of an assemble are the triples of locator, location and dest that its readers
have joined.  `+=` and `-=` are meant as union and difference of channels that leave the other
operand alone.  They are, in the cases that `Composable` lists.  The second loop of `+=`
stops at the wrong bound: it loses locators of the other operand that stand behind too many
shared ones, and reads past its end when there are too few of them.  Both operators look for
the first member of a locator only, so that more than one reader of a locator goes wrong, and
`-=` cannot take a reader's journals from itself.
-/

namespace Kungfu.Yijinjing

open Outcome

namespace Operand

/-- The channels of an assemble: locator, location and dest. -/
def channels (h : Heap) (a : Operand) : Set (ℕ × Key) :=
  {c | ∃ m ∈ a.members, m.locator = c.1 ∧ c.2 ∈ h.keys m.reader}

/-- The readers of an assemble are as they were. -/
def Untouched (b : Operand) (h h' : Heap) : Prop :=
  ∀ m ∈ b.members, h'.reader m.reader = h.reader m.reader

/-- `a += b` comes to `a₁`, the union. -/
structure Adds (env : ℕ → ℕ → HashOrder × Int64) (h : Heap) (a b : Operand) (h₁ : Heap)
    (a₁ : Operand) : Prop where
  completes : addAssign env h a b = .ok (h₁, a₁)
  union : a₁.channels h₁ = a.channels h ∪ b.channels h
  untouched : b.Untouched h h₁

/-- `a -= b` leaves the channels `rest`. -/
structure Subtracts (now : ℕ → ℕ → Int64) (h : Heap) (a b : Operand) (rest : Set (ℕ × Key))
    (h₁ : Heap) : Prop where
  completes : subAssign now h a b = .ok h₁
  difference : a.channels h₁ = rest
  untouched : b.Untouched h h₁

/-- The operators are union and difference, alone and one after the other. -/
structure Algebra (env : ℕ → ℕ → HashOrder × Int64) (now now' : ℕ → ℕ → Int64) (h : Heap)
    (a b : Operand) : Prop where
  adds : ∃ h₁ a₁, Adds env h a b h₁ a₁ ∧
    ∃ h₂, Subtracts now h₁ a₁ b (a.channels h \ b.channels h) h₂
  subtracts : ∃ h₁, Subtracts now' h a b (a.channels h \ b.channels h) h₁

/-- The members of `b` for which `a += b` makes readers. -/
abbrev added (a b : Operand) : List Member := visited a.shares a.members.length b.members

/-- Readers that are not the first of `a` for their locator hold nothing that `b` holds. -/
def FirstOnly (h : Heap) (a b : Operand) : Prop :=
  ∀ m ∈ a.members, a.find m.locator ≠ some m → ∀ k ∈ h.keys m.reader, (m.locator, k) ∉ b.channels h

/-- Where `b` holds a reader that is the first of `a` for its locator, it has no channel. -/
def OwnEmpty (h : Heap) (a b : Operand) : Prop :=
  ∀ m ∈ b.members, a.find m.locator = some m →
    ∀ m' ∈ b.members, m'.locator = m.locator → h.keys m'.reader = ∅

/-- When the operators are union and difference. -/
structure Composable (h : Heap) (a b : Operand) : Prop where
  /-- What the readers of shared locators have to join opens. -/
  share : CanShare h a b.fromTime b.members
  /-- What the new readers have to join opens. -/
  opens : CanOpen h b.fromTime (a.added b)
  /-- `b` has as many members with a locator of `a` as `a` has members. -/
  count : a.members.length ≤ b.members.countP a.shares
  /-- What is not visited is held under the same locator by something visited. -/
  covered : ∀ m ∈ b.members, a.shares m = false → ∀ k ∈ h.keys m.reader,
    ∃ v ∈ a.added b, v.locator = m.locator ∧ k ∈ h.keys v.reader
  /-- Of the visited members of one locator only the first has channels. -/
  once : (a.added b).Pairwise fun v w => v.locator = w.locator → h.keys w.reader = ∅
  first : a.FirstOnly h b
  own : a.OwnEmpty h b

/-! ## Members and channels -/

variable {h h' h₁ : Heap} {a b : Operand} {m : Member} {l : ℕ} {k : Key}

theorem mem_fed_edges {ms : List Member} {r : ℕ} : k ∈ Absorb.fed h.keys (a.edges ms) r ↔
    ∃ m ∈ ms, ∃ t, a.find m.locator = some t ∧ t.reader = r ∧ k ∈ h.keys m.reader := by
  constructor
  · rintro ⟨e, he, rfl, hk⟩
    obtain ⟨m, hm, t, hfind, rfl⟩ := mem_edges.mp he
    exact ⟨m, hm, t, hfind, rfl, hk⟩
  · rintro ⟨m, hm, t, hfind, rfl, hk⟩
    exact ⟨⟨m.reader, t.reader⟩, mem_edges.mpr ⟨m, hm, t, hfind, rfl⟩, rfl, hk⟩

/-- What a loop over the members of `b` brings to a member of `a`. -/
theorem mem_fed_member (H : h.Holds (a.members ++ b.members)) (hm : m ∈ a.members) :
    k ∈ Absorb.fed h.keys (a.edges b.members) m.reader ↔
      a.find m.locator = some m ∧ (m.locator, k) ∈ b.channels h := by
  rw [mem_fed_edges]
  constructor
  · rintro ⟨m', hm', t, hfind, hreader, hk⟩
    obtain ⟨ht, hlocator⟩ := find_mem hfind
    obtain rfl : t = m :=
      H.single t (List.mem_append_left _ ht) m (List.mem_append_left _ hm) hreader
    exact ⟨hlocator ▸ hfind, m', hm', hlocator.symm, hk⟩
  · rintro ⟨hfind, m', hm', hlocator, hk⟩
    exact ⟨m', hm', m, hlocator ▸ hfind, rfl, hk⟩

/-- Nothing is brought to the readers of `b`, where they are readers of `a` at all. -/
theorem fed_eq_empty (H : h.Holds (a.members ++ b.members)) (hown : a.OwnEmpty h b)
    (hm : m ∈ b.members) : Absorb.fed h.keys (a.edges b.members) m.reader = ∅ := by
  refine Set.eq_empty_of_forall_notMem fun k hfed => ?_
  obtain ⟨m', hm', t, hfind, hreader, hk⟩ := mem_fed_edges.mp hfed
  obtain ⟨ht, hlocator⟩ := find_mem hfind
  obtain rfl : t = m :=
    H.single t (List.mem_append_left _ ht) m (List.mem_append_right _ hm) hreader
  rw [hown t hm (hlocator ▸ hfind) m' hm' hlocator.symm] at hk
  exact hk

theorem Untouched.channels_eq (hb : b.Untouched h h') : b.channels h' = b.channels h := by
  ext c
  refine exists_congr fun m => and_congr_right fun hm => and_congr_right fun _ => ?_
  rw [Heap.keys, hb m hm]
  rfl

/-! ## The difference -/

/-- What `-=` leaves. -/
structure Reduced (h h' : Heap) (a b : Operand) : Prop where
  members : ∀ m ∈ a.members,
    h'.keys m.reader = h.keys m.reader \ Absorb.fed h.keys (a.edges b.members) m.reader
  idle : ∀ r, Absorb.fed h.keys (a.edges b.members) r = ∅ → h'.reader r = h.reader r

theorem subAssign_spec (H : h.Holds (a.members ++ b.members)) (now : ℕ → ℕ → Int64)
    (hown : a.OwnEmpty h b) : ∃ h', subAssign now h a b = .ok h' ∧ Reduced h h' a b := by
  obtain ⟨h', hloop, hran, hkeys⟩ := subFrom_spec H now 0
    fun m hm hfind => hown m hm hfind m hm rfl
  refine ⟨h', hloop, fun m _ => ?_, hran.idle⟩
  rw [hkeys]
  refine Absorb.run_diff (selfOnly_edges H) (fun e he heq => ?_) m.reader
  obtain ⟨m, hm, t, hfind, rfl⟩ := mem_edges.mp he
  obtain rfl : m = t := H.single m (List.mem_append_right _ hm) t
    (List.mem_append_left _ (find_mem hfind).1) heq
  exact hown m hm hfind m hm rfl

theorem Reduced.untouched (H : h.Holds (a.members ++ b.members)) (hown : a.OwnEmpty h b)
    (hred : Reduced h h' a b) : b.Untouched h h' :=
  fun _ hm => hred.idle _ (fed_eq_empty H hown hm)

/-- `-=` is the difference if nothing is to be taken from a further reader of a locator. -/
theorem Reduced.difference_iff (H : h.Holds (a.members ++ b.members)) (hred : Reduced h h' a b) :
    a.channels h' = a.channels h \ b.channels h ↔ a.FirstOnly h b := by
  have hmem : ∀ m ∈ a.members, ∀ k, k ∈ h'.keys m.reader ↔
      k ∈ h.keys m.reader ∧ ¬ (a.find m.locator = some m ∧ (m.locator, k) ∈ b.channels h) := by
    intro m hm k
    rw [hred.members m hm, Set.mem_sdiff, mem_fed_member H hm]
  constructor
  · intro heq m hm hne k hk hb
    have hleft : (m.locator, k) ∈ a.channels h' :=
      ⟨m, hm, rfl, (hmem m hm k).mpr ⟨hk, fun h => hne h.1⟩⟩
    rw [heq] at hleft
    exact hleft.2 hb
  · intro hfirst
    ext ⟨l, k⟩
    constructor
    · rintro ⟨m, hm, rfl, hk⟩
      obtain ⟨hk, hnot⟩ := (hmem m hm k).mp hk
      refine ⟨⟨m, hm, rfl, hk⟩, fun hb => ?_⟩
      by_cases hfind : a.find m.locator = some m
      · exact hnot ⟨hfind, hb⟩
      · exact hfirst m hm hfind k hk hb
    · rintro ⟨⟨m, hm, rfl, hk⟩, hb⟩
      exact ⟨m, hm, rfl, (hmem m hm k).mpr ⟨hk, fun h => hb h.2⟩⟩

/-! ## The union -/

/-- `a` with the new members of `a += b`. -/
def grown (h : Heap) (a b : Operand) : Operand :=
  { a with members := a.members ++ placed h.next (a.added b) }

/-- What `+=` leaves. -/
structure Extended (h h₁ : Heap) (a b : Operand) : Prop where
  holds : h₁.Holds ((a.grown h b).members ++ b.members)
  members : ∀ m ∈ a.members,
    h₁.keys m.reader = h.keys m.reader ∪ Absorb.fed h.keys (a.edges b.members) m.reader
  new : ∀ j v, (a.added b)[j]? = some v → h₁.keys (h.next + j) = h.keys v.reader
  idle : ∀ r < h.next, Absorb.fed h.keys (a.edges b.members) r = ∅ → h₁.reader r = h.reader r

/-- The first loop does not touch the readers that the second one reads. -/
theorem fed_of_not_shares (H : h.Holds (a.members ++ b.members)) (hm : m ∈ b.members)
    (hshares : a.shares m = false) : Absorb.fed h.keys (a.edges b.members) m.reader = ∅ := by
  refine Set.eq_empty_of_forall_notMem fun k hfed => ?_
  obtain ⟨m', hm', t, hfind, hreader, hk⟩ := mem_fed_edges.mp hfed
  have ht := (find_mem hfind).1
  obtain rfl : t = m :=
    H.single t (List.mem_append_left _ ht) m (List.mem_append_right _ hm) hreader
  rw [shares_iff.mpr ⟨t, ht, rfl⟩] at hshares
  cases hshares

theorem canOpen_congr {fromTime : Int64} {vs : List Member} (hfiles : h'.files = h.files)
    (hkeys : ∀ v ∈ vs, h'.reader v.reader = h.reader v.reader) :
    CanOpen h' fromTime vs ↔ CanOpen h fromTime vs := by
  refine forall₂_congr fun v hv => ?_
  rw [Heap.keys, hkeys v hv, hfiles]
  rfl

theorem holds_grown {h₂ : Heap} (H : h.Holds (a.members ++ b.members)) (hnext : h₂.next = h.next)
    (hready : ∀ r, Reader.Ready (h.reader r) → Reader.Ready (h₂.reader r))
    (hgrown : Grown h₂ h₁ (a.added b)) : h₁.Holds ((a.grown h b).members ++ b.members) := by
  have hcases : ∀ m ∈ (a.grown h b).members ++ b.members, m ∈ a.members ++ b.members ∨
      ∃ j v, (a.added b)[j]? = some v ∧ m = ⟨v.locator, h.next + j⟩ := by
    intro m hm
    rw [grown, List.append_assoc, List.mem_append, List.mem_append] at hm
    rcases hm with hm | hm | hm
    · exact Or.inl (List.mem_append_left _ hm)
    · exact Or.inr (mem_placed.mp hm)
    · exact Or.inl (List.mem_append_right _ hm)
  refine ⟨fun m hm => ?_, fun m hm => ?_, fun m hm m' hm' heq => ?_⟩
  · rw [hgrown.next, hnext]
    rcases hcases m hm with hm | ⟨j, v, hj, rfl⟩
    · exact Nat.lt_add_right _ (H.bound m hm)
    · exact Nat.add_lt_add_left (List.getElem?_eq_some_iff.mp hj).1 h.next
  · rcases hcases m hm with hm | ⟨j, v, hj, rfl⟩
    · rw [hgrown.old _ (hnext ▸ H.bound m hm)]
      exact hready _ (H.ready m hm)
    · exact hnext ▸ (hgrown.new j v hj).1
  · rcases hcases m hm with hm | ⟨j, v, hj, rfl⟩
    · rcases hcases m' hm' with hm' | ⟨j', v', hj', rfl⟩
      · exact H.single m hm m' hm' heq
      · exact absurd (H.bound m hm) (by simp [heq])
    · rcases hcases m' hm' with hm' | ⟨j', v', hj', rfl⟩
      · exact absurd (H.bound m' hm') (by simp [← heq])
      · obtain rfl : j = j' := Nat.add_left_cancel heq
        obtain rfl : v = v' := Option.some.inj (hj.symm.trans hj')
        rfl

theorem addAssign_spec (H : h.Holds (a.members ++ b.members)) (env : ℕ → ℕ → HashOrder × Int64)
    (hshare : CanShare h a b.fromTime b.members) (hopens : CanOpen h b.fromTime (a.added b))
    (hcount : a.members.length ≤ b.members.countP a.shares) :
    ∃ h₁, addAssign env h a b = .ok (h₁, a.grown h b) ∧ Extended h h₁ a b := by
  obtain ⟨h₂, hfirst, hran, hkeys⟩ := addShared_spec H env 0 hshare
  have hbound : ∀ m ∈ b.members, m.reader < h.next :=
    fun m hm => H.bound m (List.mem_append_right _ hm)
  have hsame : ∀ v ∈ a.added b, h₂.reader v.reader = h.reader v.reader := fun v hv =>
    hran.idle _ (fed_of_not_shares H (mem_of_mem_visited hv).1 (mem_of_mem_visited hv).2)
  have hready : ∀ m ∈ b.members, Reader.Ready (h₂.reader m.reader) :=
    fun m hm => hran.ready _ (H.ready m (List.mem_append_right _ hm))
  obtain ⟨h₁, hsecond, hgrown⟩ := addRest_spec (a := a) env (Nat.zero_add _).symm
    (fun m hm => hran.next ▸ hbound m hm) hready hcount
    ((canOpen_congr hran.files hsame).mpr hopens)
  rw [hran.next] at hsecond
  refine ⟨h₁, by rw [addAssign, hfirst, ok_bind, hsecond]; rfl,
    holds_grown H hran.next hran.ready hgrown, fun m hm => ?_, fun j v hj => ?_,
    fun r hr hfed => ?_⟩
  · have hold := hgrown.old m.reader (hran.next ▸ H.bound m (List.mem_append_left _ hm))
    rw [Heap.keys, hold, ← Absorb.run_union (selfOnly_edges H), ← hkeys]
    rfl
  · rw [← hran.next, (hgrown.new j v hj).2, Heap.keys, hsame v (List.mem_of_getElem? hj)]
    rfl
  · rw [hgrown.old r (hran.next ▸ hr), hran.idle r hfed]

theorem of_addAssign (H : h.Holds (a.members ++ b.members)) {env : ℕ → ℕ → HashOrder × Int64}
    {r : Heap × Operand} (hadd : addAssign env h a b = .ok r) :
    CanShare h a b.fromTime b.members ∧ CanOpen h b.fromTime (a.added b) ∧
      a.members.length ≤ b.members.countP a.shares := by
  obtain ⟨h₂, hfirst, hsecond⟩ := exists_of_bind hadd
  have hshare := canShare_of_addShared H hfirst
  obtain ⟨h₃, hfirst', hran, -⟩ := addShared_spec H env 0 hshare
  obtain rfl : h₃ = h₂ := Except.ok.inj (hfirst'.symm.trans hfirst)
  obtain ⟨hcount, hopens⟩ := of_addRest (Nat.zero_add _).symm
    (fun m hm => hran.next ▸ H.bound m (List.mem_append_right _ hm))
    (fun m hm => hran.ready _ (H.ready m (List.mem_append_right _ hm))) hsecond
  refine ⟨hshare, (canOpen_congr hran.files fun v hv => ?_).mp hopens, hcount⟩
  exact hran.idle _ (fed_of_not_shares H (mem_of_mem_visited hv).1 (mem_of_mem_visited hv).2)

/-- What the first loop brings comes from members with a locator of `a`, what the second one
brings from the others. -/
theorem Extended.mem_channels (H : h.Holds (a.members ++ b.members)) (hext : Extended h h₁ a b) :
    (l, k) ∈ (a.grown h b).channels h₁ ↔ (l, k) ∈ a.channels h ∨
      (∃ m ∈ b.members, a.shares m = true ∧ m.locator = l ∧ k ∈ h.keys m.reader) ∨
      ∃ v ∈ a.added b, v.locator = l ∧ k ∈ h.keys v.reader := by
  constructor
  · rintro ⟨m, hm, rfl, hk⟩
    rcases List.mem_append.mp hm with hm | hm
    · rw [hext.members m hm] at hk
      rcases hk with hk | hk
      · exact Or.inl ⟨m, hm, rfl, hk⟩
      · obtain ⟨-, m', hm', hlocator, hk⟩ := (mem_fed_member H hm).mp hk
        exact Or.inr (Or.inl ⟨m', hm', shares_iff.mpr ⟨m, hm, hlocator.symm⟩, hlocator, hk⟩)
    · obtain ⟨j, v, hj, rfl⟩ := mem_placed.mp hm
      exact Or.inr (Or.inr ⟨v, List.mem_of_getElem? hj, rfl, hext.new j v hj ▸ hk⟩)
  · rintro (⟨m, hm, rfl, hk⟩ | ⟨m, hm, hshares, rfl, hk⟩ | ⟨v, hv, rfl, hk⟩)
    · exact ⟨m, List.mem_append_left _ hm, rfl, hext.members m hm ▸ Or.inl hk⟩
    · obtain ⟨t, hfind⟩ := Option.isSome_iff_exists.mp hshares
      obtain ⟨ht, hlocator⟩ := find_mem hfind
      refine ⟨t, List.mem_append_left _ ht, hlocator, hext.members t ht ▸ Or.inr ?_⟩
      exact mem_fed_edges.mpr ⟨m, hm, t, hfind, rfl, hk⟩
    · obtain ⟨j, hj⟩ := List.mem_iff_getElem?.mp hv
      exact ⟨⟨v.locator, h.next + j⟩, List.mem_append_right _ (mem_placed.mpr ⟨j, v, hj, rfl⟩), rfl,
        (hext.new j v hj).symm ▸ hk⟩

/-- `+=` is the union if nothing that it does not visit is missing. -/
theorem Extended.union_iff (H : h.Holds (a.members ++ b.members)) (hext : Extended h h₁ a b) :
    (a.grown h b).channels h₁ = a.channels h ∪ b.channels h ↔
      ∀ m ∈ b.members, a.shares m = false → ∀ k ∈ h.keys m.reader,
        ∃ v ∈ a.added b, v.locator = m.locator ∧ k ∈ h.keys v.reader := by
  constructor
  · intro heq m hm hshares k hk
    have hnot : ∀ t ∈ a.members, t.locator ≠ m.locator := fun t ht hlocator => by
      rw [shares_iff.mpr ⟨t, ht, hlocator⟩] at hshares
      cases hshares
    have hunion : (m.locator, k) ∈ (a.grown h b).channels h₁ := heq ▸ Or.inr ⟨m, hm, rfl, hk⟩
    rcases (hext.mem_channels H).mp hunion with
      ⟨t, ht, hlocator, -⟩ | ⟨m', -, hm', hlocator, -⟩ | hv
    · exact absurd hlocator (hnot t ht)
    · obtain ⟨t, ht, hlocator'⟩ := shares_iff.mp hm'
      exact absurd (hlocator'.trans hlocator) (hnot t ht)
    · exact hv
  · intro hcovered
    ext ⟨l, k⟩
    rw [hext.mem_channels H, Set.mem_union]
    refine or_congr_right ⟨?_, ?_⟩
    · rintro (⟨m, hm, -, hlocator, hk⟩ | ⟨v, hv, hlocator, hk⟩)
      · exact ⟨m, hm, hlocator, hk⟩
      · exact ⟨v, (mem_of_mem_visited hv).1, hlocator, hk⟩
    · rintro ⟨m, hm, rfl, hk⟩
      cases hshares : a.shares m with
      | true => exact Or.inl ⟨m, hm, hshares, rfl, hk⟩
      | false => exact Or.inr (hcovered m hm hshares k hk)

theorem Extended.untouched (H : h.Holds (a.members ++ b.members)) (hown : a.OwnEmpty h b)
    (hext : Extended h h₁ a b) : b.Untouched h h₁ :=
  fun m hm => hext.idle _ (H.bound m (List.mem_append_right _ hm)) (fed_eq_empty H hown hm)

/-! ## The difference after the union -/

theorem find_grown (hm : m ∈ a.members) : (a.grown h b).find m.locator = a.find m.locator := by
  have hsome := shares_iff.mpr ⟨m, hm, rfl⟩
  rw [shares, find] at hsome
  rw [find, grown, List.find?_append, find, Option.or_of_isSome hsome]

/-- A new member is found for its locator if it is the first new one. -/
theorem find_placed {j : ℕ} {v : Member} (hj : (a.added b)[j]? = some v) :
    (a.grown h b).find v.locator = some ⟨v.locator, h.next + j⟩ ↔
      ∀ i w, i < j → (a.added b)[i]? = some w → w.locator ≠ v.locator := by
  have hshares := (mem_of_mem_visited (List.mem_of_getElem? hj)).2
  have hnone : a.find v.locator = none := by simpa [shares] using hshares
  rw [find] at hnone
  rw [find, grown, List.find?_append, hnone, Option.none_or, List.find?_eq_some_iff_getElem]
  constructor
  · rintro ⟨-, i₀, hi₀, hget, hearlier⟩ i w hij hi
    have hi₀j : i₀ = j := by
      have hreader := congrArg Member.reader hget
      simpa [placed] using hreader
    subst hi₀j
    obtain ⟨hlt, rfl⟩ := List.getElem?_eq_some_iff.mp hi
    simpa [placed] using hearlier i hij
  · intro hearlier
    obtain ⟨hlt, rfl⟩ := List.getElem?_eq_some_iff.mp hj
    refine ⟨by simp, j, by simpa [placed] using hlt, by simp [placed], fun i hij => ?_⟩
    have hne := hearlier i _ hij (List.getElem?_eq_getElem (hij.trans hlt))
    simpa [placed] using hne

theorem Extended.ownEmpty (H : h.Holds (a.members ++ b.members)) (hext : Extended h h₁ a b)
    (hown : a.OwnEmpty h b) : (a.grown h b).OwnEmpty h₁ b := by
  intro m hm hfind m' hm' hlocator
  have hbound := H.bound m (List.mem_append_right _ hm)
  have hin : m ∈ a.members := by
    rcases List.mem_append.mp (find_mem hfind).1 with hin | hin
    · exact hin
    · obtain ⟨j, v, -, rfl⟩ := mem_placed.mp hin
      exact absurd hbound (by simp)
  rw [find_grown hin] at hfind
  rw [Heap.keys, hext.untouched H hown m' hm']
  exact hown m hm hfind m' hm' hlocator

/-- After `+=` the further readers of a locator are those of `a` and the later new ones. -/
theorem Extended.firstOnly_iff (H : h.Holds (a.members ++ b.members)) (hext : Extended h h₁ a b)
    (hown : a.OwnEmpty h b) : (a.grown h b).FirstOnly h₁ b ↔ a.FirstOnly h b ∧
      (a.added b).Pairwise fun v w => v.locator = w.locator → h.keys w.reader = ∅ := by
  have hbase : ∀ m ∈ a.members, a.find m.locator ≠ some m → h₁.keys m.reader = h.keys m.reader := by
    intro m hm hne
    rw [hext.members m hm]
    refine Set.union_eq_self_of_subset_right fun k hk => ?_
    exact absurd ((mem_fed_member H hm).mp hk).1 hne
  rw [FirstOnly, (hext.untouched H hown).channels_eq]
  constructor
  · intro hfirst
    refine ⟨fun m hm hne k hk => ?_, List.pairwise_iff_getElem.mpr fun i j hi hj hij hlocator => ?_⟩
    · refine hfirst m (List.mem_append_left _ hm) (find_grown hm ▸ hne) k ?_
      rwa [hbase m hm hne]
    · refine Set.eq_empty_of_forall_notMem fun k hk => ?_
      have hget := List.getElem?_eq_getElem hj
      have hb := (mem_of_mem_visited (List.getElem_mem hj)).1
      refine hfirst ⟨(a.added b)[j].locator, h.next + j⟩
        (List.mem_append_right _ (mem_placed.mpr ⟨j, _, hget, rfl⟩)) (fun hfind => ?_) k
        (by rwa [hext.new j _ hget]) ⟨_, hb, rfl, hk⟩
      exact (find_placed hget).mp hfind i _ hij (List.getElem?_eq_getElem hi) hlocator
  · rintro ⟨hfirst, honce⟩ m hm hne k hk
    rcases List.mem_append.mp hm with hm | hm
    · rw [find_grown hm] at hne
      exact hfirst m hm hne k (hbase m hm hne ▸ hk)
    · obtain ⟨j, v, hj, rfl⟩ := mem_placed.mp hm
      obtain ⟨i, hrest⟩ := not_forall.mp fun hall => hne ((find_placed hj).mpr hall)
      obtain ⟨w, hij, hi, hlocator⟩ : ∃ w, i < j ∧ (a.added b)[i]? = some w ∧
          w.locator = v.locator := by
        simpa using hrest
      obtain ⟨hlt, rfl⟩ := List.getElem?_eq_some_iff.mp hi
      obtain ⟨hlt', rfl⟩ := List.getElem?_eq_some_iff.mp hj
      rw [hext.new j _ hj, List.pairwise_iff_getElem.mp honce i j hlt hlt' hij hlocator] at hk
      exact absurd hk (Set.notMem_empty k)

/-! ## When the operators are union and difference -/

/-- A shared reader that is to come out of `-=` as it was is empty, and one that is to come out
of `+=` as it was takes nothing in. -/
theorem ownEmpty_of_untouched (H : h.Holds (a.members ++ b.members)) (hext : Extended h h₁ a b)
    (hadd : b.Untouched h h₁) {h₃ : Heap} (hsub : b.Untouched h h₃)
    (hdiff : a.channels h₃ = a.channels h \ b.channels h) : a.OwnEmpty h b := by
  intro m hm hfind m' hm' hlocator
  have hin := (find_mem hfind).1
  have hempty : h.keys m.reader = ∅ := by
    refine Set.eq_empty_of_forall_notMem fun k hk => ?_
    have hleft : (m.locator, k) ∈ a.channels h₃ := ⟨m, hin, rfl, by rwa [Heap.keys, hsub m hm]⟩
    rw [hdiff] at hleft
    exact hleft.2 ⟨m, hm, rfl, hk⟩
  refine Set.eq_empty_of_forall_notMem fun k hk => ?_
  have htaken : k ∈ h₁.keys m.reader := by
    rw [hext.members m hin]
    exact Or.inr ((mem_fed_member H hin).mpr ⟨hfind, m', hm', hlocator, hk⟩)
  rw [Heap.keys, hadd m hm] at htaken
  exact absurd htaken (Set.eq_empty_iff_forall_notMem.mp hempty k)

/-- What `-=` leaves of the union is the difference exactly if it is that of the union. -/
theorem difference_congr {X : Set (ℕ × Key)} (hb : b.Untouched h h₁)
    (hunion : (a.grown h b).channels h₁ = a.channels h ∪ b.channels h) :
    X = (a.grown h b).channels h₁ \ b.channels h₁ ↔ X = a.channels h \ b.channels h := by
  rw [hb.channels_eq, hunion, Set.union_sdiff_right]

/-- The operators are union and difference of channels exactly under the condition. -/
theorem algebra_iff (env : ℕ → ℕ → HashOrder × Int64) (now now' : ℕ → ℕ → Int64)
    (H : h.Holds (a.members ++ b.members)) : Algebra env now now' h a b ↔ Composable h a b := by
  constructor
  · rintro ⟨⟨h₁, a₁, Hadd, h₂, Hafter⟩, h₃, Hsub⟩
    obtain ⟨hshare, hopens, hcount⟩ := of_addAssign H Hadd.completes
    obtain ⟨h', hadd, hext⟩ := addAssign_spec H env hshare hopens hcount
    obtain ⟨rfl, rfl⟩ := Prod.mk.inj (Except.ok.inj (hadd.symm.trans Hadd.completes))
    have hown := ownEmpty_of_untouched H hext Hadd.untouched Hsub.untouched Hsub.difference
    obtain ⟨h₃', hsub, hred⟩ := subAssign_spec H now' hown
    obtain rfl : h₃' = h₃ := Except.ok.inj (hsub.symm.trans Hsub.completes)
    obtain ⟨h₂', hafter, hred'⟩ := subAssign_spec hext.holds now (hext.ownEmpty H hown)
    obtain rfl : h₂' = h₂ := Except.ok.inj (hafter.symm.trans Hafter.completes)
    have hlast := (hred'.difference_iff hext.holds).mp
      ((difference_congr Hadd.untouched Hadd.union).mpr Hafter.difference)
    exact ⟨hshare, hopens, hcount, (hext.union_iff H).mp Hadd.union,
      ((hext.firstOnly_iff H hown).mp hlast).2, (hred.difference_iff H).mp Hsub.difference, hown⟩
  · intro C
    obtain ⟨h₁, hadd, hext⟩ := addAssign_spec H env C.share C.opens C.count
    have hunion := (hext.union_iff H).mpr C.covered
    have huntouched := hext.untouched H C.own
    have hown := hext.ownEmpty H C.own
    obtain ⟨h₂, hafter, hred'⟩ := subAssign_spec hext.holds now hown
    obtain ⟨h₃, hsub, hred⟩ := subAssign_spec H now' C.own
    have hlast := (hred'.difference_iff hext.holds).mpr
      ((hext.firstOnly_iff H C.own).mpr ⟨C.first, C.once⟩)
    exact ⟨⟨h₁, _, ⟨hadd, hunion, huntouched⟩, h₂, hafter,
        (difference_congr huntouched hunion).mp hlast, hred'.untouched hext.holds hown⟩,
      h₃, hsub, (hred.difference_iff H).mpr C.first, hred.untouched H C.own⟩

/-! ## Two assembles of one journal each -/

/-- A reader that stands in its only journal. -/
def oneJournal (k : Key) : Reader :=
  ⟨true, false, none, [(k, { Reader.fresh true k with cursor := some ⟨1, 0, 0⟩ })]⟩

theorem oneJournal_ready (k : Key) : Reader.Ready (oneJournal k) :=
  ⟨⟨by simp [oneJournal, Reader.keys], fun _ h => absurd h (by simp [oneJournal]), rfl⟩, rfl,
    fun e he => by
      obtain rfl := List.mem_singleton.mp he
      exact ⟨_, rfl⟩⟩

/-- The readers 0 and 1, with the journals 3 to 2 and 1 to 2; every page file is as in `d`. -/
def twoReaders (d : Dir) : Heap :=
  ⟨fun _ _ => d, fun r => oneJournal (if r = 0 then ⟨3, 2⟩ else ⟨1, 2⟩), 2⟩

theorem twoReaders_holds (d : Dir) (l l' : ℕ) : (twoReaders d).Holds [⟨l, 0⟩, ⟨l', 1⟩] := by
  refine ⟨fun m hm => ?_, fun m _ => oneJournal_ready _, fun m hm m' hm' heq => ?_⟩
  · simp only [List.mem_cons, List.not_mem_nil, or_false] at hm
    rcases hm with rfl | rfl <;> simp [twoReaders]
  · simp only [List.mem_cons, List.not_mem_nil, or_false] at hm hm'
    rcases hm with rfl | rfl <;> rcases hm' with rfl | rfl <;> simp_all

theorem mem_keys_twoReaders {d : Dir} {r : ℕ} :
    k ∈ (twoReaders d).keys r ↔ k = if r = 0 then ⟨3, 2⟩ else ⟨1, 2⟩ := by
  simp [Heap.keys, twoReaders, oneJournal, Reader.keys]

/-- The journal that a writer leaves, which opens. -/
theorem exists_opens : ∃ d, Incarnation.run (fun _ => 0) .checked 1 2 (Dir.empty 200)
    (.single 10 10 [1]) = .ok d ∧ Opens d ⟨1, 2⟩ 0 := by
  have hrun : okAnd (Incarnation.run (fun _ => 0) .checked 1 2 (Dir.empty 200) (.single 10 10 [1]))
      (fun d => okAnd (Journal.seekToTime (d, Reader.fresh true ⟨1, 2⟩) 0) fun _ => true) =
        true := by
    decide +kernel
  obtain ⟨d, hd, hseek⟩ := exists_of_okAnd hrun
  obtain ⟨s, hs, -⟩ := exists_of_okAnd hseek
  exact ⟨d, hd, s, hs⟩

/-- Two assembles of the same locator. -/
theorem algebra_same_locator : ∃ d, Incarnation.run (fun _ => 0) .checked 1 2 (Dir.empty 200)
      (.single 10 10 [1]) = .ok d ∧
    Algebra (fun _ _ => (.front, 30)) (fun _ _ => 30) (fun _ _ => 30) (twoReaders d)
      ⟨[⟨0, 0⟩], 0⟩ ⟨[⟨0, 1⟩], 0⟩ := by
  obtain ⟨d, hd, hopens⟩ := exists_opens
  refine ⟨d, hd, (algebra_iff _ _ _ (twoReaders_holds d 0 0)).mpr
    ⟨?_, ?_, by decide, ?_, ?_, ?_, ?_⟩⟩
  · intro m hm t _ k hk
    obtain rfl := List.mem_singleton.mp hm
    obtain rfl := mem_keys_twoReaders.mp hk
    exact Or.inr hopens
  · exact fun v hv => absurd hv (by simp [added, visited, shares, find])
  · intro m hm hshares
    obtain rfl := List.mem_singleton.mp hm
    exact absurd hshares (by decide)
  · simp [added, visited, shares, find]
  · intro m hm hne
    obtain rfl := List.mem_singleton.mp hm
    exact absurd rfl hne
  · intro m hm hfind
    obtain rfl := List.mem_singleton.mp hm
    exact absurd hfind (by decide)

/-- Two assembles of different locators: `+=` makes a reader for the second locator, and then
reads a second one that is not there. -/
theorem not_algebra_other_locator : ∃ d, Incarnation.run (fun _ => 0) .checked 1 2 (Dir.empty 200)
      (.single 10 10 [1]) = .ok d ∧
    addAssign (fun _ _ => (.front, 30)) (twoReaders d) ⟨[⟨0, 0⟩], 0⟩ ⟨[⟨1, 1⟩], 0⟩ =
      .error .outOfRange ∧
    ¬ Algebra (fun _ _ => (.front, 30)) (fun _ _ => 30) (fun _ _ => 30) (twoReaders d)
      ⟨[⟨0, 0⟩], 0⟩ ⟨[⟨1, 1⟩], 0⟩ := by
  obtain ⟨d, hd, hopens⟩ := exists_opens
  have H := twoReaders_holds d 0 1
  obtain ⟨h', hjoin, -⟩ := @alloc_spec (twoReaders d) 0 ⟨1, 1⟩ (H.bound _ (by simp))
    (H.ready _ (by simp)) (fun _ => (.front, 30)) fun k hk => by
      obtain rfl := mem_keys_twoReaders.mp hk
      exact hopens
  have hadd : addAssign (fun _ _ => (.front, 30)) (twoReaders d) ⟨[⟨0, 0⟩], 0⟩ ⟨[⟨1, 1⟩], 0⟩ =
      .error .outOfRange := by
    simp only [addAssign, addShared, addRest, find, shares]
    simp [hjoin]
  refine ⟨d, hd, hadd, fun halgebra => ?_⟩
  obtain ⟨h₁, a₁, Hadd, -⟩ := halgebra.adds
  exact absurd Hadd.completes (by simp [hadd])

end Operand

end Kungfu.Yijinjing
