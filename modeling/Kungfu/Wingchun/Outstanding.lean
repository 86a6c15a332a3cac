import Kungfu.Wingchun.Lifecycle

/-!
# What orders still have

At any point of a run an order that was placed has a volume outstanding: what was ordered,
less what was traded, and less what a final order said would not be traded.  It is never
negative, and when the order is through it is zero.
-/

namespace Kungfu.Longfist.TradingData

/-- Volumes are counts: what is traded and what is left are not negative. -/
def Counted : TradingData → Prop
  | orderInput _ => True
  | order o => isFinalStatus o.status → 0 ≤ o.volumeLeft
  | trade t => 0 ≤ t.volume

instance : DecidablePred Counted
  | orderInput _ => isTrue trivial
  | order _ => inferInstanceAs (Decidable (_ → _))
  | trade t => inferInstanceAs (Decidable (0 ≤ t.volume))

def orderInput? : TradingData → Option (OrderInput Details)
  | orderInput i => some i
  | _ => none

end Kungfu.Longfist.TradingData

namespace Kungfu.Wingchun

open Longfist TradingData

/-- The orders that were placed. -/
def ordersPlaced (ms : List TradingData) : List (OrderInput Details) := ms.filterMap orderInput?

/-- The volume that an order still has after some messages. -/
def outstandingVolume (id : UInt64) (ms : List TradingData) : ℤ :=
  Tally.total orderId outstanding id ms

variable {ms done todo rest : List TradingData} {m : TradingData} {input : OrderInput Details}

theorem mem_ordersPlaced {i : OrderInput Details} (h : i ∈ ordersPlaced ms) : .orderInput i ∈ ms := by
  obtain ⟨m, hm, hi⟩ := List.mem_filterMap.mp h
  cases m with
  | orderInput i' =>
      cases hi
      exact hm
  | _ => cases hi

/-- Only the input of an order adds to what the order has. -/
theorem outstanding_nonpos (hcounted : m.Counted) (hinput : m.isOrderInput = false) :
    m.outstanding ≤ 0 := by
  cases m with
  | orderInput i => cases hinput
  | order o =>
      by_cases hfinal : isFinalStatus o.status
      · have hleft := Int64.le_iff_toInt_le.mp (hcounted hfinal)
        simpa [outstanding, hfinal] using hleft
      · simp [outstanding, hfinal]
  | trade t =>
      have hvolume := Int64.le_iff_toInt_le.mp hcounted
      simpa [outstanding] using hvolume

theorem sum_outstanding_nonpos (hcounted : ∀ m ∈ rest, m.Counted)
    (hinput : ∀ m ∈ rest, m.isOrderInput = false) : (rest.map outstanding).sum ≤ 0 := by
  induction rest with
  | nil => exact le_rfl
  | cons m rest ih =>
      have hm := outstanding_nonpos (hcounted m List.mem_cons_self) (hinput m List.mem_cons_self)
      have hrest := ih (fun m' hm' => hcounted m' (List.mem_cons_of_mem m hm'))
        fun m' hm' => hinput m' (List.mem_cons_of_mem m hm')
      rw [List.map_cons, List.sum_cons]
      omega

theorem count_ordersPlaced_eq_countP (id : UInt64) (xs : List TradingData) :
    ((ordersPlaced xs).map (·.orderId)).count id = (messagesOf id xs).countP isOrderInput := by
  induction xs with
  | nil => rfl
  | cons x xs ih =>
      rw [messagesOf, Tally.entries_cons]
      cases x with
      | orderInput i =>
          change ((i :: ordersPlaced xs).map (·.orderId)).count id = _
          rw [List.map_cons, List.count_cons, ih]
          by_cases hid : i.orderId = id <;>
            simp [TradingData.orderId, hid, isOrderInput, List.countP_cons]
      | order o =>
          change ((ordersPlaced xs).map (·.orderId)).count id = _
          rw [ih]
          by_cases hid : o.orderId = id <;> simp [TradingData.orderId, hid, isOrderInput]
      | trade t =>
          change ((ordersPlaced xs).map (·.orderId)).count id = _
          rw [ih]
          by_cases hid : t.orderId = id <;> simp [TradingData.orderId, hid, isOrderInput]

namespace Balanced

/-- Nothing negative is ordered. -/
theorem volume_nonneg (h : Balanced ms) (hcounted : ∀ m ∈ ms, m.Counted)
    (hi : .orderInput input ∈ ms) : 0 ≤ input.volume.toInt := by
  obtain ⟨input', rest, hrest, hlife, heq | hmem⟩ := h.mem_cases hi
  · cases heq
    have hmem : ∀ m ∈ rest, m ∈ ms := by
      intro m hm
      apply ((Tally.mem_entries orderId).mp (?_ : m ∈ messagesOf input.orderId ms)).1
      exact hrest ▸ List.mem_cons_of_mem _ hm
    have hnonpos := sum_outstanding_nonpos (fun m hm => hcounted m (hmem m hm)) hlife.inputOnce
    have hzero := hlife.sum_outstanding_eq
    rw [List.map_cons, List.sum_cons] at hzero
    simp only [outstanding] at hzero hnonpos
    omega
  · cases hlife.inputOnce _ hmem

variable (h : Balanced ms) (hms : ms = done ++ todo)

include h hms

/-- The messages of an order that has started start with its input. -/
theorem exists_split {id : UInt64} (hid : messagesOf id done ≠ []) :
    ∃ input rest, messagesOf id done = .orderInput input :: rest ∧
      Balances input (rest ++ messagesOf id todo) := by
  obtain ⟨m, hm⟩ := List.exists_mem_of_ne_nil _ hid
  obtain ⟨hmem, hmid⟩ := (Tally.mem_entries orderId).mp hm
  obtain ⟨input, rest, hrest, hlife⟩ := h.exists_balances (m := m) (by simp [hms, hmem])
  rw [hmid, hms] at hrest
  change messagesOf id (done ++ todo) = _ at hrest
  have happend : messagesOf id (done ++ todo) = messagesOf id done ++ messagesOf id todo :=
    Tally.entries_append ..
  rw [happend] at hrest
  cases hdone : messagesOf id done with
  | nil => exact absurd hdone hid
  | cons m' rest' =>
      rw [hdone, List.cons_append] at hrest
      obtain ⟨rfl, rfl⟩ := List.cons.inj hrest
      exact ⟨input, rest', rfl, hlife⟩

/-- No order has ever less than nothing. -/
theorem outstandingVolume_nonneg (hcounted : ∀ m ∈ ms, m.Counted) (id : UInt64) :
    0 ≤ outstandingVolume id done := by
  by_cases hid : messagesOf id done = []
  · simp [outstandingVolume, Tally.total, hid]
  · obtain ⟨input, rest, hrest, hlife⟩ := h.exists_split hms hid
    have hzero := hlife.sum_outstanding_eq
    rw [← List.cons_append, ← hrest, List.map_append, List.sum_append] at hzero
    have hnonpos : ((messagesOf id todo).map outstanding).sum ≤ 0 := by
      apply sum_outstanding_nonpos
      · intro m hm
        apply hcounted
        rw [hms]
        exact List.mem_append_right _ ((Tally.mem_entries orderId).mp hm).1
      · intro m hm
        exact hlife.inputOnce m (List.mem_append_right _ hm)
    change 0 ≤ ((messagesOf id done).map outstanding).sum
    omega

/-- Every order was placed once. -/
theorem count_ordersPlaced (id : UInt64) :
    ((ordersPlaced done).map (·.orderId)).count id =
      if messagesOf id done = [] then 0 else 1 := by
  rw [count_ordersPlaced_eq_countP]
  by_cases hid : messagesOf id done = []
  · simp [hid]
  · obtain ⟨input, rest, hrest, hlife⟩ := h.exists_split hms hid
    have hzero : rest.countP isOrderInput = 0 := by
      apply List.countP_eq_zero.mpr
      intro m hm
      simp [hlife.inputOnce m (List.mem_append_left _ hm)]
    rw [if_neg hid, hrest, List.countP_cons, hzero]
    rfl

/-- A sum over messages, by the orders that were placed. -/
theorem sum_eq_sum_ordersPlaced {M : Type} [AddCommMonoid M] (f : TradingData → M) :
    (done.map f).sum = ((ordersPlaced done).map fun i => Tally.total orderId f i.orderId done).sum := by
  have hnodup : ((ordersPlaced done).map (·.orderId)).Nodup := by
    apply List.nodup_iff_count_le_one.mpr
    intro id
    rw [h.count_ordersPlaced hms]
    split <;> omega
  rw [Tally.sum_eq_sum_total orderId f
   , List.sum_toFinset _ hnodup, List.map_map]
  · rfl
  · intro m hm
    have hid : messagesOf m.orderId done ≠ [] :=
      List.ne_nil_of_mem ((Tally.mem_entries orderId).mpr ⟨hm, rfl⟩)
    have hcount := h.count_ordersPlaced hms m.orderId
    rw [if_neg hid] at hcount
    exact List.mem_toFinset.mpr (List.count_pos_iff.mp (by omega))

/-- What is proportional to the outstanding volume of each order adds up, over the orders. -/
theorem sum_eq_mul {R : Type} [Ring R] {f : TradingData → R} (c : OrderInput Details → R)
    (hf : ∀ i, .orderInput i ∈ ms → ∀ m ∈ ms, m.orderId = i.orderId → f m = c i * m.outstanding) :
    (done.map f).sum =
      ((ordersPlaced done).map fun i => c i * (outstandingVolume i.orderId done : ℤ)).sum := by
  have hsub : ∀ m ∈ done, m ∈ ms := fun m hm => by simp [hms, hm]
  rw [h.sum_eq_sum_ordersPlaced hms]
  apply congrArg List.sum
  apply List.map_congr_left
  intro i hi
  exact total_eq_mul fun m hm hid => hf i (hsub _ (mem_ordersPlaced hi)) m (hsub m hm) hid

/-- The outstanding volume of the orders that a property picks. -/
theorem sum_ite_outstanding {p : TradingData → Prop} [DecidablePred p]
    (hp : ∀ m ∈ ms, ∀ m' ∈ ms, m'.orderId = m.orderId → (p m' ↔ p m)) :
    (done.map fun m => if p m then m.outstanding else 0).sum = ((ordersPlaced done).map fun i =>
      if p (.orderInput i) then outstandingVolume i.orderId done else 0).sum := by
  rw [h.sum_eq_mul hms (fun i => if p (.orderInput i) then 1 else 0)]
  · simp only [ite_mul, one_mul, zero_mul, Int.cast_id]
  · intro i hi m hm hid
    simp only [hp _ hi m hm hid, ite_mul, one_mul, zero_mul, Int.cast_id]

/-- What is proportional to the outstanding volume of each order, in one way or more, does not
add up to less than nothing. -/
theorem sum_nonneg (hcounted : ∀ m ∈ ms, m.Counted) {f : TradingData → ℤ}
    (hf : ∀ m ∈ ms, ∃ c : ℤ, 0 ≤ c ∧ ∀ m' ∈ ms, m'.orderId = m.orderId → f m' = c * m'.outstanding) :
    0 ≤ (done.map f).sum := by
  apply Tally.sum_nonneg orderId
  intro m hm
  have hmem : ∀ m' ∈ done, m' ∈ ms := fun m' hm' => by simp [hms, hm']
  obtain ⟨c, hc, hcf⟩ := hf m (hmem m hm)
  rw [total_eq_mul fun m' hm' => hcf m' (hmem m' hm'), Int.cast_id]
  exact mul_nonneg hc (h.outstandingVolume_nonneg hms hcounted m.orderId)

theorem sum_ite_outstanding_nonneg (hcounted : ∀ m ∈ ms, m.Counted) {p : TradingData → Prop}
    [DecidablePred p] (hp : ∀ m ∈ ms, ∀ m' ∈ ms, m'.orderId = m.orderId → (p m' ↔ p m)) :
    0 ≤ (done.map fun m => if p m then m.outstanding else 0).sum := by
  apply h.sum_nonneg hms hcounted
  intro m hm
  refine ⟨if p m then 1 else 0, by split <;> decide, fun m' hm' hid => ?_⟩
  simp only [hp m hm m' hm' hid, ite_mul, one_mul, zero_mul]

omit h hms in
/-- Where every order is through, nothing is left that depends on what it still has. -/
theorem sum_ordersPlaced_eq_zero {R : Type} [AddCommMonoid R] (h : Balanced ms)
    {f : OrderInput Details → R} (hf : ∀ i, outstandingVolume i.orderId ms = 0 → f i = 0) :
    ((ordersPlaced ms).map f).sum = 0 := by
  apply List.sum_eq_zero
  intro x hx
  obtain ⟨i, hi, rfl⟩ := List.mem_map.mp hx
  exact hf i (h.total_outstanding (mem_ordersPlaced hi))

end Balanced

end Kungfu.Wingchun
