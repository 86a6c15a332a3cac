import Kungfu.Logic.Run
import Kungfu.Wingchun.Parallel

/-!
# What stays frozen

What a book gives back when an order ends is what the order has left.  If the messages about an order
never say that it has something left, the book keeps frozen what the order input froze, whatever
other orders do meanwhile.
-/

namespace Kungfu.Wingchun

open Longfist TradingData Outcome Logic

/-! ## Orders of which nothing is left -/

namespace Volumes

/-- What is frozen is not negative, where it is compared with zero when an order ends. -/
def Unfloored (offset : Offset) (v : Volumes) : Prop :=
  match offset with
  | .Open | .CloseToday => True
  | .Close | .CloseYesterday => 0 ≤ v.frozenTotal ∧ 0 ≤ v.frozenYesterday

instance (v : Volumes) : ∀ offset, Decidable (Unfloored offset v)
  | .Open | .CloseToday => isTrue trivial
  | .Close | .CloseYesterday => inferInstanceAs (Decidable (_ ∧ _))

/-- An order that ends gives back nothing if it has nothing left. -/
theorem apply_order_of_left_zero {offset : Offset} {order : Order Details} {v : Volumes}
    (hleft : order.volumeLeft = 0) (h : Unfloored offset v) : apply offset (.order order) v = v := by
  have hzero : order.volumeLeft.toInt = 0 := by rw [hleft]; rfl
  by_cases hfinal : isFinalStatus order.status
  · simp only [apply, hfinal, if_true, hzero]
    cases offset with
    | Open => rfl
    | CloseToday => simp only [unfreezeToday, sub_zero, ite_self]
    | _ =>
        obtain ⟨htotal, hyesterday⟩ := h
        simp only [unfreeze, sub_zero, max_eq_left htotal, max_eq_left hyesterday]
  · simp only [apply, hfinal, Bool.false_eq_true, if_false]

end Volumes

/-- Messages that do not end an order, or say that nothing is left of it. -/
def Exhausted : TradingData → Prop
  | .order o => isFinalStatus o.status → o.volumeLeft = 0
  | _ => False

/-- An order that ends is one of futures, and changes no position whose frozen volumes are not
negative. -/
def Unfloored (method : Method) (data : TradingData) (book : AccountBook) : Prop :=
  match data with
  | .order o =>
      isFinalStatus o.status → method = .future ∧
        let offset := decidedOffset book.holdings data
        ∀ direction ∈ (getDirection data.instrumentType data.side offset).toOption,
          Volumes.Unfloored offset
            (book.holdings (positionKey direction data.exchangeId data.instrumentId))
  | _ => True

instance (method : Method) (book : AccountBook) : ∀ data, Decidable (Unfloored method data book)
  | .order o =>
      have (offset : Offset) : Decidable (∀ direction ∈
          (getDirection o.instrumentType o.side offset).toOption, Volumes.Unfloored offset
            (book.holdings (positionKey direction o.exchangeId o.instrumentId))) :=
        Option.decidableForallMem (p := fun direction => Volumes.Unfloored offset
          (book.holdings (positionKey direction o.exchangeId o.instrumentId))) _
      inferInstanceAs (Decidable (_ → _ ∧ _))
  | .orderInput _ | .trade _ => isTrue trivial

namespace Book

variable {id : UInt64} {d : ℚ} {n : PositionKey → ℤ} {b b' b₁ c c' : AccountBook}
  {market : Market} {method : Method} {updateTime : Int64} {u : Update} {us : List Update}

open FutureAccountingMethod

theorem like_applyFinalOrder (market : Market) {key : PositionKey} {offset : Offset}
    {order : Order Details} {s : Slice key} (hfinal : isFinalStatus order.status)
    (hleft : order.volumeLeft = 0)
    (h : Volumes.Unfloored offset (Volumes.ofPosition s.position)) :
    s.Like 0 0 (effect market 0 (.order order) offset s) := by
  have hvolumes := ofPosition_effect market s 0 (.order order) offset
  rw [Volumes.apply_order_of_left_zero hleft h] at hvolumes
  have hzero : order.volumeLeft.toInt = 0 := by rw [hleft]; rfl
  refine ⟨?_, Stake.like_zero_iff.mpr ?_⟩
  · simp only [effect, hfinal, if_true]
    cases offset <;>
      refine ⟨?_, ?_, ?_, rfl, rfl⟩ <;>
      simp [applyFinalOrder, freezeMargin, marginFor, hzero]
  · simp only [Stake.ofPosition, hvolumes]
    simp only [effect, hfinal, if_true]
    cases offset <;> simp [applyFinalOrder, Position.unfreeze, Position.unfreezeToday]

/-- Messages about an order that give nothing back change nothing but what is known of it. -/
theorem idle_applyAndUpdate_of_exhausted {data : TradingData} (hexhausted : Exhausted data)
    (h : Unfloored method data b)
    (hok : b.applyAndUpdate market method updateTime data = .ok b₁) : Idle data.orderId b b₁ := by
  cases data with
  | orderInput _ | trade _ => exact hexhausted.elim
  | order order =>
      by_cases hfinal : isFinalStatus order.status
      · obtain ⟨rfl, hfrozen⟩ := h hfinal
        have hleft := hexhausted hfinal
        obtain ⟨direction₀, -, hok⟩ := exists_of_bind hok
        obtain ⟨b₂, hposition, hok⟩ := exists_of_bind hok
        obtain ⟨b₃, happly, hok⟩ := exists_of_bind hok
        cases hok
        have hidle₂ : Idle order.orderId b b₂ := idle_getPosition _ hposition
        have hemplace : Idle order.orderId b (b₂.emplaceOrder order) :=
          hidle₂.trans (idle_emplaceOrder b₂ order)
        simp only [Method.apply, applyOrder_of_final hfinal 0] at happly
        obtain ⟨direction, b₄, hdirection, hidle₄, rfl⟩ :=
          exists_of_onOffsetPosition order.orderId happly
        have hsame : Idle order.orderId b b₄ := hemplace.trans hidle₄
        have hholdings : (b₂.emplaceOrder order).holdings = b.holdings := hemplace.holdings_eq
        rw [hholdings] at hdirection ⊢
        have hunfloored := hfrozen direction (by rw [hdirection]; rfl)
        have hvolumes : Volumes.ofPosition
            (b₄.slice direction order.exchangeId order.instrumentId).position = b.holdings
              (positionKey direction order.exchangeId order.instrumentId) := by
          rw [← volumes_stake, ← hsame.stake_eq, ← ofPosition_position]
          rfl
        have hslice := (Idle.refl order.orderId b₄).onSlice_right
          (like_applyFinalOrder market hfinal hleft (hvolumes ▸ hunfloored))
        refine (hsame.trans hslice).trans (idle_finish ?_)
        rintro _ ⟨⟩
        rfl
      · exact idle_applyAndUpdate hfinal hok

end Book

/-! ## Updates besides -/

/-- An update that leaves alone what an order froze: if it is about another order, what that gives
back is frozen besides. -/
def Update.Leaves (id : UInt64) (n : PositionKey → ℤ) (book : AccountBook) (u : Update) : Prop :=
  match Method.ofInstrumentType u.data.instrumentType with
  | none => True
  | some method =>
      if u.data.orderId = id then Unfloored method u.data book else Book.Backs n method u.data book

instance (id : UInt64) (n : PositionKey → ℤ) (book : AccountBook) (u : Update) :
    Decidable (u.Leaves id n book) :=
  match h : Method.ofInstrumentType u.data.instrumentType with
  | none => isTrue (by simp only [Update.Leaves, h])
  | some method => decidable_of_iff
      (if u.data.orderId = id then Unfloored method u.data book else Book.Backs n method u.data book)
      (by simp only [Update.Leaves, h])

namespace Book

variable {id : UInt64} {d : ℚ} {n : PositionKey → ℤ} {b b' b₁ c c' : AccountBook}
  {market : Market} {updateTime : Int64} {us : List Update}

/-- What is frozen besides stays so over updates of one book, and those that the other book gets. -/
theorem Parallel.applyUpdates (h : Parallel id d n b b')
    (hexhausted : ∀ u ∈ us, u.data.orderId = id → Exhausted u.data)
    (hleaves : AlongM (Book.applyUpdate market) (Update.Leaves id n) b' us)
    (hother : b.applyUpdates market (us.filter fun u => u.data.orderId ≠ id) = .ok c)
    (hok : b'.applyUpdates market us = .ok c') : Parallel id d n c c' := by
  induction us generalizing b b' with
  | nil =>
      cases hother
      cases hok
      exact h
  | cons u us ih =>
      obtain ⟨hhere, hrest⟩ := hleaves
      have hexhausted' : ∀ u ∈ us, u.data.orderId = id → Exhausted u.data :=
        fun u hu => hexhausted u (List.mem_cons_of_mem _ hu)
      rw [Book.applyUpdates, List.foldlM_cons] at hok
      obtain ⟨b₁', hu, hok⟩ := exists_of_bind hok
      rw [hu] at hrest
      by_cases hid : u.data.orderId = id
      · -- the other book does not get it
        rw [List.filter_cons_of_neg (by simp [hid])] at hother
        refine ih (h.trans ?_) hexhausted' hrest hother hok
        unfold Book.applyUpdate at hu
        unfold Update.Leaves at hhere
        cases hmethod : Method.ofInstrumentType u.data.instrumentType with
        | none =>
            rw [hmethod] at hu
            cases hu
            exact Idle.refl id b'
        | some method =>
            simp only [hmethod, if_pos hid] at hu hhere
            exact hid ▸
              idle_applyAndUpdate_of_exhausted (hexhausted u List.mem_cons_self hid) hhere hu
      · rw [List.filter_cons_of_pos (by simp [hid]), Book.applyUpdates, List.foldlM_cons] at hother
        obtain ⟨b₁, hu', hother⟩ := exists_of_bind hother
        refine ih ?_ hexhausted' hrest hother hok
        unfold Book.applyUpdate at hu hu'
        unfold Update.Leaves at hhere
        cases hmethod : Method.ofInstrumentType u.data.instrumentType with
        | none =>
            rw [hmethod] at hu hu'
            cases hu
            cases hu'
            exact h
        | some method =>
            simp only [hmethod, if_neg hid] at hu hu' hhere
            exact h.applyAndUpdate hid hhere _ _ hu' hu

/-! ### The order input -/

open FutureAccountingMethod

/-- The margin that an order input freezes. -/
def marginFrozen (market : Market) (input : OrderInput Details) (book : AccountBook) : ℚ :=
  let offset := decidedOffset book.holdings (.orderInput input)
  match getDirection input.instrumentType input.side offset with
  | .ok direction =>
      if offset = .Open then
        marginFor (getInstrumentContractMultiplierAndMarginRatio market
          (hashInstrument input.exchangeId input.instrumentId) direction) input.frozenPrice
          input.volume.toInt
      else 0
  | .error _ => 0

/-- The volume that an order input freezes. -/
def volumeFrozen (input : OrderInput Details) (book : AccountBook) : PositionKey → ℤ :=
  let offset := decidedOffset book.holdings (.orderInput input)
  match getDirection input.instrumentType input.side offset with
  | .ok direction => Function.update 0 (positionKey direction input.exchangeId input.instrumentId)
      (if offset = .Open then 0 else input.volume.toInt)
  | .error _ => 0

theorem like_applyInput {key : PositionKey} {offset : Offset} {input : OrderInput Details}
    {s : Slice key} (hvolume : 0 < input.volume.toInt) :
    s.Like
      (if offset = .Open then marginFor (getInstrumentContractMultiplierAndMarginRatio market
        (hashInstrument input.exchangeId input.instrumentId) key.direction) input.frozenPrice
        input.volume.toInt else 0)
      (if offset = .Open then 0 else input.volume.toInt) (applyInput market input offset s) := by
  have hvolumes := ofPosition_effect market s 0 (.orderInput input) offset
  simp only [effect] at hvolumes
  cases offset with
  | Open =>
      refine ⟨⟨rfl, rfl, rfl, rfl, rfl⟩, Stake.like_zero_iff.mpr ?_⟩
      simp only [applyInput, Stake.ofPosition_updatePosition]
  | _ =>
      refine ⟨⟨(sub_zero _).symm, (add_zero _).symm, (add_zero _).symm, rfl, rfl⟩, ?_, ?_, ?_⟩
      · simp only [Stake.ofPosition, hvolumes, reduceCtorEq, if_false]
        exact ⟨hvolume.le, rfl, rfl, rfl, fun h => absurd h hvolume.ne'⟩
      · simp [applyInput, Stake.ofPosition, Position.freeze, Position.freezeToday]
      · simp [applyInput, Stake.ofPosition, Position.freeze, Position.freezeToday]

/-- What an order input freezes is all that it changes. -/
theorem parallel_applyAndUpdate_orderInput {input : OrderInput Details}
    (hvolume : 0 < input.volume.toInt)
    (hok : b.applyAndUpdate market .future updateTime (.orderInput input) = .ok b₁) :
    Parallel id (marginFrozen market input b) (volumeFrozen input b) b b₁ := by
  obtain ⟨direction₀, -, hok⟩ := exists_of_bind hok
  obtain ⟨b₂, hposition, hok⟩ := exists_of_bind hok
  obtain ⟨b₃, happly, hok⟩ := exists_of_bind hok
  cases hok
  have hidle₂ : Idle id b b₂ := idle_getPosition _ hposition
  obtain ⟨direction, b₄, hdirection, hidle₄, rfl⟩ := exists_of_onOffsetPosition id
    (f := fun offset _ s => applyInput market input offset s) happly
  rw [hidle₂.holdings_eq] at hdirection ⊢
  have hinput : Parallel id (marginFrozen market input b) (volumeFrozen input b) b₄
      (b₄.onSlice direction input.exchangeId input.instrumentId
        (applyInput market input (decidedOffset b.holdings (.orderInput input)))) := by
    simp only [marginFrozen, volumeFrozen]
    have hdirection : getDirection input.instrumentType input.side
        (decidedOffset b.holdings (.orderInput input)) = .ok direction := hdirection
    simp only [hdirection]
    exact Parallel.onSlice_right (Idle.refl id b₄) (like_applyInput hvolume)
  have hback : Idle id b₄ b := Idle.symm (hidle₂.trans hidle₄)
  refine (hinput.left hback).trans (idle_finish ?_)
  rintro _ ⟨⟩

/-- An order input that freezes nothing: it opens, for no margin. -/
def FreezesNothing (market : Market) (input : OrderInput Details) (book : AccountBook) : Prop :=
  decidedOffset book.holdings (.orderInput input) = .Open ∧ marginFrozen market input book = 0

instance (input : OrderInput Details) (book : AccountBook) :
    Decidable (FreezesNothing market input book) :=
  inferInstanceAs (Decidable (_ ∧ _))

/-- The direction of an order input that is applied. -/
theorem exists_direction_of_orderInput {input : OrderInput Details}
    (hok : b.applyAndUpdate market .future updateTime (.orderInput input) = .ok b₁) :
    ∃ direction, getDirection input.instrumentType input.side
      (decidedOffset b.holdings (.orderInput input)) = .ok direction := by
  obtain ⟨direction₀, -, hok⟩ := exists_of_bind hok
  obtain ⟨b₂, hposition, hok⟩ := exists_of_bind hok
  obtain ⟨b₃, happly, -⟩ := exists_of_bind hok
  have hidle₂ : Idle 0 b b₂ := idle_getPosition _ hposition
  obtain ⟨direction, b₄, hdirection, -⟩ := exists_of_onOffsetPosition 0
    (f := fun offset _ s => applyInput market input offset s) happly
  rw [hidle₂.holdings_eq] at hdirection
  exact ⟨direction, hdirection⟩

theorem freezesNothing_iff {input : OrderInput Details} {direction : Direction}
    (hvolume : 0 < input.volume.toInt)
    (hdirection : getDirection input.instrumentType input.side
      (decidedOffset b.holdings (.orderInput input)) = .ok direction) :
    FreezesNothing market input b ↔ marginFrozen market input b = 0 ∧ volumeFrozen input b = 0 := by
  simp only [FreezesNothing, marginFrozen, volumeFrozen, hdirection]
  by_cases hopen : decidedOffset b.holdings (.orderInput input) = .Open
  · simp only [hopen, if_true, true_and]
    refine (and_iff_left ?_).symm
    exact Function.update_eq_iff.mpr ⟨rfl, fun _ _ => rfl⟩
  · simp only [hopen, if_false, false_and, true_and, false_iff]
    intro hzero
    have hhere := congrFun hzero (positionKey direction input.exchangeId input.instrumentId)
    rw [Function.update_self] at hhere
    exact hvolume.ne' hhere

end Book

/-- A book has what another has available and frozen. -/
structure Undone (book book' : AccountBook) : Prop where
  avail : book'.state.asset.avail = book.state.asset.avail
  frozenCash : book'.state.asset.frozenCash = book.state.asset.frozenCash
  frozenMargin : book'.state.asset.frozenMargin = book.state.asset.frozenMargin
  frozenTotal : ∀ key, (book'.holdings key).frozenTotal = (book.holdings key).frozenTotal
  frozenYesterday : ∀ key,
    (book'.holdings key).frozenYesterday = (book.holdings key).frozenYesterday

theorem Book.Parallel.undone_iff {id : UInt64} {d : ℚ} {n : PositionKey → ℤ} {b b' : AccountBook}
    (h : Book.Parallel id d n b b') : Undone b b' ↔ d = 0 ∧ n = 0 := by
  have hvolumes (key : PositionKey) : (b.holdings key).Like (n key) (b'.holdings key) := by
    rw [← Book.volumes_stake, ← Book.volumes_stake]
    exact (h.stake key).volumes
  constructor
  · intro hundone
    have havail := hundone.avail
    rw [h.funds.avail] at havail
    refine ⟨by linarith, funext fun key => ?_⟩
    have htotal := hundone.frozenTotal key
    rw [(hvolumes key).frozenTotal] at htotal
    exact add_eq_left.mp htotal
  · rintro ⟨rfl, rfl⟩
    refine ⟨?_, ?_, ?_, fun key => ?_, fun key => (hvolumes key).frozenYesterday rfl⟩
    · rw [h.funds.avail, sub_zero]
    · rw [h.funds.frozenCash, add_zero]
    · rw [h.funds.frozenMargin, add_zero]
    · rw [(hvolumes key).frozenTotal]
      exact add_zero _

end Kungfu.Wingchun
