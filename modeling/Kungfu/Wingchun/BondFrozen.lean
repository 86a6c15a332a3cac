import Kungfu.Wingchun.StockFrozen
import Kungfu.Logic.Run

/-!
# What positions of convertible bonds freeze

Accounting of bonds overrides how volume is frozen and inherits from accounting of stocks how it is
given back.  An order to sell freezes its volume only if it is there; its trades and its end give
back their volume even if it was not frozen.  And of yesterday's volume at least all of it is frozen
where it was to be at most that.
-/

namespace Kungfu.Wingchun

open Longfist TradingData

/-! ## Volumes -/

namespace Volumes

/-- The volume of an order to sell is there. -/
def Sellable (i : OrderInput Details) (v : Volumes) : Prop :=
  i.side = .Sell ∧ i.volume.toInt ≤ v.volume - v.frozenTotal

instance (i : OrderInput Details) (v : Volumes) : Decidable (Sellable i v) :=
  inferInstanceAs (Decidable (_ ∧ _))

/-- What accounting of bonds freezes. -/
def freezeBond (n : ℤ) (v : Volumes) : Volumes :=
  { v with
    frozenTotal := v.frozenTotal + n
    frozenYesterday := max (v.frozenYesterday + n) v.yesterdayVolume }

/-- What a message does in accounting of bonds. -/
def applyBond : TradingData → Volumes → Volumes
  | .orderInput i, v =>
      if BondAccountingMethod.isConvertibleBond i.instrumentId i.exchangeId then
        if Sellable i v then v.freezeBond i.volume.toInt else v
      else applyStock (.orderInput i) v
  | m, v => applyStock m v

end Volumes

namespace BondAccountingMethod

variable {key : PositionKey} {market : Market} {book : AccountBook} {data : TradingData}
  {direction : Direction}

/-- All that the method changes of the asset and of a position. -/
def effect (market : Market) (frozenPrice : ℚ) (data : TradingData) (s : Slice key) : Slice key :=
  match data with
  | .orderInput input =>
      if isConvertibleBond input.instrumentId input.exchangeId then
        applyConvertibleInput market input s
      else StockAccountingMethod.applyInput market input s
  | data => StockAccountingMethod.effect StockAccountingMethod.stock market frozenPrice data s

/-- On a position that is in the book, accounting of bonds never throws. -/
theorem apply_setPosition
    (hdirection : getDirection data.instrumentType data.side data.offset = .ok direction)
    (p : Position (positionKey direction data.exchangeId data.instrumentId)) :
    Method.bond.apply market (book.setPosition p) data =
      .ok ((book.emplace data).setSlice (effect market
        ((book.emplace data).getFrozenPrice data.orderId) data
        ⟨book.state.asset, book.state.assetMargin, p⟩)) := by
  cases data with
  | orderInput input =>
      simp only [Method.apply, applyOrderInput, effect]
      split
      · exact Book.onPositionFor_setPosition hdirection p (applyConvertibleInput market input)
      · rw [Book.onPositionFor_setPosition hdirection p id, Outcome.ok_bind]
        exact Book.onPositionFor_setPosition hdirection p
          (StockAccountingMethod.applyInput market input)
  | _ => exact Book.apply_stock_setPosition hdirection p

/-- The volumes change as `Volumes.applyBond` says. -/
theorem ofPosition_effect (market : Market) (frozenPrice : ℚ) (m : TradingData) (s : Slice key) :
    Volumes.ofPosition (effect market frozenPrice m s).position =
      Volumes.applyBond m (Volumes.ofPosition s.position) := by
  cases m with
  | orderInput i =>
      simp only [effect, Volumes.applyBond]
      by_cases hbond : isConvertibleBond i.instrumentId i.exchangeId
      · simp only [hbond, if_true, applyConvertibleInput]
        split
        · rename_i hsell
          by_cases hfits : i.volume.toInt ≤ s.position.volume - s.position.frozenTotal
          · rw [if_pos hfits, if_pos ⟨hsell, hfits⟩]
            rfl
          · rw [if_neg hfits, if_neg fun h => hfits h.2]
        · rename_i hbuy
          rw [if_neg fun h => by cases hbuy.symm.trans h.1]
        · rename_i hsell hbuy
          rw [if_neg fun h => hsell h.1]
      · simp only [hbond, Bool.false_eq_true, if_false]
        exact ofPosition_effect_stock market frozenPrice (.orderInput i) s
  | _ => exact ofPosition_effect_stock market frozenPrice _ s

end BondAccountingMethod

namespace Book

theorem tracks_bond : Tracks .bond Volumes.applyBond := by
  intro book book' a h
  obtain ⟨direction, p, book₁, hdirection, hp, happly, rfl⟩ := exists_of_applyAndUpdate h
  rw [BondAccountingMethod.apply_setPosition hdirection p] at happly
  cases happly
  refine ⟨_, by rw [messageKey, hdirection], ?_⟩
  rw [holdings_finish, holdings_setSlice, BondAccountingMethod.ofPosition_effect, hp.ofPosition]
  · rw [holdings_congr (congrArg Account.positions (state_emplace book a.data))]
  · simp [Has]

end Book

/-! ## What is frozen for which orders -/

/-- A position of bonds with the messages that it was given. -/
@[ext]
structure BondState where
  messages : List TradingData
  volumes : Volumes
  /-- The orders whose volume was there when they were placed. -/
  frozen : UInt64 → Bool

/-- Every order to sell is traded or released as a whole. -/
def Settled (ms : List TradingData) : Prop :=
  ∀ i ∈ ordersPlaced ms, i.side = .Sell → outstandingVolume i.orderId ms = 0

instance (ms : List TradingData) : Decidable (Settled ms) := List.decidableBAll _ _

namespace BondState

/-- The volume of the orders to sell that were frozen, as far as it is neither traded nor
released. -/
def frozenOutstanding (s : BondState) : ℤ :=
  ((ordersPlaced s.messages).map fun i =>
    if i.side = .Sell ∧ s.frozen i.orderId then outstandingVolume i.orderId s.messages else 0).sum

/-- What is frozen is what it should be. -/
structure Right (s : BondState) : Prop where
  nonneg : 0 ≤ s.volumes.frozenYesterday
  le_volume : s.volumes.frozenYesterday ≤ s.volumes.yesterdayVolume
  frozenTotal : s.volumes.frozenTotal = s.frozenOutstanding
  settled : Settled s.messages → s.volumes.frozenTotal = 0 ∧ s.volumes.frozenYesterday = 0

/-- A message comes; the input of an order decides whether the order is frozen. -/
def step (s : BondState) (m : TradingData) : BondState where
  messages := s.messages ++ [m]
  volumes := Volumes.applyBond m s.volumes
  frozen :=
    match m with
    | .orderInput i => Function.update s.frozen i.orderId (decide (Volumes.Sellable i s.volumes))
    | _ => s.frozen

/-- A message after which what is frozen is right if it was so before: an order to sell freezes no
more of yesterday's volume than there is, an order that was not frozen gives back nothing, and when
the last order to sell is through it gives back all that is left of yesterday's volume. -/
def Keeps (s : BondState) : TradingData → Prop
  | .orderInput i => Volumes.Sellable i s.volumes →
      s.volumes.frozenYesterday + i.volume.toInt ≤ s.volumes.yesterdayVolume ∧
        (Settled (s.messages ++ [.orderInput i]) → s.volumes.yesterdayVolume = 0)
  | m => m.side = .Sell →
      (s.frozen m.orderId ∨ m.outstanding = 0 ∨ s.volumes.frozenTotal = 0) ∧
        (Settled (s.messages ++ [m]) → s.volumes.frozenYesterday + m.outstanding ≤ 0)

instance (s : BondState) : DecidablePred s.Keeps
  | .orderInput _ => inferInstanceAs (Decidable (_ → _))
  | .order _ => inferInstanceAs (Decidable (_ → _))
  | .trade _ => inferInstanceAs (Decidable (_ → _))

end BondState

/-- Messages of orders that buy or sell convertible bonds. -/
structure BondMessage (m : TradingData) : Prop where
  convertible : BondAccountingMethod.isConvertibleBond m.instrumentId m.exchangeId
  side : m.side = .Buy ∨ m.side = .Sell
  counted : m.Counted

instance : DecidablePred BondMessage := fun m =>
  decidable_of_iff
    (BondAccountingMethod.isConvertibleBond m.instrumentId m.exchangeId = true ∧
      (m.side = .Buy ∨ m.side = .Sell) ∧ m.Counted)
    ⟨fun ⟨h₁, h₂, h₃⟩ => ⟨h₁, h₂, h₃⟩, fun ⟨h₁, h₂, h₃⟩ => ⟨h₁, h₂, h₃⟩⟩

/-- What a message adds to the volume that is frozen, if its order was frozen. -/
def bondShare (frozen : UInt64 → Bool) (m : TradingData) : ℤ :=
  if m.side = .Sell ∧ frozen m.orderId then m.outstanding else 0

section Orders

variable {ms done todo : List TradingData} {m : TradingData} {v : Volumes}
  {frozen : UInt64 → Bool} {i : OrderInput Details}

theorem bondShare_congr (hbalanced : Balanced ms) (frozen : UInt64 → Bool) :
    ∀ m ∈ ms, ∀ m' ∈ ms, m'.orderId = m.orderId →
      (m'.side = .Sell ∧ frozen m'.orderId ↔ m.side = .Sell ∧ frozen m.orderId) := by
  intro m hm m' hm' hid
  obtain ⟨-, -, hside⟩ := hbalanced.agree hm hm' hid
  rw [hside, hid]

theorem sum_bondShare_nonneg (hbalanced : Balanced ms) (hms : ms = done ++ todo)
    (hcounted : ∀ m ∈ ms, m.Counted) : 0 ≤ (done.map (bondShare frozen)).sum :=
  hbalanced.sum_ite_outstanding_nonneg hms hcounted (bondShare_congr hbalanced frozen)

theorem sum_bondShare (hbalanced : Balanced ms) (hms : ms = done ++ todo) :
    (done.map (bondShare frozen)).sum = ((ordersPlaced done).map fun i =>
      if i.side = .Sell ∧ frozen i.orderId then outstandingVolume i.orderId done else 0).sum :=
  hbalanced.sum_ite_outstanding hms (bondShare_congr hbalanced frozen)

/-- The input of an order is its first message. -/
theorem orderId_ne_of_orderInput (hbalanced : Balanced ms)
    (hms : ms = done ++ .orderInput i :: todo) : ∀ m ∈ done, m.orderId ≠ i.orderId := by
  intro m hm hid
  have hne : messagesOf i.orderId done ≠ [] :=
    List.ne_nil_of_mem ((Tally.mem_entries orderId).mpr ⟨hm, hid⟩)
  obtain ⟨input, rest, -, hlife⟩ := hbalanced.exists_split hms hne
  have hagain : .orderInput i ∈ messagesOf i.orderId (.orderInput i :: todo) :=
    (Tally.mem_entries orderId).mpr ⟨List.mem_cons_self, rfl⟩
  cases hlife.inputOnce _ (List.mem_append_right _ hagain)

/-- A message that adds nothing to an order to sell settles none. -/
theorem Settled.of_concat (h : Settled (done ++ [m]))
    (hm : ∀ i ∈ ordersPlaced done, i.side = .Sell → m.orderId = i.orderId → m.outstanding = 0) :
    Settled done := by
  intro i hi hside
  have hmem : i ∈ ordersPlaced (done ++ [m]) := by
    rw [ordersPlaced, List.filterMap_append]
    exact List.mem_append_left _ hi
  have hzero := h i hmem hside
  rw [outstandingVolume, Tally.total_append, Tally.total_cons] at hzero
  by_cases hid : m.orderId = i.orderId
  · simpa [hid, hm i hi hside hid, Tally.total, outstandingVolume] using hzero
  · simpa [hid, Tally.total, outstandingVolume] using hzero

/-- An order that was not frozen has no part in what is frozen. -/
theorem sum_bondShare_eq_zero (hbalanced : Balanced ms) (hms : ms = done ++ todo)
    (hsettled : Settled done) : (done.map (bondShare frozen)).sum = 0 := by
  rw [sum_bondShare hbalanced hms]
  apply List.sum_eq_zero
  intro n hn
  obtain ⟨i, hi, rfl⟩ := List.mem_map.mp hn
  split
  · rename_i hsell
    exact hsettled i hi hsell.1
  · rfl

/-- What the messages of an order to sell give back after its input. -/
theorem applyBond_release (hinput : m.isOrderInput = false) (hside : m.side = .Sell)
    (htotal : 0 ≤ v.frozenTotal) (hyesterday : 0 ≤ v.frozenYesterday) :
    (Volumes.applyBond m v).frozenTotal = max (v.frozenTotal + m.outstanding) 0 ∧
      (Volumes.applyBond m v).frozenYesterday = max (v.frozenYesterday + m.outstanding) 0 ∧
      ((Volumes.applyBond m v).yesterdayVolume = v.yesterdayVolume ∨
        (Volumes.applyBond m v).yesterdayVolume = max (v.yesterdayVolume + m.outstanding) 0) := by
  cases m with
  | orderInput i => cases hinput
  | order o =>
      change o.side = .Sell at hside
      by_cases hfinal : isFinalStatus o.status
      · simp only [Volumes.applyBond, Volumes.applyStock, hfinal, hside, closes, outstanding,
          if_true, and_self]
        exact ⟨rfl, rfl, .inl rfl⟩
      · simp [Volumes.applyBond, Volumes.applyStock, hfinal, outstanding, htotal, hyesterday]
  | trade t =>
      change t.side = .Sell at hside
      simp only [Volumes.applyBond, Volumes.applyStock, hside, closes, outstanding, if_true]
      exact ⟨rfl, rfl, .inr rfl⟩

theorem applyBond_orderInput (hbond : BondMessage (.orderInput i)) :
    Volumes.applyBond (.orderInput i) v =
      if Volumes.Sellable i v then v.freezeBond i.volume.toInt else v :=
  if_pos hbond.convertible

/-- The messages of an order to buy change nothing that is frozen. -/
theorem applyBond_buy (hbond : BondMessage m) (hside : m.side ≠ .Sell) :
    (Volumes.applyBond m v).frozenTotal = v.frozenTotal ∧
      (Volumes.applyBond m v).frozenYesterday = v.frozenYesterday ∧
      (Volumes.applyBond m v).yesterdayVolume = v.yesterdayVolume := by
  have hbuy : m.side = .Buy := hbond.side.resolve_right hside
  cases m with
  | orderInput i =>
      rw [applyBond_orderInput hbond, if_neg fun h => hside h.1]
      exact ⟨rfl, rfl, rfl⟩
  | order o =>
      change o.side = .Buy at hbuy
      simp [Volumes.applyBond, Volumes.applyStock, hbuy, closes]
  | trade t =>
      change t.side = .Buy at hbuy
      simp only [Volumes.applyBond, Volumes.applyStock, hbuy, closes, opens, if_true,
        Bool.false_eq_true, if_false]
      exact ⟨rfl, rfl, rfl⟩

end Orders

/-! ## Runs -/

namespace BondState

variable {ms todo : List TradingData} {m : TradingData} {s : BondState}

theorem frozenOutstanding_eq (hbalanced : Balanced ms) (hms : ms = s.messages ++ todo) :
    s.frozenOutstanding = (s.messages.map (bondShare s.frozen)).sum :=
  (sum_bondShare hbalanced hms).symm

/-- The messages before the input of an order are not about it. -/
theorem map_bondShare_update {i : OrderInput Details} {frozen : UInt64 → Bool} {b : Bool}
    {done : List TradingData} (hfresh : ∀ m ∈ done, m.orderId ≠ i.orderId) :
    done.map (bondShare (Function.update frozen i.orderId b)) = done.map (bondShare frozen) := by
  apply List.map_congr_left
  intro m hm
  simp [bondShare, Function.update_of_ne (hfresh m hm)]

variable (hbalanced : Balanced ms) (hms : ms = s.messages ++ m :: todo)
  (hbonds : ∀ m ∈ ms, BondMessage m) (hright : s.Right)

include hbalanced hms hbonds hright

theorem frozenTotal_nonneg : 0 ≤ s.volumes.frozenTotal := by
  rw [hright.frozenTotal, frozenOutstanding_eq hbalanced hms]
  exact sum_bondShare_nonneg hbalanced hms fun m hm => (hbonds m hm).counted

/-- An order to buy changes nothing. -/
theorem right_step_buy (hside : m.side ≠ .Sell) : (s.step m).Right := by
  have hnext : ms = (s.messages ++ [m]) ++ todo := by rw [hms]; simp
  have hmem : m ∈ ms := by rw [hms]; simp
  obtain ⟨htotal, hyesterday, hvolume⟩ := applyBond_buy (v := s.volumes) (hbonds m hmem) hside
  have hsettled : Settled (s.messages ++ [m]) → Settled s.messages := by
    intro h
    refine h.of_concat fun i hi hsell hid => ?_
    have hi' : .orderInput i ∈ ms := by
      rw [hms]
      exact List.mem_append_left _ (mem_ordersPlaced hi)
    obtain ⟨-, -, hsame⟩ := hbalanced.agree hi' hmem hid
    exact absurd (hsame.trans hsell) hside
  have hshare : ∀ frozen, bondShare frozen m = 0 := fun frozen => if_neg fun h => hside h.1
  have hsum : (s.step m).frozenOutstanding = s.frozenOutstanding := by
    rw [frozenOutstanding_eq hbalanced hnext, frozenOutstanding_eq hbalanced hms]
    simp only [step, List.map_append, List.sum_append, List.map_cons, List.map_nil,
      List.sum_singleton, hshare, add_zero]
    cases m with
    | orderInput i => rw [map_bondShare_update (orderId_ne_of_orderInput hbalanced hms)]
    | _ => rfl
  constructor
  · exact hyesterday.symm ▸ hright.nonneg
  · change (Volumes.applyBond m s.volumes).frozenYesterday ≤
      (Volumes.applyBond m s.volumes).yesterdayVolume
    rw [hyesterday, hvolume]
    exact hright.le_volume
  · exact htotal.trans (hright.frozenTotal.trans hsum.symm)
  · intro h
    obtain ⟨hzero, hzero'⟩ := hright.settled (hsettled h)
    exact ⟨htotal.trans hzero, hyesterday.trans hzero'⟩

/-- The input of an order to sell. -/
theorem right_step_input {i : OrderInput Details} (hm : m = .orderInput i) (hside : i.side = .Sell) :
    (s.step m).Right ↔ s.Keeps m := by
  subst hm
  have hnext : ms = (s.messages ++ [.orderInput i]) ++ todo := by rw [hms]; simp
  have hmem : .orderInput i ∈ ms := by rw [hms]; simp
  have hfresh := orderId_ne_of_orderInput hbalanced hms
  have hsum : (s.step (.orderInput i)).frozenOutstanding = s.frozenOutstanding +
      if Volumes.Sellable i s.volumes then i.volume.toInt else 0 := by
    rw [frozenOutstanding_eq hbalanced hnext, frozenOutstanding_eq hbalanced hms]
    simp only [step, List.map_append, List.sum_append, List.map_cons, List.map_nil,
      List.sum_singleton, map_bondShare_update hfresh]
    simp [bondShare, TradingData.side, hside, TradingData.orderId, outstanding]
  have hvolumes : (s.step (.orderInput i)).volumes = _ := applyBond_orderInput (hbonds _ hmem)
  have hnonneg := hright.nonneg
  have hle := hright.le_volume
  by_cases hsellable : Volumes.Sellable i s.volumes
  · rw [if_pos hsellable] at hsum hvolumes
    constructor
    · intro h _
      have hle' := h.le_volume
      rw [hvolumes] at hle'
      simp only [Volumes.freezeBond] at hle'
      refine ⟨by omega, fun hsettled => ?_⟩
      have hzero := (h.settled hsettled).2
      rw [hvolumes] at hzero
      simp only [Volumes.freezeBond] at hzero
      omega
    · intro h
      obtain ⟨hfits, hlast⟩ := h hsellable
      have htotal : (s.step (.orderInput i)).volumes.frozenTotal =
          (s.step (.orderInput i)).frozenOutstanding := by
        rw [hvolumes, hsum, ← hright.frozenTotal]
        rfl
      refine ⟨?_, ?_, htotal, fun hsettled => ⟨?_, ?_⟩⟩
      · rw [hvolumes]
        simp only [Volumes.freezeBond]
        omega
      · rw [hvolumes]
        simp only [Volumes.freezeBond]
        omega
      · rw [htotal, frozenOutstanding_eq hbalanced hnext]
        exact sum_bondShare_eq_zero hbalanced hnext hsettled
      · have hvolume := hlast hsettled
        rw [hvolumes]
        simp only [Volumes.freezeBond]
        omega
  · rw [if_neg hsellable] at hsum hvolumes
    refine ⟨fun _ h => absurd h hsellable, fun _ => ⟨?_, ?_, ?_, fun hsettled => ?_⟩⟩
    · rw [hvolumes]
      exact hnonneg
    · rw [hvolumes]
      exact hle
    · rw [hvolumes, hsum, add_zero]
      exact hright.frozenTotal
    · rw [hvolumes]
      apply hright.settled
      refine hsettled.of_concat fun j hj _ hid => ?_
      exact absurd hid.symm (hfresh _ (mem_ordersPlaced hj))

/-- A trade or an order of an order to sell. -/
theorem right_step_release (hinput : m.isOrderInput = false) (hside : m.side = .Sell) :
    (s.step m).Right ↔ (s.frozen m.orderId ∨ m.outstanding = 0 ∨ s.volumes.frozenTotal = 0) ∧
      (Settled (s.messages ++ [m]) → s.volumes.frozenYesterday + m.outstanding ≤ 0) := by
  have hnext : ms = (s.messages ++ [m]) ++ todo := by rw [hms]; simp
  have hmem : m ∈ ms := by rw [hms]; simp
  have hcounted : ∀ m ∈ ms, m.Counted := fun m hm => (hbonds m hm).counted
  have hfrozen : (s.step m).frozen = s.frozen := by
    cases m with
    | orderInput i => cases hinput
    | _ => rfl
  have hsum : (s.step m).frozenOutstanding =
      s.volumes.frozenTotal + if s.frozen m.orderId then m.outstanding else 0 := by
    rw [frozenOutstanding_eq hbalanced hnext, hright.frozenTotal, frozenOutstanding_eq hbalanced hms,
      hfrozen]
    simp [step, bondShare, hside]
  have hafter : 0 ≤ (s.step m).frozenOutstanding := by
    rw [frozenOutstanding_eq hbalanced hnext]
    exact sum_bondShare_nonneg hbalanced hnext hcounted
  have htotal := frozenTotal_nonneg hbalanced hms hbonds hright
  have hnonneg := hright.nonneg
  have hle := hright.le_volume
  have hnonpos := outstanding_nonpos (hcounted m hmem) hinput
  obtain ⟨htotal', hyesterday', hvolume'⟩ := applyBond_release hinput hside htotal hnonneg
  change (s.step m).volumes.frozenTotal = _ at htotal'
  change (s.step m).volumes.frozenYesterday = _ at hyesterday'
  change (s.step m).volumes.yesterdayVolume = _ ∨ (s.step m).volumes.yesterdayVolume = _ at hvolume'
  constructor
  · intro h
    refine ⟨?_, fun hsettled => ?_⟩
    · have heq := h.frozenTotal
      rw [hsum, htotal'] at heq
      split at heq
      · exact .inl ‹_›
      · omega
    · have hzero := (h.settled hsettled).2
      omega
  · rintro ⟨hown, hlast⟩
    have heq : (s.step m).volumes.frozenTotal = (s.step m).frozenOutstanding := by
      rw [hsum] at hafter ⊢
      rw [htotal']
      split at hafter
      · rw [if_pos ‹_›]
        omega
      · rw [if_neg ‹_›]
        rcases hown with hown | hown | hown
        · contradiction
        · omega
        · omega
    refine ⟨by omega, by omega, heq, fun hsettled => ⟨?_, ?_⟩⟩
    · rw [heq, frozenOutstanding_eq hbalanced hnext]
      exact sum_bondShare_eq_zero hbalanced hnext hsettled
    · have hall := hlast hsettled
      omega

/-- What is frozen stays right just after the messages that keep it so. -/
theorem right_step_iff : (s.step m).Right ↔ s.Keeps m := by
  by_cases hside : m.side = .Sell
  · cases m with
    | orderInput i => exact right_step_input hbalanced hms hbonds hright rfl hside
    | order o =>
        rw [right_step_release hbalanced hms hbonds hright rfl hside]
        exact ⟨fun h _ => h, fun h => h hside⟩
    | trade t =>
        rw [right_step_release hbalanced hms hbonds hright rfl hside]
        exact ⟨fun h _ => h, fun h => h hside⟩
  · refine ⟨fun _ => ?_, fun _ => right_step_buy hbalanced hms hbonds hright hside⟩
    cases m with
    | orderInput i => exact fun h => absurd h.1 hside
    | _ => exact fun h => absurd h hside

end BondState

section Books

open Book

variable {book book' : AccountBook} {key : PositionKey} {as todo : List Accounted}

/-- A position of bonds after messages. -/
def bondRun (volumes : Volumes) (ms : List TradingData) : BondState :=
  ms.foldl BondState.step ⟨[], volumes, fun _ => false⟩

theorem bondRun_append_singleton (volumes : Volumes) (ms : List TradingData) (m : TradingData) :
    bondRun volumes (ms ++ [m]) = (bondRun volumes ms).step m := by
  rw [bondRun, List.foldl_append]
  rfl

theorem bondRun_eq (volumes : Volumes) (ms : List TradingData) :
    (bondRun volumes ms).messages = ms ∧
      (bondRun volumes ms).volumes = ms.foldl (fun v m => Volumes.applyBond m v) volumes := by
  induction ms using List.reverseRecOn with
  | nil => exact ⟨rfl, rfl⟩
  | append_singleton ms m ih =>
      obtain ⟨hmessages, hvolumes⟩ := ih
      rw [bondRun_append_singleton, List.foldl_append, ← hvolumes]
      exact ⟨congrArg (· ++ [m]) hmessages, rfl⟩

/-- A position of a book after a part of a run, with the orders that were frozen in the run. -/
def bondStateOf (key : PositionKey) (book book₁ : AccountBook) (done : List Accounted) :
    BondState where
  messages := messagesAt key (done.map (·.data))
  volumes := book₁.holdings key
  frozen := (bondRun (book.holdings key) (messagesAt key (done.map (·.data)))).frozen

theorem bondStateOf_eq {book₁ : AccountBook} {done : List Accounted}
    (hrun : accountAll .bond done book = .ok book₁) : bondStateOf key book book₁ done =
      bondRun (book.holdings key) (messagesAt key (done.map (·.data))) := by
  obtain ⟨hmessages, hvolumes⟩ :=
    bondRun_eq (book.holdings key) (messagesAt key (done.map (·.data)))
  rw [← holdings_accountAll tracks_bond key hrun] at hvolumes
  exact BondState.ext hmessages.symm hvolumes.symm rfl

theorem prefix_messagesAt {ms : List TradingData} :
    ms <+: messagesAt key (as.map (·.data)) ↔
      ∃ done, done <+: as ∧ ms = messagesAt key (done.map (·.data)) := by
  rw [messagesAt, List.prefix_filter_iff]
  constructor
  · rintro ⟨l, hl, rfl⟩
    obtain ⟨done, hdone, rfl⟩ := List.prefix_map_iff.mp hl
    exact ⟨done, hdone, rfl⟩
  · rintro ⟨done, hdone, rfl⟩
    exact ⟨_, hdone.map _, rfl⟩

/-- What a position of convertible bonds freezes is right at every point of a run just where every
message of the run keeps it so. -/
theorem bond_frozen_iff (hbalanced : Balanced (messagesAt key ((as ++ todo).map (·.data))))
    (hbonds : ∀ m ∈ messagesAt key ((as ++ todo).map (·.data)), BondMessage m)
    (hstart : (book.holdings key).Unfrozen) (hrun : accountAll .bond as book = .ok book') :
    (∀ done, done <+: as → ∀ book₁, accountAll .bond done book = .ok book₁ →
        (bondStateOf key book book₁ done).Right) ↔
      Logic.Along BondState.step BondState.Keeps ⟨[], book.holdings key, fun _ => false⟩
        (messagesAt key (as.map (·.data))) := by
  have hms : messagesAt key ((as ++ todo).map (·.data)) =
      messagesAt key (as.map (·.data)) ++ messagesAt key (todo.map (·.data)) := by
    simp [messagesAt]
  obtain ⟨htotal, hyesterday, hvolume⟩ := hstart
  rw [Logic.along_iff_forall_prefix
    (R := fun s is => messagesAt key ((as ++ todo).map (·.data)) =
      s.messages ++ (is ++ messagesAt key (todo.map (·.data))))
    (fun s m is h => by simpa [BondState.step] using h)
    (fun s m is h hright => BondState.right_step_iff hbalanced h hbonds hright) hms
    ⟨hyesterday.ge, hyesterday.trans_le hvolume, by simpa [BondState.frozenOutstanding, ordersPlaced],
      fun _ => ⟨htotal, hyesterday⟩⟩]
  constructor
  · intro hall ms hprefix
    obtain ⟨done, hdone, rfl⟩ := prefix_messagesAt.mp hprefix
    obtain ⟨book₁, hbook₁⟩ := Outcome.exists_foldlM_of_prefix hrun hdone
    have hright := hall done hdone book₁ hbook₁
    rwa [bondStateOf_eq hbook₁] at hright
  · intro hall done hdone book₁ hbook₁
    rw [bondStateOf_eq hbook₁]
    exact hall _ (prefix_messagesAt.mpr ⟨done, hdone, rfl⟩)

/-- 10 convertible bonds of yesterday. -/
def exampleBonds : AccountBook :=
  exampleShares.setPosition { exampleShares.emptyPosition .Long "SSE" "110001" with
    volume := 10
    yesterdayVolume := 10 }

def exampleBondSell (volume : Int64) : OrderInput Details :=
  ⟨1, 0, "110001", "SSE", .Bond, 100, 100, volume, .Sell, .Limit, ⟨.Close, .Speculation, 0, 0, 0⟩⟩

/-- An order to sell bonds is rejected. -/
def exampleRejected (volume : Int64) : List Accounted :=
  [⟨noInstruments, 1, .orderInput (exampleBondSell volume)⟩,
    ⟨noInstruments, 2, .order { orderFromInput (exampleBondSell volume) with
      volumeLeft := volume
      status := .Error }⟩]

/-- An order to sell 3 of 10 bonds freezes all 10 of yesterday, and 7 of them stay frozen when it is
rejected. -/
theorem bond_frozen_of_rejected :
    Balanced (messagesAt (positionKey .Long "SSE" "110001") ((exampleRejected 3).map (·.data))) ∧
      (∀ m ∈ messagesAt (positionKey .Long "SSE" "110001") ((exampleRejected 3).map (·.data)),
        BondMessage m) ∧
      (exampleBonds.holdings (positionKey .Long "SSE" "110001")).Unfrozen ∧
      ∃ book', accountAll .bond (exampleRejected 3) exampleBonds = .ok book' ∧
        (book'.holdings (positionKey .Long "SSE" "110001")).frozenYesterday = 7 ∧
        ¬ (bondStateOf (positionKey .Long "SSE" "110001") exampleBonds book'
          (exampleRejected 3)).Right := by
  refine ⟨by decide +kernel, by decide +kernel, by decide +kernel, ?_⟩
  have hany : (accountAll .bond (exampleRejected 3) exampleBonds).toOption.any (fun book' =>
      (book'.holdings (positionKey .Long "SSE" "110001")).frozenYesterday = 7) = true := by
    decide +kernel
  obtain ⟨book', hrun, hfrozen⟩ := Outcome.exists_of_any hany
  have hseven := of_decide_eq_true hfrozen
  refine ⟨book', hrun, hseven, fun hright => ?_⟩
  have hsettled : Settled (bondStateOf (positionKey .Long "SSE" "110001") exampleBonds book'
      (exampleRejected 3)).messages := by
    simp only [bondStateOf]
    decide +kernel
  have hzero : (book'.holdings (positionKey .Long "SSE" "110001")).frozenYesterday = 0 :=
    (hright.settled hsettled).2
  omega

/-- An order to sell bonds. -/
def exampleBondOrder (orderId : UInt64) (volume : Int64) : OrderInput Details :=
  { exampleBondSell volume with orderId := orderId }

/-- An order to sell all bonds is traded while another one waits, which did not fit and is rejected
afterwards. -/
def exampleInterleaved : List Accounted :=
  [⟨noInstruments, 1, .orderInput (exampleBondOrder 1 10)⟩,
    ⟨noInstruments, 2, .orderInput (exampleBondOrder 2 5)⟩,
    ⟨noInstruments, 3, .trade ⟨8, 1, "", "", "110001", "SSE", .Bond, .Sell, 6,
      ⟨.Close, .Speculation, 100, 0, 0⟩⟩⟩,
    ⟨noInstruments, 4, .trade ⟨9, 1, "", "", "110001", "SSE", .Bond, .Sell, 4,
      ⟨.Close, .Speculation, 100, 0, 0⟩⟩⟩,
    ⟨noInstruments, 5, .order { orderFromInput (exampleBondOrder 2 5) with
      volumeLeft := 5
      status := .Error }⟩,
    ⟨noInstruments, 6, .order { orderFromInput (exampleBondOrder 1 10) with
      volumeLeft := 0
      status := .Filled }⟩]

/-- What is frozen is right after two orders in turn. -/
theorem bond_frozen_iff_interleaved :
    ∃ book', accountAll .bond exampleInterleaved exampleBonds = .ok book' ∧
      (bondStateOf (positionKey .Long "SSE" "110001") exampleBonds book' exampleInterleaved).Right := by
  obtain ⟨book', hrun⟩ := Outcome.exists_of_isOk
    (show (accountAll .bond exampleInterleaved exampleBonds).isOk = true by decide +kernel)
  have hiff := @bond_frozen_iff exampleBonds book' (positionKey .Long "SSE" "110001")
    exampleInterleaved [] (by decide +kernel) (by decide +kernel) (by decide +kernel) hrun
  have hright := hiff.mpr (by decide +kernel) exampleInterleaved (List.prefix_refl _) book' hrun
  exact ⟨book', hrun, hright⟩

end Books

end Kungfu.Wingchun
