import Kungfu.Logic.Binary64
import Kungfu.Wingchun.Holdings
import Kungfu.Logic.Run
import Mathlib.Tactic.Linarith
import Mathlib.Tactic.LinearCombination

/-!
# The equity of a futures book

What is available, the margin of the positions and the frozen cash make up the equity.  A
trade should change it by the profit that it realizes and by its commission, converted once
into the currency of the account; and a position that is closed should leave no margin.
Neither is so for all trades: the profit is never made available, a commission by amount is
converted twice when a position is opened, and what is closed below the price that it was
opened at leaves some of its margin.
-/

namespace Kungfu.Wingchun

open Longfist Logic

namespace FutureAccountingMethod

variable {market : Market} {key : PositionKey} {trade : Trade Details} {data : TradingData}
  {offset : Offset} {s : Slice key} {looked : ℚ}

/-! ## Commissions -/

/-- The contract of trading data, on the side of a direction. -/
def contractOf (market : Market) (data : TradingData) (direction : Direction) :
    ContractMultiplierAndMarginRatio :=
  getInstrumentContractMultiplierAndMarginRatio market
    (hashInstrument data.exchangeId data.instrumentId) direction

/-- The commission of a trade is taken by its amount. -/
def byAmount (market : Market) (trade : Trade Details) : Bool :=
  (commissionOf market trade.instrumentId).any fun commission => commission.mode = .ByAmount

/-- The commission of a trade in the currency of its instrument. -/
def tariff (market : Market) (trade : Trade Details) (direction : Direction)
    (closeTodayVolume : ℚ) : ℚ :=
  match commissionOf market trade.instrumentId with
  | none => 0
  | some commission =>
      let volume := trade.volume.toInt
      let charged :=
        if trade.details.offset = .Open then volume * commission.openRatio
        else (volume - closeTodayVolume) * commission.closeRatio +
          closeTodayVolume * commission.closeTodayRatio
      match commission.mode with
      | .ByAmount =>
          trade.details.price * (contractOf market (.trade trade) direction).contractMultiplier * charged
      | .ByVolume => charged

/-- The volume that a trade closes of today's. -/
def closeTodayVolume (trade : Trade Details) (position : Position key) : ℚ :=
  match trade.details.offset with
  | .Open => 0
  | .CloseToday => trade.volume.toInt
  | .Close | .CloseYesterday => max (trade.volume.toInt - position.yesterdayVolume) 0

/-- The commission of a trade, converted once. -/
def due (market : Market) (trade : Trade Details) (position : Position key) : ℚ :=
  tariff market trade key.direction (closeTodayVolume trade position) *
    (contractOf market (.trade trade) key.direction).exchangeRate

/-- How often a commission is converted before its end. -/
def surcharge (market : Market) (trade : Trade Details) (direction : Direction) : ℚ :=
  if trade.details.offset = .Open ∧ byAmount market trade then
    (contractOf market (.trade trade) direction).exchangeRate
  else 1

/-- The commission of a trade that opens is converted already if it is by amount. -/
theorem calculateCommission_eq (direction : Direction) (n : ℚ) :
    calculateCommission market trade direction n =
      tariff market trade direction n * surcharge market trade direction := by
  unfold calculateCommission tariff surcharge contractOf byAmount
  cases commissionOf market trade.instrumentId with
  | none => simp
  | some commission =>
      cases hmode : commission.mode <;> by_cases hopen : trade.details.offset = .Open <;>
        simp [hmode, hopen, TradingData.exchangeId, TradingData.instrumentId] <;> ring

/-! ## Slices -/

/-- What is available, the margin of the position and the frozen cash. -/
def sliceEquity (s : Slice key) : ℚ := s.asset.avail + s.position.margin + s.asset.frozenCash

variable (market looked offset s) in
/-- Order inputs and orders change neither the equity nor what was realized. -/
theorem equity_effect_of_not_trade (hdata : ∀ trade, data ≠ .trade trade) :
    sliceEquity (effect market looked data offset s) = sliceEquity s ∧
      (effect market looked data offset s).asset.realizedPnl = s.asset.realizedPnl ∧
      (effect market looked data offset s).position.margin = s.position.margin := by
  cases data with
  | trade trade => exact absurd rfl (hdata trade)
  | orderInput input =>
      cases offset <;> simp [effect, applyInput, sliceEquity, freezeMargin, Position.freeze,
        Position.freezeToday]
      ring
  | order order =>
      by_cases hfinal : isFinalStatus order.status
      · cases offset <;> simp [effect, hfinal, applyFinalOrder, sliceEquity, freezeMargin,
          Position.unfreeze, Position.unfreezeToday]
        ring
      · simp [effect, hfinal]

/-- The profit that a trade realizes on a position, in the currency of the account. -/
def realized (market : Market) (trade : Trade Details) (position : Position key) : ℚ :=
  if trade.details.offset = .Open then 0
  else
    let contract := contractOf market (.trade trade) key.direction
    let pnl := (trade.details.price - position.avgOpenPrice) * trade.volume.toInt *
      contract.contractMultiplier
    (if key.direction = .Short then -pnl else pnl) * contract.exchangeRate

variable (market trade looked s) in
/-- A trade changes the equity by its commission alone, and notes what it realizes. -/
theorem equity_effect_trade :
    let s' := effect market looked (.trade trade) trade.details.offset s
    sliceEquity s' = sliceEquity s - due market trade s.position *
        surcharge market trade key.direction ∧
      s'.asset.realizedPnl = s.asset.realizedPnl + realized market trade s.position := by
  have hcommission := @calculateCommission_eq market trade
  cases hoffset : trade.details.offset with
  | Open =>
      simp only [effect, applyTradeTo, applyOpen, hcommission, sliceEquity, margin_updatePosition,
        freezeMargin, due, closeTodayVolume, realized, hoffset, if_true, contractOf,
        TradingData.exchangeId, TradingData.instrumentId, Position.direction]
      constructor <;> ring
  | _ =>
      simp only [effect, applyTradeTo, applyClose, hcommission, sliceEquity, margin_updatePosition,
        due, closeTodayVolume, realized, hoffset, contractOf, TradingData.exchangeId,
        TradingData.instrumentId, Position.direction]
      refine ⟨?_, rfl⟩
      simp
      ring

/-! ## Sound trades -/

@[simp] theorem exchangeRate_contractOf (market : Market) (data : TradingData)
    (direction : Direction) : (contractOf market data direction).exchangeRate ≠ 0 := by
  unfold contractOf getInstrumentContractMultiplierAndMarginRatio
  cases market.instruments (hashInstrument data.exchangeId data.instrumentId) <;>
    exact market.exchangeRate_ne_zero _

/-- A trade that opens converts its commission once, and one that closes realizes nothing. -/
def KeepsEquity (market : Market) (trade : Trade Details) (position : Position key) : Prop :=
  let contract := contractOf market (.trade trade) key.direction
  if trade.details.offset = .Open then
    byAmount market trade → contract.exchangeRate = 1 ∨ tariff market trade key.direction 0 = 0
  else trade.details.price = position.avgOpenPrice ∨ contract.contractMultiplier = 0

instance (market : Market) (trade : Trade Details) (position : Position key) :
    Decidable (KeepsEquity market trade position) :=
  inferInstanceAs (Decidable (if trade.details.offset = .Open then
    byAmount market trade → (contractOf market (.trade trade) key.direction).exchangeRate = 1 ∨
      tariff market trade key.direction 0 = 0
    else trade.details.price = position.avgOpenPrice ∨
      (contractOf market (.trade trade) key.direction).contractMultiplier = 0))

/-- A trade that closes all of a position is at a price whose margin covers the position's. -/
def ReleasesMargin (market : Market) (trade : Trade Details) (position : Position key) : Prop :=
  trade.details.offset ≠ .Open → trade.volume.toInt = position.volume →
    position.margin ≤ marginFor (contractOf market (.trade trade) key.direction)
      trade.details.price trade.volume.toInt

instance (market : Market) (trade : Trade Details) (position : Position key) :
    Decidable (ReleasesMargin market trade position) :=
  inferInstanceAs (Decidable (_ → _ → _))

/-- The equity changes by what is realized less the commission for these trades only. -/
theorem keepsEquity_iff {position : Position key} (hvolume : 0 < trade.volume.toInt) :
    KeepsEquity market trade position ↔
      -(due market trade position * surcharge market trade key.direction) =
        realized market trade position - due market trade position := by
  have hrate := exchangeRate_contractOf market (.trade trade) key.direction
  have hvolume' : (trade.volume.toInt : ℚ) ≠ 0 := by exact_mod_cast hvolume.ne'
  by_cases hopen : trade.details.offset = .Open
  · by_cases hamount : byAmount market trade
    · have hdue : due market trade position = tariff market trade key.direction 0 *
          (contractOf market (.trade trade) key.direction).exchangeRate := by
        simp [due, closeTodayVolume, hopen]
      simp only [KeepsEquity, hopen, if_true, hamount, forall_true_left, surcharge, realized,
        true_and, zero_sub, neg_inj, hdue]
      constructor
      · rintro (h | h) <;> simp [h]
      · intro h
        have hzero : tariff market trade key.direction 0 *
            (contractOf market (.trade trade) key.direction).exchangeRate *
              ((contractOf market (.trade trade) key.direction).exchangeRate - 1) = 0 := by
          linear_combination h
        rcases mul_eq_zero.mp hzero with hzero | hzero
        · exact .inr ((mul_eq_zero.mp hzero).resolve_right hrate)
        · exact .inl (sub_eq_zero.mp hzero)
    · simp [KeepsEquity, hopen, hamount, surcharge, realized]
  · have hpnl : realized market trade position = 0 ↔
        trade.details.price = position.avgOpenPrice ∨
          (contractOf market (.trade trade) key.direction).contractMultiplier = 0 := by
      by_cases hshort : key.direction = .Short <;>
        simp [realized, hopen, hshort, hvolume', sub_eq_zero]
    simp only [KeepsEquity, hopen, if_false, surcharge, false_and, mul_one]
    rw [← hpnl]
    constructor <;> intro h <;> linarith

/-- A position with no volume has no margin. -/
def NoMarginLeft (position : Position key) : Prop := position.volume = 0 → position.margin = 0

/-- Order inputs and orders leave the volume and the margin of a position alone. -/
theorem noMarginLeft_effect_of_not_trade (hdata : ∀ trade, data ≠ .trade trade) :
    (effect market looked data offset s).position.volume = s.position.volume ∧
      (effect market looked data offset s).position.margin = s.position.margin := by
  refine ⟨?_, (equity_effect_of_not_trade market offset s looked hdata).2.2⟩
  have hvolumes := congrArg Volumes.volume (ofPosition_effect market s looked data offset)
  cases data with
  | trade trade => exact absurd rfl (hdata trade)
  | orderInput input => cases offset <;> exact hvolumes
  | order order =>
      refine hvolumes.trans ?_
      by_cases hfinal : isFinalStatus order.status <;> cases offset <;>
        simp [Volumes.apply, hfinal, Volumes.ofPosition, Volumes.unfreeze, Volumes.unfreezeToday]

/-- A position that is opened or closed as far as its volume goes has a volume again. -/
theorem volume_effect_nonneg (hnonneg : 0 ≤ s.position.volume) (hvolume : 0 < trade.volume.toInt)
    (hclose : trade.details.offset ≠ .Open → trade.volume.toInt ≤ s.position.volume) :
    0 ≤ (effect market looked (.trade trade) trade.details.offset s).position.volume := by
  cases hoffset : trade.details.offset with
  | Open =>
      simp only [effect, applyTradeTo, applyOpen, volume_updatePosition]
      omega
  | _ =>
      have hle := hclose (by simp [hoffset])
      simp only [effect, applyTradeTo, applyClose, volume_updatePosition]
      omega

/-- After a trade no margin is left without volume if and only if the trade releases it. -/
theorem noMarginLeft_effect_iff (hnonneg : 0 ≤ s.position.volume) (hvolume : 0 < trade.volume.toInt) :
    NoMarginLeft (effect market looked (.trade trade) trade.details.offset s).position ↔
      ReleasesMargin market trade s.position := by
  cases hoffset : trade.details.offset with
  | Open =>
      simp only [NoMarginLeft, effect, applyTradeTo, applyOpen, volume_updatePosition,
        ReleasesMargin, hoffset]
      constructor
      · intro _ hne
        exact absurd rfl hne
      · intro _ hzero
        omega
  | _ =>
      simp only [NoMarginLeft, effect, applyTradeTo, applyClose, volume_updatePosition,
        margin_updatePosition, ReleasesMargin, hoffset, ne_eq, reduceCtorEq, not_false_eq_true,
        forall_true_left, contractOf, TradingData.exchangeId, TradingData.instrumentId,
        Position.direction, sub_eq_zero, eq_comm (a := s.position.volume)]
      exact forall_congr' fun _ => left_eq_inf

end FutureAccountingMethod

namespace Book

open FutureAccountingMethod

variable {market : Market} {book book' base : AccountBook} {key : PositionKey} {data : TradingData}
  {direction : Direction} {exchangeId instrumentId : String} {u : Update} {us : List Update}

/-! ## One message -/

/-- The messages of orders for futures on an exchange that does not merge positions. -/
def Ordinary (data : TradingData) : Prop :=
  Method.ofInstrumentType data.instrumentType = some .future ∧
    ableLongShortPositionMerge data.exchangeId = false

variable (market) in
/-- On a position that is in the book, accounting of futures never throws. -/
theorem apply_future_setPosition (hordinary : Ordinary data)
    (hdirection : getDirection data.instrumentType data.side data.offset = .ok direction)
    (p : Position (positionKey direction data.exchangeId data.instrumentId)) :
    ∃ base : AccountBook, base.state = book.state ∧ Method.future.apply market (book.setPosition p) data =
      .ok (base.setSlice (effect market (book.getFrozenPrice data.orderId) data data.offset
        ⟨book.state.asset, book.state.assetMargin, p⟩)) := by
  have hon : ∀ (base : AccountBook) (f : Offset → ∀ {key : PositionKey}, Slice key → Slice key),
      onOffsetPosition (base.setPosition p) data f =
        .ok (base.setSlice (f data.offset ⟨base.state.asset, base.state.assetMargin, p⟩)) := by
    intro base f
    have hoffset : getOffset (base.setPosition p) data = .ok (data.offset, base.setPosition p) := by
      rw [getOffset, if_neg (by simp [hordinary.2])]
      rfl
    simp only [onOffsetPosition, hoffset, hdirection, orThrow, Except.mapError, Outcome.ok_bind,
      getPosition_of_lookup (lookup_setPosition p), onSlice, slice_setPosition,
      setSlice_setPosition]
    rfl
  cases data with
  | orderInput input => exact ⟨book, rfl, hon book fun offset => applyInput market input offset⟩
  | order order =>
      have hstate := state_emplaceOrder book order
      refine ⟨book.emplaceOrder order, hstate, ?_⟩
      by_cases hfinal : isFinalStatus order.status
      · simp only [Method.apply, TradingData.orderId,
          applyOrder_of_final hfinal (book.getFrozenPrice order.orderId), emplaceOrder_setPosition]
        rw [hon, hstate]
      · simp only [Method.apply, FutureAccountingMethod.applyOrder, emplaceOrder_setPosition]
        rw [if_neg hfinal]
        simp [effect, hfinal, setPosition, setSlice]
  | trade trade =>
      have hstate : (book.emplaceTrade trade).state = book.state := state_emplaceTrade trade
      have hemplace : (book.setPosition p).emplaceTrade trade =
          (book.emplaceTrade trade).setPosition p := by
        by_cases h : (book.trades trade.tradeId).isSome <;> simp [emplaceTrade, setPosition, h]
      refine ⟨book.emplaceTrade trade, hstate, ?_⟩
      simp only [Method.apply, applyTrade_eq, hemplace]
      rw [hon, hstate]
      rfl

/-- An update by accounting of futures changes one position and the asset. -/
theorem exists_slice_of_applyUpdate (hordinary : Ordinary u.data)
    (h : book.applyUpdate market u = .ok book') :
    ∃ direction p, getDirection u.data.instrumentType u.data.side u.data.offset = .ok direction ∧
      book.Gives direction u.data.exchangeId u.data.instrumentId p ∧
      ∃ base : AccountBook, base.state = book.state ∧
        book' = (base.setSlice (effect market (book.getFrozenPrice u.data.orderId) u.data
          u.data.offset ⟨book.state.asset, book.state.assetMargin, p⟩)).finish market u.updateTime
            direction u.data := by
  rw [applyUpdate, hordinary.1] at h
  obtain ⟨direction, p, book₁, hdirection, hp, happly, rfl⟩ := exists_of_applyAndUpdate h
  obtain ⟨base, hstate, hbase⟩ := apply_future_setPosition market hordinary hdirection p
  rw [hbase] at happly
  cases happly
  exact ⟨direction, p, hdirection, hp, base, hstate, rfl⟩

/-! ## The equity -/

/-- What is available, the margin of all positions and the frozen cash. -/
def equity (book : AccountBook) : ℚ :=
  book.state.asset.avail + sumPositions book.state (fun position => position.margin) +
    book.state.asset.frozenCash

/-- The margin of the positions under other keys. -/
def otherMargin (book : AccountBook) (key : PositionKey) : ℚ :=
  ((book.state.positions.erase key).entries.map fun entry => entry.2.margin).sum

theorem equity_finish (t : Int64) (s : Slice (positionKey direction data.exchangeId data.instrumentId)) :
    ((base.setSlice s).finish market t direction data).equity =
      sliceEquity s + base.otherMargin (positionKey direction data.exchangeId data.instrumentId) := by
  have hsum := sumPositions_setSlice base (fun position => position.margin) s
  have hmargin : base.sumOthers (fun position => position.margin)
      (positionKey direction data.exchangeId data.instrumentId) = base.otherMargin _ := rfl
  obtain ⟨havail, hcash, -⟩ := asset_finish market t direction data (base.setSlice s)
  have hasset : (base.setSlice s).state.asset = s.asset := rfl
  rw [equity, sumPositions_finish fun _ _ => rfl, hsum, hmargin, havail, hcash, hasset, sliceEquity]
  ring

theorem realizedPnl_finish (t : Int64) (book : AccountBook) :
    (book.finish market t direction data).state.asset.realizedPnl = book.state.asset.realizedPnl := by
  cases data <;> rfl

/-- What a message changes of the equity, on one position. -/
theorem exists_equity_of_applyUpdate (hordinary : Ordinary u.data)
    (h : book.applyUpdate market u = .ok book') :
    ∃ direction p, getDirection u.data.instrumentType u.data.side u.data.offset = .ok direction ∧
      book.Gives direction u.data.exchangeId u.data.instrumentId p ∧
      let s : Slice _ := ⟨book.state.asset, book.state.assetMargin, p⟩
      let s' := effect market (book.getFrozenPrice u.data.orderId) u.data u.data.offset s
      book'.equity = book.equity + (sliceEquity s' - sliceEquity s) ∧
        book'.state.asset.realizedPnl = s'.asset.realizedPnl ∧
        book'.state.positions = book.state.positions.insert
          (positionKey direction u.data.exchangeId u.data.instrumentId)
          { s'.position with updateTime := u.updateTime } := by
  obtain ⟨direction, p, hdirection, hp, base, hstate, rfl⟩ := exists_slice_of_applyUpdate hordinary h
  refine ⟨direction, p, hdirection, hp, ?_, ?_, ?_⟩
  · rw [equity_finish, equity, hp.sumPositions fun _ => rfl, otherMargin, hstate]
    simp only [sliceEquity, sumOthers]
    ring
  · rw [realizedPnl_finish]
    rfl
  · rw [positions_finish, stamp_setSlice]
    simp only [setSlice, hstate]

/-! ## Conservation -/

/-- What is true of a trade and the position that it is for. -/
def OfTrade (P : ∀ {key : PositionKey}, Trade Details → Position key → Prop) (book : AccountBook) :
    TradingData → Prop
  | .trade trade => ∀ direction,
      getDirection trade.instrumentType trade.side trade.details.offset = .ok direction →
        P trade (book.position direction trade.exchangeId trade.instrumentId)
  | _ => True

/-- A trade for a volume, of which no more is closed than is held. -/
def Holds (trade : Trade Details) (position : Position key) : Prop :=
  0 < trade.volume.toInt ∧
    (trade.details.offset ≠ .Open → trade.volume.toInt ≤ position.volume)

instance decidableOfTrade {P : ∀ {key : PositionKey}, Trade Details → Position key → Prop}
    [∀ {key : PositionKey} (trade : Trade Details) (p : Position key), Decidable (P trade p)]
    (book : AccountBook) : DecidablePred (book.OfTrade P)
  | .orderInput _ => isTrue trivial
  | .order _ => isTrue trivial
  | .trade trade =>
      match h : getDirection trade.instrumentType trade.side trade.details.offset with
      | .error _ => isTrue fun _ h' => by simp [h] at h'
      | .ok direction =>
          decidable_of_iff (P trade (book.position direction trade.exchangeId trade.instrumentId))
            ⟨fun hP direction' h' => by
              rw [h] at h'
              cases h'
              exact hP, fun hP => hP direction h⟩

instance (trade : Trade Details) (position : Position key) : Decidable (Holds trade position) :=
  inferInstanceAs (Decidable (_ ∧ (_ → _)))

/-- The messages that the equity is about. -/
def Admissible (book : AccountBook) (u : Update) : Prop :=
  Ordinary u.data ∧ book.OfTrade Holds u.data

/-- The trades that neither lose equity nor leave margin. -/
def Sound (market : Market) (book : AccountBook) (u : Update) : Prop :=
  book.OfTrade (KeepsEquity market) u.data ∧ book.OfTrade (ReleasesMargin market) u.data

instance (data : TradingData) : Decidable (Ordinary data) := inferInstanceAs (Decidable (_ ∧ _))

instance (book : AccountBook) (u : Update) : Decidable (book.Admissible u) :=
  inferInstanceAs (Decidable (_ ∧ _))

instance (market : Market) (book : AccountBook) (u : Update) : Decidable (book.Sound market u) :=
  inferInstanceAs (Decidable (_ ∧ _))

/-- The commission of a message, converted once. -/
def dueFor (market : Market) (book : AccountBook) : TradingData → ℚ
  | .trade trade =>
      match getDirection trade.instrumentType trade.side trade.details.offset with
      | .ok direction =>
          due market trade (book.position direction trade.exchangeId trade.instrumentId)
      | .error _ => 0
  | _ => 0

/-- The commissions of a run, each converted once. -/
def totalDue (market : Market) : AccountBook → List Update → ℚ
  | _, [] => 0
  | book, u :: us => book.dueFor market u.data +
      match book.applyUpdate market u with
      | .ok book' => totalDue market book' us
      | .error _ => 0

/-- The equity changes by what is realized less the commissions. -/
def Conserved (market : Market) (book : AccountBook) (us : List Update) (book' : AccountBook) : Prop :=
  book'.equity - book.equity =
    book'.state.asset.realizedPnl - book.state.asset.realizedPnl - book.totalDue market us

/-- The positions of a book have volumes, and margin only with volume. -/
structure Flat (book : AccountBook) : Prop where
  nonneg : book.Forall fun position => 0 ≤ position.volume
  margin : book.Forall NoMarginLeft

/-- A position that the book gives out has the numbers of the one under its key. -/
theorem Gives.exists_position {p : Position (positionKey direction exchangeId instrumentId)}
    (h : book.Gives direction exchangeId instrumentId p) : ∃ type uid category,
    book.position direction exchangeId instrumentId =
      { p with instrumentType := type, holderUid := uid, ledgerCategory := category } := by
  rcases h with h | ⟨h, type, -, rfl⟩
  · refine ⟨p.instrumentType, p.holderUid, p.ledgerCategory, ?_⟩
    simp only [position, h, Option.getD_some]
  · refine ⟨.Unknown, 0, .Account, ?_⟩
    simp only [position, h, Option.getD_none]
    rfl

/-- What is true of a trade is true of the position that it is for. -/
theorem ofTrade_iff {P : ∀ {key : PositionKey}, Trade Details → Position key → Prop}
    (hP : ∀ {key : PositionKey} (trade : Trade Details) (p : Position key) type uid category,
      P trade { p with instrumentType := type, holderUid := uid, ledgerCategory := category } ↔
        P trade p) {trade : Trade Details}
    (hdirection : getDirection trade.instrumentType trade.side trade.details.offset = .ok direction)
    {p : Position (positionKey direction trade.exchangeId trade.instrumentId)}
    (hp : book.Gives direction trade.exchangeId trade.instrumentId p) :
    book.OfTrade P (.trade trade) ↔ P trade p := by
  obtain ⟨type, uid, category, hposition⟩ := hp.exists_position
  simp only [OfTrade, hdirection, Except.ok.injEq, forall_eq', hposition, hP]

theorem Gives.flat {p : Position (positionKey direction exchangeId instrumentId)} (hflat : book.Flat)
    (h : book.Gives direction exchangeId instrumentId p) : 0 ≤ p.volume ∧ NoMarginLeft p :=
  ⟨h.elim (P := fun position => 0 ≤ position.volume) (fun hp => hflat.nonneg _ _ hp)
      fun _ => le_refl (0 : ℤ),
    h.elim (P := NoMarginLeft) (fun hp => hflat.margin _ _ hp) fun _ _ => rfl⟩

theorem forall_iff_of_insert {P : ∀ {key : PositionKey}, Position key → Prop} {q : Position key}
    (hpositions : book'.state.positions = book.state.positions.insert key q) (h : book.Forall P) :
    book'.Forall P ↔ P q := by
  constructor
  · intro h'
    exact h' key q (by rw [hpositions, Finmap.lookup_insert])
  · intro hq k p hp
    rw [hpositions] at hp
    by_cases hk : k = key
    · subst hk
      rw [Finmap.lookup_insert] at hp
      cases hp
      exact hq
    · rw [Finmap.lookup_insert_of_ne _ hk] at hp
      exact h k p hp

theorem totalDue_singleton (h : book.applyUpdate market u = .ok book') :
    book.totalDue market [u] = book.dueFor market u.data := by
  simp [totalDue, h]

/-- What an order input or an order changes. -/
theorem exists_of_not_trade (hdata : ∀ trade, u.data ≠ .trade trade) (hordinary : Ordinary u.data)
    (h : book.applyUpdate market u = .ok book') :
    book'.equity = book.equity ∧ book'.state.asset.realizedPnl = book.state.asset.realizedPnl ∧
      ∃ direction exchangeId instrumentId p q,
        book.Gives direction exchangeId instrumentId p ∧
        book'.state.positions = book.state.positions.insert
          (positionKey direction exchangeId instrumentId) q ∧
        q.volume = p.volume ∧ q.margin = p.margin := by
  obtain ⟨direction, p, -, hp, hequity, hrealized, hpositions⟩ :=
    exists_equity_of_applyUpdate hordinary h
  obtain ⟨heq, hpnl, -⟩ := equity_effect_of_not_trade market u.data.offset
    ⟨book.state.asset, book.state.assetMargin, p⟩ (book.getFrozenPrice u.data.orderId) hdata
  refine ⟨?_, hrealized.trans hpnl, direction, _, _, p, _, hp, hpositions,
    noMarginLeft_effect_of_not_trade hdata⟩
  rw [hequity, heq]
  ring

/-- What a trade changes. -/
theorem exists_of_trade {trade : Trade Details} (hdata : u.data = .trade trade)
    (hordinary : Ordinary u.data) (h : book.applyUpdate market u = .ok book') :
    ∃ (direction : Direction)
      (p q : Position (positionKey direction trade.exchangeId trade.instrumentId)),
      getDirection trade.instrumentType trade.side trade.details.offset = .ok direction ∧
      book.Gives direction trade.exchangeId trade.instrumentId p ∧
      book'.equity = book.equity - due market trade p * surcharge market trade direction ∧
      book'.state.asset.realizedPnl = book.state.asset.realizedPnl + realized market trade p ∧
      book'.state.positions = book.state.positions.insert
        (positionKey direction trade.exchangeId trade.instrumentId) q ∧
      (0 ≤ p.volume → Holds trade p →
        0 ≤ q.volume ∧ (NoMarginLeft q ↔ ReleasesMargin market trade p)) := by
  obtain ⟨updateTime, source, dest, data⟩ := u
  obtain rfl : data = .trade trade := hdata
  obtain ⟨direction, p, hdirection, hp, hequity, hrealized, hpositions⟩ :=
    exists_equity_of_applyUpdate hordinary h
  let s : Slice (positionKey direction trade.exchangeId trade.instrumentId) :=
    ⟨book.state.asset, book.state.assetMargin, p⟩
  obtain ⟨heq, hpnl⟩ := equity_effect_trade market trade s (book.getFrozenPrice trade.orderId)
  refine ⟨direction, p, _, hdirection, hp, ?_, hrealized.trans hpnl, hpositions, ?_⟩
  · calc book'.equity
      _ = book.equity + (sliceEquity _ - sliceEquity s) := hequity
      _ = book.equity + (sliceEquity s - due market trade p * surcharge market trade direction -
            sliceEquity s) := congrArg (fun x => book.equity + (x - sliceEquity s)) heq
      _ = book.equity - due market trade p * surcharge market trade direction := by ring
  · rintro hnonneg ⟨hvolume, hclose⟩
    exact ⟨volume_effect_nonneg (s := s) hnonneg hvolume hclose,
      noMarginLeft_effect_iff (s := s) hnonneg hvolume⟩

/-- One message keeps the equity and leaves no margin if and only if it is sound. -/
theorem conserved_step_iff (hflat : book.Flat) (hadmissible : book.Admissible u)
    (h : book.applyUpdate market u = .ok book') :
    (book'.Forall fun position => 0 ≤ position.volume) ∧
      (Conserved market book [u] book' ∧ book'.Forall NoMarginLeft ↔ book.Sound market u) := by
  obtain ⟨hordinary, hholds⟩ := hadmissible
  rw [Conserved, totalDue_singleton h]
  by_cases hdata : ∀ trade, u.data ≠ .trade trade
  · obtain ⟨hequity, hrealized, direction, _, _, p, q, hp, hpositions, hvolume, hleft⟩ :=
      exists_of_not_trade hdata hordinary h
    obtain ⟨hnonneg, hmargin⟩ := hp.flat hflat
    have hdue : book.dueFor market u.data = 0 ∧ book.Sound market u := by
      unfold Sound
      cases hu : u.data with
      | trade trade => exact absurd hu (hdata trade)
      | _ => exact ⟨rfl, trivial, trivial⟩
    rw [forall_iff_of_insert hpositions hflat.nonneg, forall_iff_of_insert hpositions hflat.margin,
      hequity, hrealized, hdue.1, hvolume]
    refine ⟨hnonneg, iff_of_true ⟨by ring, fun hzero => ?_⟩ hdue.2⟩
    exact hleft.trans (hmargin (hvolume.symm.trans hzero))
  · obtain ⟨trade, htrade⟩ := not_forall_not.mp hdata
    obtain ⟨direction, p, q, hdirection, hp, hequity, hrealized, hpositions, hq⟩ :=
      exists_of_trade htrade hordinary h
    obtain ⟨hnonneg, hmargin⟩ := hp.flat hflat
    rw [htrade] at hholds
    have hholds : Holds trade p := (ofTrade_iff (fun _ _ _ _ _ => Iff.rfl) hdirection hp).mp hholds
    obtain ⟨hnonneg', hreleases⟩ := hq hnonneg hholds
    have hdue : book.dueFor market u.data = due market trade p := by
      obtain ⟨type, uid, category, hposition⟩ := hp.exists_position
      simp only [htrade, dueFor, hdirection, hposition]
      rfl
    have hsound : book.Sound market u ↔
        KeepsEquity market trade p ∧ ReleasesMargin market trade p := by
      rw [Sound, htrade]
      exact and_congr (ofTrade_iff (fun _ _ _ _ _ => Iff.rfl) hdirection hp)
        (ofTrade_iff (fun _ _ _ _ _ => Iff.rfl) hdirection hp)
    rw [forall_iff_of_insert hpositions hflat.nonneg, forall_iff_of_insert hpositions hflat.margin,
      hequity, hrealized, hdue, hsound, hreleases, keepsEquity_iff hholds.1]
    have hkey : (positionKey direction trade.exchangeId trade.instrumentId).direction = direction :=
      rfl
    rw [hkey]
    refine ⟨hnonneg', and_congr_left fun _ => ?_⟩
    constructor <;> intro h <;> linarith

/-! ## Runs -/

theorem applyUpdates_cons (us : List Update) (h : book.applyUpdate market u = .ok book') :
    book.applyUpdates market (u :: us) = book'.applyUpdates market us := by
  rw [applyUpdates, List.foldlM_cons, h]
  rfl

theorem totalDue_cons (us : List Update) (h : book.applyUpdate market u = .ok book') :
    book.totalDue market (u :: us) = book.totalDue market [u] + book'.totalDue market us := by
  simp [totalDue, h]

/-- The equity is conserved over a run if it is over its first message and over the rest. -/
theorem conserved_cons_iff {book'' : AccountBook} (h : book.applyUpdate market u = .ok book')
    (hfirst : Conserved market book [u] book') :
    Conserved market book (u :: us) book'' ↔ Conserved market book' us book'' := by
  unfold Conserved at hfirst ⊢
  rw [totalDue_cons us h]
  constructor <;> intro hrest <;> linarith

/-- Over every part of a run the equity changes by what is realized less the commissions, and
no margin is left without volume, if and only if all messages of the run are sound. -/
theorem equity_conserved_iff {last : AccountBook} (hrun : book.applyUpdates market us = .ok last)
    (hflat : book.Flat) (hadmissible : AlongM (applyUpdate market) Admissible book us) :
    (∀ done todo, us = done ++ todo → ∀ book', book.applyUpdates market done = .ok book' →
        Conserved market book done book' ∧ book'.Forall NoMarginLeft) ↔
      AlongM (applyUpdate market) (Sound market) book us := by
  induction us generalizing book with
  | nil =>
      refine iff_of_true (fun done todo hus book' hdone => ?_) trivial
      obtain ⟨rfl, -⟩ := List.append_eq_nil_iff.mp hus.symm
      cases hdone
      exact ⟨by simp [Conserved, totalDue], hflat.margin⟩
  | cons u us ih =>
      obtain ⟨hfirst, hrest⟩ := hadmissible
      cases h : book.applyUpdate market u with
      | error thrown =>
          rw [applyUpdates, List.foldlM_cons, h] at hrun
          cases hrun
      | ok book₁ =>
          simp only [h] at hrest
          rw [applyUpdates_cons us h] at hrun
          obtain ⟨hnonneg, hstep⟩ := conserved_step_iff hflat hfirst h
          simp only [AlongM, h]
          constructor
          · intro hall
            have hone := hall [u] us rfl book₁ (by rw [applyUpdates_cons [] h]; rfl)
            refine ⟨hstep.mp hone, (ih hrun ⟨hnonneg, hone.2⟩ hrest).mp fun done todo hus book' hdone => ?_⟩
            have hcons := hall (u :: done) todo (by rw [hus]; rfl) book'
              (by rw [applyUpdates_cons done h, hdone])
            exact ⟨(conserved_cons_iff h hone.1).mp hcons.1, hcons.2⟩
          · rintro ⟨hsound, hsounds⟩ done todo hus book' hdone
            obtain ⟨hconserved, hmargin⟩ := hstep.mpr hsound
            cases done with
            | nil =>
                cases hdone
                exact ⟨by simp [Conserved, totalDue], hflat.margin⟩
            | cons u' done =>
                obtain ⟨rfl, rfl⟩ := List.cons_eq_cons.mp hus
                rw [applyUpdates_cons done h] at hdone
                have hrest' := (ih hrun ⟨hnonneg, hmargin⟩ hrest).mpr hsounds done todo rfl book' hdone
                exact ⟨(conserved_cons_iff h hconserved).mpr hrest'.1, hrest'.2⟩

/-! ### An account -/

/-- A trade in a future at a price. -/
def exampleTrade (tradeId : UInt64) (side : Side) (offset : Offset) (price : ℚ) : Update :=
  ⟨1, 10, 77, .trade ⟨tradeId, tradeId, "", "", "rb2610", "SHFE", .Future, side, 2,
    ⟨offset, .Speculation, price, 0, 0⟩⟩⟩

/-- A book without positions. -/
def exampleBook : AccountBook := emptyBook 10 .Account "20260929"

theorem flat_exampleBook : exampleBook.Flat where
  nonneg _ _ h := by simp [exampleBook, emptyBook] at h
  margin _ _ h := by simp [exampleBook, emptyBook] at h

/-- One contract and then two are bought at 3000.2. -/
def exampleOpens (K : Type) [Div K] [∀ n, OfNat K n] : List (TradingData K) :=
  let details : Details K := ⟨.Open, .Speculation, 30002 / 10, 0, 0⟩
  [.trade ⟨1, 1, "", "", "rb2610", "SHFE", .Future, .Buy, 1, details⟩,
    .trade ⟨2, 2, "", "", "rb2610", "SHFE", .Future, .Buy, 2, details⟩]

/-- A book with 10000.1 to spend. -/
def exampleFunded (K : Type) [Div K] [∀ n, OfNat K n] : AccountBook K :=
  let book := emptyBook 10 .Account "20260929"
  { book with state := { book.state with
      asset := { book.state.asset with avail := 100001 / 10 } } }

/-- With numbers that are rounded, two trades that realize nothing and cost nothing change the
equity. -/
theorem not_conserved_of_rounding :
    ∃ book, (exampleOpens Binary64).foldlM (applyData (noInstrumentsOf Binary64)) (exampleFunded Binary64) =
        .ok book ∧
      book.state.asset.realizedPnl = 0 ∧ book.state.asset.accumulatedFee = 0 ∧
      book.state.asset.avail.val + (book.position .Long "SHFE" "rb2610").margin.val +
        book.state.asset.frozenCash.val ≠ (exampleFunded Binary64).state.asset.avail.val := by
  obtain ⟨book, hrun, htest⟩ := Outcome.exists_of_any
    (x := (exampleOpens Binary64).foldlM (applyData (noInstrumentsOf Binary64)) (exampleFunded Binary64))
    (p := fun book => book.state.asset.realizedPnl = 0 ∧ book.state.asset.accumulatedFee = 0 ∧
      book.state.asset.avail.val + (book.position .Long "SHFE" "rb2610").margin.val +
        book.state.asset.frozenCash.val ≠ (exampleFunded Binary64).state.asset.avail.val)
    (by decide +kernel)
  exact ⟨book, hrun, of_decide_eq_true htest⟩

/-- Closed below the price at which it was opened, a position keeps margin and its loss is not
taken from the equity.  With numbers that are rounded, two trades that open change the equity, too. -/
theorem not_conserved_of_loss :
    (let us := [exampleTrade 1 .Buy .Open 100, exampleTrade 2 .Sell .Close 90]
    AlongM (applyUpdate noInstruments) Admissible exampleBook us ∧
      ∃ book', exampleBook.applyUpdates noInstruments us = .ok book' ∧
        ¬ Conserved noInstruments exampleBook us book' ∧ ¬ book'.Forall NoMarginLeft) ∧
    ∃ book, (exampleOpens Binary64).foldlM (applyData (noInstrumentsOf Binary64)) (exampleFunded Binary64) =
        .ok book ∧
      book.state.asset.realizedPnl = 0 ∧ book.state.asset.accumulatedFee = 0 ∧
      book.state.asset.avail.val + (book.position .Long "SHFE" "rb2610").margin.val +
        book.state.asset.frozenCash.val ≠ (exampleFunded Binary64).state.asset.avail.val := by
  refine ⟨?_, not_conserved_of_rounding⟩
  intro us
  refine ⟨by decide +kernel, ?_⟩
  have hany : (exampleBook.applyUpdates noInstruments us).toOption.any (fun book' =>
      book'.equity - exampleBook.equity ≠ book'.state.asset.realizedPnl -
        exampleBook.state.asset.realizedPnl - exampleBook.totalDue noInstruments us ∧
      (book'.state.positions.lookup (positionKey .Long "SHFE" "rb2610")).any
        (fun p => p.volume = 0 ∧ p.margin ≠ 0)) = true := by
    decide +kernel
  obtain ⟨book', hrun, htest⟩ := Outcome.exists_of_any hany
  simp only [decide_eq_true_eq] at htest
  obtain ⟨hequity, hleft⟩ := htest
  refine ⟨book', hrun, hequity, fun hmargin => ?_⟩
  cases hp : book'.state.positions.lookup (positionKey .Long "SHFE" "rb2610") with
  | none => simp [hp] at hleft
  | some p =>
      simp only [hp, Option.any_some, decide_eq_true_eq] at hleft
      exact hleft.2 (hmargin _ p hp hleft.1)

/-- Closed at the price at which it was opened, a position keeps nothing. -/
theorem equity_conserved_iff_example :
    let us := [exampleTrade 1 .Buy .Open 100, exampleTrade 2 .Sell .Close 100]
    ∃ book', exampleBook.applyUpdates noInstruments us = .ok book' ∧
      Conserved noInstruments exampleBook us book' ∧ book'.Forall NoMarginLeft := by
  intro us
  obtain ⟨book', hrun⟩ := Outcome.exists_of_isOk
    (show (exampleBook.applyUpdates noInstruments us).isOk = true by decide +kernel)
  exact ⟨book', hrun, (equity_conserved_iff hrun flat_exampleBook (by decide +kernel)).mpr
    (by decide +kernel) us [] (List.append_nil us).symm book' hrun⟩

end Book

end Kungfu.Wingchun
