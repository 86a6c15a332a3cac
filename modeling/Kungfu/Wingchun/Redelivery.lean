import Kungfu.Wingchun.Completion
import Kungfu.Wingchun.Holdings
import Kungfu.Wingchun.StockCash

/-!
# Messages that are delivered again

A book does not remember which messages it has seen.  A final order that is delivered again
gives back once more what it leaves, and a trade moves once more what it trades.  A book is
left as it is only where there is nothing to give back.
-/

namespace Kungfu.Longfist.Position

variable {key : PositionKey}

/-- A position without the time of its last update. -/
def untimed (p : Position key) : Position key := { p with updateTime := 0 }

def withTime (t : Int64) (p : Position key) : Position key := { p with updateTime := t }

theorem untimed_withTime (t : Int64) (p : Position key) : (p.withTime t).untimed = p.untimed := rfl

end Kungfu.Longfist.Position

namespace Kungfu.Wingchun

open Longfist

namespace Book

variable {market : Market} {book book' : AccountBook} {key : PositionKey} {direction : Direction}
  {exchangeId instrumentId : String} {data : TradingData} {method : Method} {updateTime : Int64}

/-! ## Books that differ in update times -/

structure Unchanged (book book' : AccountBook) : Prop where
  asset : { book'.state.asset with updateTime := book.state.asset.updateTime } = book.state.asset
  assetMargin : book'.state.assetMargin = book.state.assetMargin
  positions : ∀ key, (book'.state.positions.lookup key).map Position.untimed =
    (book.state.positions.lookup key).map Position.untimed

/-- The positions without times. -/
def untimedEntries (positions : Finmap (PositionAt ℚ)) : Multiset (Sigma (PositionAt ℚ)) :=
  positions.entries.map fun entry => ⟨entry.1, entry.2.untimed⟩

/-- To replace a position by one that differs in its time does not change the entries. -/
theorem untimedEntries_insert {positions : Finmap (PositionAt ℚ)} {p q : Position key}
    (hp : positions.lookup key = some p) (hq : q.untimed = p.untimed) :
    untimedEntries (positions.insert key q) = untimedEntries positions := by
  unfold untimedEntries
  conv_rhs => rw [← insert_of_lookup hp]
  simp only [entries_insert, Multiset.map_cons, hq]

theorem sumPositions_eq {account : Account} {f : ∀ {key : PositionKey}, Position key → ℚ}
    (hf : ∀ {key : PositionKey} (p : Position key), f p.untimed = f p) :
    sumPositions account f = ((untimedEntries account.positions).map fun entry => f entry.2).sum := by
  simp only [sumPositions, untimedEntries, Multiset.map_map, Function.comp_def, hf]

/-- `Book::update` looks at the positions without their times. -/
theorem update_congr (hasset : book'.state.asset = book.state.asset)
    (hmargin : book'.state.assetMargin = book.state.assetMargin)
    (hentries : untimedEntries book'.state.positions = untimedEntries book.state.positions) :
    (book'.update market updateTime).state.asset = (book.update market updateTime).state.asset ∧
      (book'.update market updateTime).state.assetMargin =
        (book.update market updateTime).state.assetMargin := by
  have hsum : ∀ f : (∀ {key : PositionKey}, Position key → ℚ),
      (∀ {key : PositionKey} (p : Position key), f p.untimed = f p) →
        sumPositions book'.state f = sumPositions book.state f := by
    intro f hf
    rw [sumPositions_eq hf, sumPositions_eq hf, hentries]
  have hstock : (∀ entry ∈ book'.state.positions.entries, isStock entry.2.instrumentType) ↔
      ∀ entry ∈ book.state.positions.entries, isStock entry.2.instrumentType := by
    have hiff : ∀ account : Account,
        (∀ entry ∈ account.positions.entries, isStock entry.2.instrumentType) ↔
          ∀ entry ∈ untimedEntries account.positions, isStock entry.2.instrumentType := by
      intro account
      rw [untimedEntries, Multiset.forall_mem_map_iff]
      rfl
    rw [hiff, hiff, hentries]
  have hpositions := hsum (fun position => position.margin) fun _ => rfl
  have hmarket := hsum (marketValueShare market) fun _ => rfl
  have hpnl := hsum (unrealizedPnlShare market) fun _ => rfl
  have hequity := hsum (equityShare market) fun _ => rfl
  have hshort := hsum (shortMarketValueShare market) fun _ => rfl
  simp only [update, hasset, hmargin, hstock, hpositions, hmarket, hpnl, hequity, hshort, and_self]

/-- A book whose sums are those over its positions. -/
def Fresh (market : Market) (book : AccountBook) : Prop :=
  ∀ t, (book.update market t).state =
    { book.state with asset := { book.state.asset with updateTime := t } }

theorem fresh_finish : (book.finish market updateTime direction data).Fresh market := fun _ => rfl

theorem positions_replaceData : (book.replaceData data).state.positions = book.state.positions := by
  cases data <;> rfl

/-- The end of an update changes the times of positions only. -/
theorem lookup_finish (h : book.Has (positionKey direction data.exchangeId data.instrumentId))
    (k : PositionKey) :
    ((book.finish market updateTime direction data).state.positions.lookup k).map
      Position.untimed = (book.state.positions.lookup k).map Position.untimed := by
  obtain ⟨p, hp⟩ := has_iff_exists.mp h
  rw [positions_finish, stamp, onSlice]
  by_cases hk : k = positionKey direction data.exchangeId data.instrumentId
  · subst hk
    rw [lookup_setSlice, slice, position, hp]
    rfl
  · rw [lookup_setSlice_of_ne _ hk]

/-- After an update that did not touch the account the book is unchanged. -/
theorem unchanged_finish (hfresh : book.Fresh market) (hstate : book'.state = book.state)
    (h : book.Has (positionKey direction data.exchangeId data.instrumentId)) :
    Unchanged book (book'.finish market updateTime direction data) := by
  obtain ⟨p, hp⟩ := has_iff_exists.mp h
  have hp' : book'.state.positions.lookup (positionKey direction data.exchangeId data.instrumentId) =
      some p := by rw [hstate, hp]
  let stamped := (book'.stamp updateTime direction data.exchangeId data.instrumentId).replaceData data
  have hasset : stamped.state.asset = book.state.asset := by
    rw [← hstate]
    cases data <;> rfl
  have hmargin : stamped.state.assetMargin = book.state.assetMargin := by
    rw [← hstate]
    cases data <;> rfl
  have hentries : untimedEntries stamped.state.positions = untimedEntries book.state.positions := by
    have hinsert : stamped.state.positions =
        book'.state.positions.insert (positionKey direction data.exchangeId data.instrumentId)
          (p.withTime updateTime) := by
      rw [positions_replaceData, stamp, onSlice, slice, position, hp']
      rfl
    rw [hinsert, untimedEntries_insert hp' (p.untimed_withTime _), hstate]
  obtain ⟨hasset', hmargin'⟩ := update_congr hasset
    hmargin hentries
  have hstart := hfresh updateTime
  refine ⟨?_, ?_, ?_⟩
  · change { (stamped.update market updateTime).state.asset with
      updateTime := book.state.asset.updateTime } = _
    rw [hasset', hstart]
  · change (stamped.update market updateTime).state.assetMargin = _
    rw [hmargin', hstart]
  · intro k
    rw [lookup_finish (by rw [Has, hp']; rfl), hstate]

end Book

/-! ## What an order has left to give back -/

section Orders

variable {market : Market} {key : PositionKey} {frozenPrice : ℚ} {order : Order Details}
  {trade : Trade Details} {offset : Offset} {s : Slice key}

/-- Nothing is frozen of a position that a volume could be taken from. -/
def NothingFrozen (volumeLeft : ℤ) (p : Position key) : Prop :=
  max (p.frozenTotal - volumeLeft) 0 = p.frozenTotal ∧
    max (p.frozenYesterday - volumeLeft) 0 = p.frozenYesterday

theorem unfreeze_of_nothingFrozen {volumeLeft : ℤ} {p : Position key}
    (h : NothingFrozen volumeLeft p) : p.unfreeze volumeLeft = p := by
  simp only [Position.unfreeze, h.1, h.2]

open StockAccountingMethod in
/-- A final order of stocks has nothing left to give back, and the position of it is valued
at its last price. -/
def StockSpent (market : Market) (frozenPrice : ℚ) (order : Order Details) (p : Position key) :
    Prop :=
  let cdMr := getInstrConversionMarginRate market p
  let volumeLeft := order.volumeLeft.toInt
  let frozen := frozenPrice * volumeLeft * cdMr.exchangeRate
  (updateStockPosition p).unrealizedPnl = p.unrealizedPnl ∧
    match order.side with
    | .Buy => frozen = 0
    | .RepayStock => frozen = 0 ∧ NothingFrozen volumeLeft p
    | .Sell | .RepayMargin => NothingFrozen volumeLeft p
    | .MarginTrade => frozen * cdMr.longMarginRatio = 0
    | .ShortSell => frozen * cdMr.shortMarginRatio = 0
    | _ => True

theorem stockSpent_of_sell {p : Position key} (hside : order.side = .Sell) (hprice : p.lastPrice = 0)
    (h : NothingFrozen order.volumeLeft.toInt p) : StockSpent market frozenPrice order p := by
  simp only [StockSpent, hside]
  refine ⟨?_, h⟩
  simp [StockAccountingMethod.updateStockPosition, hprice]

open FutureAccountingMethod in
/-- A final order of futures that opens or closes has nothing left to give back, and the
position of it is valued at its last price. -/
def FutureSpent (market : Market) (order : Order Details) (offset : Offset) (p : Position key) :
    Prop :=
  let volumeLeft := order.volumeLeft.toInt
  (updatePosition market p).unrealizedPnl = p.unrealizedPnl ∧
    match offset with
    | .Open => marginFor (getInstrumentContractMultiplierAndMarginRatio market
        (hashInstrument order.exchangeId order.instrumentId) key.direction) order.frozenPrice
          volumeLeft = 0
    | .Close | .CloseYesterday => NothingFrozen volumeLeft p
    | .CloseToday => volumeLeft ≤ p.frozenTotal → volumeLeft = 0

theorem freezeCash_neg_zero (asset : Asset) : StockAccountingMethod.freezeCash (-0) asset = asset := by
  simp [StockAccountingMethod.freezeCash]

theorem updateStockPosition_of_eq {p : Position key}
    (h : (StockAccountingMethod.updateStockPosition p).unrealizedPnl = p.unrealizedPnl) :
    StockAccountingMethod.updateStockPosition p = p := by
  by_cases hprice : 0 < p.lastPrice
  · simp only [StockAccountingMethod.updateStockPosition, if_pos hprice] at h ⊢
    simp only [h]
  · simp only [StockAccountingMethod.updateStockPosition, if_neg hprice]

@[simp] theorem frozenTotal_updateStockPosition (p : Position key) :
    (StockAccountingMethod.updateStockPosition p).frozenTotal = p.frozenTotal := by
  unfold StockAccountingMethod.updateStockPosition
  split <;> rfl

@[simp] theorem frozenYesterday_updateStockPosition (p : Position key) :
    (StockAccountingMethod.updateStockPosition p).frozenYesterday = p.frozenYesterday := by
  unfold StockAccountingMethod.updateStockPosition
  split <;> rfl

theorem unrealizedPnl_updateStockPosition_unfreeze (n : ℤ) (p : Position key) :
    (StockAccountingMethod.updateStockPosition (p.unfreeze n)).unrealizedPnl =
      (StockAccountingMethod.updateStockPosition p).unrealizedPnl := by
  unfold StockAccountingMethod.updateStockPosition
  by_cases h : 0 < p.lastPrice
  · rw [if_pos h, if_pos (by exact h)]
    rfl
  · rw [if_neg h, if_neg (by exact h)]
    rfl

theorem updatePosition_of_eq {p : Position key}
    (h : (FutureAccountingMethod.updatePosition market p).unrealizedPnl = p.unrealizedPnl) :
    FutureAccountingMethod.updatePosition market p = p := by
  by_cases hprice : 0 < p.lastPrice
  · simp only [FutureAccountingMethod.updatePosition, if_pos hprice] at h ⊢
    simp only [h]
  · simp only [FutureAccountingMethod.updatePosition, if_neg hprice]

open StockAccountingMethod in
/-- A spent order of stocks changes nothing. -/
theorem effect_of_stockSpent (hfinal : isFinalStatus order.status = true)
    (h : StockSpent market frozenPrice order s.position) :
    effect stock market frozenPrice (.order order) s = s := by
  obtain ⟨hmarked, hspent⟩ := h
  have hposition := updateStockPosition_of_eq hmarked
  have happly : applyFinalOrder market frozenPrice order s = s := by
    cases hside : order.side <;> simp only [hside] at hspent <;>
      simp only [applyFinalOrder, hside]
    case Buy => simp only [hspent, freezeCash_neg_zero]
    case RepayStock =>
      simp only [hspent.1, freezeCash_neg_zero, unfreeze_of_nothingFrozen hspent.2]
    case Sell => simp only [unfreeze_of_nothingFrozen hspent]
    case RepayMargin => simp only [unfreeze_of_nothingFrozen hspent]
    case MarginTrade =>
      have hreleased : frozenPrice * (getInstrConversionMarginRate market s.position).exchangeRate *
          order.volumeLeft.toInt *
            (getInstrConversionMarginRate market s.position).longMarginRatio = 0 := by
        rw [← hspent]
        ring
      simp only [hreleased, add_zero, sub_zero]
    case ShortSell =>
      have hreleased : frozenPrice * (getInstrConversionMarginRate market s.position).exchangeRate *
          order.volumeLeft.toInt *
            (getInstrConversionMarginRate market s.position).shortMarginRatio = 0 := by
        rw [← hspent]
        ring
      simp only [hreleased, add_zero, sub_zero]
  simp only [effect, hfinal, if_true, happly, stock, hposition]

open StockAccountingMethod in
/-- An order of stocks that changes nothing is spent. -/
theorem stockSpent_of_effect (hfinal : isFinalStatus order.status = true)
    (hcash : (effect stock market frozenPrice (.order order) s).asset.frozenCash =
      s.asset.frozenCash)
    (hmargin : (effect stock market frozenPrice (.order order) s).asset.frozenMargin =
      s.asset.frozenMargin)
    (hposition : (effect stock market frozenPrice (.order order) s).position.untimed =
      s.position.untimed) : StockSpent market frozenPrice order s.position := by
  have hpnl := congrArg Position.unrealizedPnl hposition
  have htotal := congrArg Position.frozenTotal hposition
  have hyesterday := congrArg Position.frozenYesterday hposition
  simp only [Position.untimed, effect, hfinal, if_true, stock, frozenTotal_updateStockPosition,
    frozenYesterday_updateStockPosition] at hpnl htotal hyesterday
  simp only [effect, hfinal, if_true] at hcash hmargin
  cases hside : order.side <;> simp only [applyFinalOrder, hside] at hcash hmargin <;>
    simp only [applyFinalOrder, hside] at htotal hyesterday <;>
    simp only [applyFinalOrder, hside, unrealizedPnl_updateStockPosition_unfreeze] at hpnl <;>
    simp only [StockSpent, hside, hpnl, true_and, and_true]
  case Buy =>
    simp only [freezeCash] at hcash
    linarith
  case RepayStock =>
    simp only [freezeCash] at hcash
    exact ⟨by linarith, htotal, hyesterday⟩
  case Sell => exact ⟨htotal, hyesterday⟩
  case RepayMargin => exact ⟨htotal, hyesterday⟩
  case MarginTrade => linarith
  case ShortSell => linarith

theorem unrealizedPnl_updatePosition_unfreeze (n : ℤ) (p : Position key) :
    (FutureAccountingMethod.updatePosition market (p.unfreeze n)).unrealizedPnl =
      (FutureAccountingMethod.updatePosition market p).unrealizedPnl := by
  unfold FutureAccountingMethod.updatePosition
  by_cases h : 0 < p.lastPrice
  · rw [if_pos h, if_pos (by exact h)]
    rfl
  · rw [if_neg h, if_neg (by exact h)]
    rfl

theorem unrealizedPnl_updatePosition_unfreezeToday (n : ℤ) (p : Position key) :
    (FutureAccountingMethod.updatePosition market (p.unfreezeToday n)).unrealizedPnl =
      (FutureAccountingMethod.updatePosition market p).unrealizedPnl := by
  unfold FutureAccountingMethod.updatePosition
  by_cases h : 0 < p.lastPrice
  · rw [if_pos h, if_pos (by exact h)]
    rfl
  · rw [if_neg h, if_neg (by exact h)]
    rfl

open FutureAccountingMethod in
/-- A spent order of futures changes nothing. -/
theorem effect_of_futureSpent (hfinal : isFinalStatus order.status = true)
    (h : FutureSpent market order offset s.position) :
    effect market frozenPrice (.order order) offset s = s := by
  obtain ⟨hmarked, hspent⟩ := h
  have hposition := updatePosition_of_eq hmarked
  cases offset <;> simp only [effect, hfinal, if_true, applyFinalOrder]
  case Open =>
    simp only [Position.direction, hspent, hposition, freezeMargin, neg_zero, sub_zero, add_zero]
  case CloseToday =>
    have hsame : s.position.unfreezeToday order.volumeLeft.toInt = s.position := by
      by_cases hle : order.volumeLeft.toInt ≤ s.position.frozenTotal
      · have hzero := hspent hle
        simp only [Position.unfreezeToday, hzero, sub_zero, ite_self]
      · simp only [Position.unfreezeToday, if_neg hle]
    simp only [hsame, hposition]
  case Close => simp only [unfreeze_of_nothingFrozen hspent, hposition]
  case CloseYesterday => simp only [unfreeze_of_nothingFrozen hspent, hposition]

open FutureAccountingMethod in
/-- An order of futures that changes nothing is spent. -/
theorem futureSpent_of_effect (hfinal : isFinalStatus order.status = true)
    (hmargin : (effect market frozenPrice (.order order) offset s).asset.frozenMargin =
      s.asset.frozenMargin)
    (hposition : (effect market frozenPrice (.order order) offset s).position.untimed =
      s.position.untimed) : FutureSpent market order offset s.position := by
  have hvolumes : Volumes.apply offset (.order order) (Volumes.ofPosition s.position) =
      Volumes.ofPosition s.position := by
    have heffect : Volumes.ofPosition (effect market frozenPrice (.order order) offset s).position =
        _ := ofPosition_effect market s frozenPrice (.order order) offset
    have hsame : Volumes.ofPosition (effect market frozenPrice (.order order) offset s).position.untimed =
        Volumes.ofPosition s.position.untimed := by rw [hposition]
    exact heffect.symm.trans hsame
  have htotal := congrArg Volumes.frozenTotal hvolumes
  have hyesterday := congrArg Volumes.frozenYesterday hvolumes
  have hpnl := congrArg Position.unrealizedPnl hposition
  simp only [Position.untimed, effect, hfinal, if_true] at hpnl hmargin
  simp only [Volumes.apply, hfinal, if_true, Volumes.ofPosition] at htotal hyesterday
  cases offset <;> simp only [applyFinalOrder, unrealizedPnl_updatePosition_unfreeze,
    unrealizedPnl_updatePosition_unfreezeToday] at hpnl hmargin <;>
    simp only [FutureSpent, hpnl, true_and]
  case Open =>
    simp only [freezeMargin, Position.direction] at hmargin
    linarith
  case CloseToday =>
    intro hle
    simp only [Volumes.unfreezeToday, if_pos hle] at htotal
    linarith
  case Close => exact ⟨htotal, hyesterday⟩
  case CloseYesterday => exact ⟨htotal, hyesterday⟩

end Orders

/-! ## What a trade moves -/

section Trades

variable {market : Market} {key : PositionKey} {frozenPrice : ℚ} {trade : Trade Details}
  {s : Slice key}

/-- The sides of trades that accounting of stocks knows. -/
def isTraded : Side → Bool
  | .Buy | .Sell | .MarginTrade | .ShortSell | .RepayMargin | .RepayStock => true
  | _ => false

/-- A trade of a volume that is worth something. -/
def Executed (market : Market) (trade : Trade Details) : Prop :=
  0 < trade.volume.toInt ∧ 0 < tradeAmount market trade

instance (market : Market) : DecidablePred (Executed market) := fun _ =>
  inferInstanceAs (Decidable (_ ∧ _))

open StockAccountingMethod

theorem effect_of_not_isTraded (h : isTraded trade.side = false) :
    effect stock market frozenPrice (.trade trade) s = s := by
  cases hside : trade.side <;> rw [hside] at h <;>
    first
      | exact absurd h (by decide)
      | simp only [effect, hside]

/-- A trade of another side moves money or the volume. -/
theorem effect_trade_ne (hkey : key.hash = hashInstrument trade.exchangeId trade.instrumentId)
    (hside : isTraded trade.side) (hexecuted : Executed market trade)
    (howes : s.assetMargin.totalAsset = 0 → s.position.margin = 0) :
    let s' := effect stock market frozenPrice (.trade trade) s
    ¬ (s'.asset.accumulatedFee = s.asset.accumulatedFee ∧ s'.asset.avail = s.asset.avail ∧
      s'.assetMargin.cashDebt = s.assetMargin.cashDebt ∧
      s'.assetMargin.shortCash = s.assetMargin.shortCash ∧
      s'.position.volume = s.position.volume) := by
  obtain ⟨hvolume, hamount⟩ := hexecuted
  have hrate := exchangeRate_getInstrConversionMarginRate market s.position
  have hamount' : 0 < trade.details.price * market.exchangeRate key.hash * trade.volume.toInt := by
    rw [hkey]
    calc (0 : ℚ) < tradeAmount market trade := hamount
      _ = _ := by
        simp only [tradeAmount, rateOf, TradingData.exchangeId, TradingData.instrumentId]
        ring
  rintro s' ⟨hfee, havail, hdebt, hshort, hposition⟩
  cases htraded : trade.side <;> rw [htraded] at hside <;> try cases hside
  case Buy =>
    simp only [s', effect, htraded, applyBuy] at hposition
    omega
  case MarginTrade =>
    simp only [s', effect, htraded, applyMargintrade] at hposition
    omega
  case ShortSell =>
    simp only [s', effect, htraded, applyShortsell] at hposition
    omega
  case Sell =>
    have hmargin : (soldPosition stock trade s.position).margin = s.position.margin :=
      margin_updateStockPosition _
    simp only [s', effect, htraded, applySell, hrate, hmargin] at hfee havail hdebt
    have hfees : calculateCommission trade + stock.calculateTax trade = 0 := by linarith
    simp only [hfees, sub_zero] at havail hdebt
    -- all of the amount pays off a debt, which an account without credit does not have
    have hrepay : min s.position.margin
        (trade.details.price * market.exchangeRate key.hash * trade.volume.toInt) =
          trade.details.price * market.exchangeRate key.hash * trade.volume.toInt := by linarith
    by_cases htotal : s.assetMargin.totalAsset = 0
    · rw [howes htotal, min_eq_left hamount'.le] at hrepay
      linarith
    · rw [if_pos htotal] at hdebt
      simp only [calculateCollateralRatio, hrepay] at hdebt
      linarith
  case RepayMargin =>
    simp only [s', effect, htraded, applyRepaymargin, hrate] at hfee havail hdebt
    have hfees : calculateCommission trade + stock.calculateTax trade = 0 := by linarith
    simp only [hfees, sub_zero] at havail hdebt
    by_cases hrepaid : s.assetMargin.cashDebt <
        trade.details.price * market.exchangeRate key.hash * trade.volume.toInt
    · rw [if_pos hrepaid] at havail
      linarith
    · rw [if_neg hrepaid] at hdebt
      simp only [calculateCollateralRatio] at hdebt
      linarith
  case RepayStock =>
    simp only [s', effect, htraded, applyRepaystock, calculateCollateralRatio, hrate] at hshort
    linarith

/-- A trade of futures moves the volume of a position. -/
theorem volume_apply_trade_ne {offset : Offset} {v : Volumes} (h : 0 < trade.volume.toInt) :
    (Volumes.apply offset (.trade trade) v).volume ≠ v.volume := by
  cases offset <;> simp only [Volumes.apply, Volumes.opened, Volumes.closed] <;> omega

end Trades

/-! ## A book that gets a message again -/

namespace Book

variable {market : Market} {book book' book₁ : AccountBook} {key : PositionKey}
  {direction own : Direction} {data : TradingData} {method : Method} {updateTime : Int64}

/-- What is kept up to the end of an update is what was there before. -/
theorem Unchanged.of_finish (h : Unchanged book (book₁.finish market updateTime direction data))
    (hhas : book₁.Has (positionKey direction data.exchangeId data.instrumentId)) :
    (book₁.state.asset.frozenCash = book.state.asset.frozenCash ∧
      book₁.state.asset.frozenMargin = book.state.asset.frozenMargin ∧
      book₁.state.asset.accumulatedFee = book.state.asset.accumulatedFee ∧
      book₁.state.asset.avail = book.state.asset.avail ∧
      book₁.state.assetMargin.cashDebt = book.state.assetMargin.cashDebt ∧
      book₁.state.assetMargin.shortCash = book.state.assetMargin.shortCash) ∧
    ∀ k, (book₁.state.positions.lookup k).map Position.untimed =
      (book.state.positions.lookup k).map Position.untimed := by
  obtain ⟨hasset, hmargin, hpositions⟩ := h
  constructor
  · refine ⟨?_, ?_, ?_, ?_, ?_, ?_⟩
    · rw [← hasset]
      cases data <;> rfl
    · rw [← hasset]
      cases data <;> rfl
    · rw [← hasset]
      cases data <;> rfl
    · rw [← hasset]
      cases data <;> rfl
    · rw [← hmargin]
      cases data <;> rfl
    · rw [← hmargin]
      cases data <;> rfl
  · intro k
    rw [← hpositions k, lookup_finish hhas]

theorem Gives.lookup_of_has {p : Position (positionKey direction data.exchangeId data.instrumentId)}
    (h : book.Gives direction data.exchangeId data.instrumentId p)
    (hhas : book.Has (positionKey direction data.exchangeId data.instrumentId)) :
    book.state.positions.lookup _ = some p := by
  rcases h with h | ⟨hnone, -⟩
  · exact h
  · rw [Has, hnone] at hhas
    cases hhas

/-- To put back what is there does not touch the account. -/
theorem state_setSlice_of_lookup {p : Position key} (hp : book.state.positions.lookup key = some p)
    (hstate : book₁.state = book.state) :
    (book₁.setSlice ⟨book.state.asset, book.state.assetMargin, p⟩).state = book.state := by
  simp only [setSlice, hstate, insert_of_lookup hp]

/-- A slice that was put in is read back, if the book is unchanged at the end. -/
theorem Unchanged.of_setSlice {s : Slice key} {p : Position key}
    (hp : book.state.positions.lookup key = some p)
    (h : Unchanged book ((book₁.setSlice s).finish market updateTime direction data))
    (hhas : book₁.Has (positionKey direction data.exchangeId data.instrumentId)) :
    (s.asset.frozenCash = book.state.asset.frozenCash ∧
      s.asset.frozenMargin = book.state.asset.frozenMargin ∧
      s.asset.accumulatedFee = book.state.asset.accumulatedFee ∧
      s.asset.avail = book.state.asset.avail ∧
      s.assetMargin.cashDebt = book.state.assetMargin.cashDebt ∧
      s.assetMargin.shortCash = book.state.assetMargin.shortCash) ∧
    s.position.untimed = p.untimed := by
  obtain ⟨hfields, hpositions⟩ := h.of_finish (grows_setSlice s hhas)
  refine ⟨hfields, ?_⟩
  have hkey := hpositions key
  rw [lookup_setSlice, hp] at hkey
  exact Option.some.inj hkey

/-- The account of a book after an update of stocks that had the position. -/
theorem exists_stock_of_has (h : book.applyAndUpdate market .stock updateTime data = .ok book')
    (hown : getDirection data.instrumentType data.side data.offset = .ok own)
    (hhas : book.Has (positionKey own data.exchangeId data.instrumentId)) :
    ∃ p, book.state.positions.lookup (positionKey own data.exchangeId data.instrumentId) = some p ∧
      book' = ((book.emplace data).setSlice
        (StockAccountingMethod.effect StockAccountingMethod.stock market
          ((book.emplace data).getFrozenPrice data.orderId) data
          ⟨book.state.asset, book.state.assetMargin, p⟩)).finish market updateTime own data := by
  obtain ⟨direction, p, hdirection, hp, rfl⟩ := applyAndUpdate_stock h
  rw [hown] at hdirection
  cases hdirection
  exact ⟨p, hp.lookup_of_has hhas, rfl⟩

/-- The positions are there that a message looks at. -/
def Seen (book : AccountBook) (method : Method) (data : TradingData) : Prop :=
  ∀ own, getDirection data.instrumentType data.side data.offset = .ok own →
    book.Has (positionKey own data.exchangeId data.instrumentId) ∧
      (method = .future → FutureAccountingMethod.ableLongShortPositionMerge data.exchangeId →
        book.Has (positionKey (FutureAccountingMethod.opposite own) data.exchangeId
          data.instrumentId))

theorem Seen.mono (hgrows : Grows book book') (h : book.Seen method data) : book'.Seen method data :=
  fun own hown => ⟨hgrows (h own hown).1, fun hmethod hmerge => hgrows ((h own hown).2 hmethod hmerge)⟩

section Futures

open FutureAccountingMethod

/-- With the positions there, the offset is decided without making any. -/
theorem getOffset_of_seen (hown : getDirection data.instrumentType data.side data.offset = .ok own)
    (hseen : book.Seen .future data) :
    getOffset book data = .ok (decidedOffset book.holdings data, book) := by
  obtain ⟨hhas, hopposite⟩ := hseen own hown
  unfold getOffset decidedOffset
  split
  · rename_i hmerge
    obtain ⟨p, hp⟩ := has_iff_exists.mp hhas
    obtain ⟨q, hq⟩ := has_iff_exists.mp (hopposite rfl hmerge)
    simp only [hown, orThrow, Except.mapError, Outcome.ok_bind, getPosition_of_lookup hp,
      getPosition_of_lookup hq, holdings_position]
    rfl
  · rfl

/-- The decided direction is the message's own, or the other one where positions merge. -/
theorem has_decided (hown : getDirection data.instrumentType data.side data.offset = .ok own)
    (hseen : book.Seen .future data)
    (hdirection : getDirection data.instrumentType data.side (decidedOffset book.holdings data) =
      .ok direction) : book.Has (positionKey direction data.exchangeId data.instrumentId) := by
  obtain ⟨hhas, hopposite⟩ := hseen own hown
  by_cases hmerge : ableLongShortPositionMerge data.exchangeId = true
  · have hboth : direction = own ∨ direction = opposite own := by
      cases direction <;> cases own <;> simp [opposite]
    rcases hboth with rfl | rfl
    · exact hhas
    · exact hopposite rfl hmerge
  · rw [decidedOffset, if_neg hmerge, hown] at hdirection
    cases hdirection
    exact hhas

/-- A change of a position that is there. -/
theorem exists_onOffsetPosition_of_seen
    (hown : getDirection data.instrumentType data.side data.offset = .ok own)
    (hseen : book.Seen .future data) {f : Offset → ∀ {key : PositionKey}, Slice key → Slice key}
    (h : onOffsetPosition book data f = .ok book') :
    ∃ direction q, getDirection data.instrumentType data.side (decidedOffset book.holdings data) =
        .ok direction ∧
      book.state.positions.lookup (positionKey direction data.exchangeId data.instrumentId) =
        some q ∧
      book' = book.setSlice (f (decidedOffset book.holdings data)
        ⟨book.state.asset, book.state.assetMargin, q⟩) := by
  unfold onOffsetPosition at h
  rw [getOffset_of_seen hown hseen, Outcome.ok_bind] at h
  obtain ⟨direction, hdirection⟩ := exists_getDirection_offset
    hown
  obtain ⟨q, hq⟩ := has_iff_exists.mp (has_decided hown hseen hdirection)
  simp only [hdirection, orThrow, Except.mapError, Outcome.ok_bind, getPosition_of_lookup hq, onSlice,
    slice, position, hq, Option.getD_some] at h
  cases h
  exact ⟨direction, q, hdirection, hq, rfl⟩

/-- The account of a book after an update of futures that had the positions. -/
theorem exists_future_of_seen (h : book.applyAndUpdate market .future updateTime data = .ok book')
    (hown : getDirection data.instrumentType data.side data.offset = .ok own)
    (hseen : book.Seen .future data)
    (hterminal : ∀ i, data ≠ .orderInput i)
    (hfinal : ∀ o, data = .order o → isFinalStatus o.status = true) :
    ∃ (direction : Direction) (q : Position (positionKey direction data.exchangeId data.instrumentId))
        (b : AccountBook),
      getDirection data.instrumentType data.side (decidedOffset book.holdings data) =
        .ok direction ∧
      book.state.positions.lookup (positionKey direction data.exchangeId data.instrumentId) =
        some q ∧ b.state = book.state ∧
      book' = (b.setSlice (effect market (book.getFrozenPrice data.orderId) data
        (decidedOffset book.holdings data)
        ⟨book.state.asset, book.state.assetMargin, q⟩)).finish market updateTime own data := by
  obtain ⟨own', p, book₁, hown', hp, happly, rfl⟩ := exists_of_applyAndUpdate h
  rw [hown] at hown'
  cases hown'
  rw [setPosition_of_lookup (hp.lookup_of_has (hseen own hown).1)] at happly
  have hstep : ∃ b : AccountBook, b.state = book.state ∧ onOffsetPosition b data (fun offset =>
      effect market (book.getFrozenPrice data.orderId) data offset) = .ok book₁ := by
    cases data with
    | orderInput i => exact absurd rfl (hterminal i)
    | order order =>
        simp only [Method.apply, applyOrder_of_final (hfinal order rfl)
          (book.getFrozenPrice order.orderId)] at happly
        exact ⟨_, state_emplaceOrder book order, happly⟩
    | trade trade =>
        simp only [Method.apply, applyTrade_eq] at happly
        exact ⟨_, state_emplaceTrade trade, happly⟩
  obtain ⟨b, hstate, hstep⟩ := hstep
  have hholdings : b.holdings = book.holdings := holdings_congr (by rw [hstate])
  obtain ⟨direction, q, hdirection, hq, rfl⟩ :=
    exists_onOffsetPosition_of_seen hown (hseen.mono (Grows.of_state_eq hstate)) hstep
  rw [hholdings] at hdirection
  rw [hstate] at hq
  refine ⟨direction, q, b, hdirection, hq, hstate, ?_⟩
  rw [hholdings, hstate]

end Futures

/-! ## Exactly when nothing changes -/

/-- A final order, or a trade of something. -/
def Terminal (market : Market) : TradingData → Prop
  | .orderInput _ => False
  | .order order => isFinalStatus order.status
  | .trade trade => Executed market trade

instance (market : Market) : DecidablePred (Terminal market)
  | .orderInput _ => isFalse id
  | .order order => inferInstanceAs (Decidable (isFinalStatus order.status = true))
  | .trade trade => inferInstanceAs (Decidable (Executed market trade))

/-- A final order has nothing left to give back; a trade is of a side that is not accounted
for. -/
def Spent (market : Market) (book : AccountBook) : Method → TradingData → Prop
  | .stock, .order order => ∀ direction,
      getDirection order.instrumentType order.side order.details.offset = .ok direction →
        StockSpent market ((book.emplaceOrder order).getFrozenPrice order.orderId) order
          (book.position direction order.exchangeId order.instrumentId)
  | .future, .order order => ∀ direction,
      getDirection order.instrumentType order.side (decidedOffset book.holdings (.order order)) =
          .ok direction →
        FutureSpent market order (decidedOffset book.holdings (.order order))
          (book.position direction order.exchangeId order.instrumentId)
  | .stock, .trade trade => isTraded trade.side = false
  | _, _ => False

/-- In an account without credit nothing is owed on positions. -/
def OwesNothing (book : AccountBook) : Prop :=
  book.state.assetMargin.totalAsset = 0 → book.Forall fun p => p.margin = 0

/-- A second delivery to a book of stocks. -/
theorem stock_unchanged_iff (hfresh : book.Fresh market) (hseen : book.Seen .stock data)
    (hterminal : Terminal market data)
    (h : book.applyAndUpdate market .stock updateTime data = .ok book') :
    (Spent market book .stock data → Unchanged book book') ∧
      (OwesNothing book → Unchanged book book' → Spent market book .stock data) := by
  obtain ⟨own, -, -, hown, -⟩ := exists_of_applyAndUpdate h
  obtain ⟨hhas, -⟩ := hseen own hown
  obtain ⟨p, hp, rfl⟩ := exists_stock_of_has h hown hhas
  have hhas' : (book.emplace data).Has (positionKey own data.exchangeId data.instrumentId) := by
    rw [Has, state_emplace]
    exact hhas
  have hsame : ∀ {s : Slice _}, s = ⟨book.state.asset, book.state.assetMargin, p⟩ →
      Unchanged book (((book.emplace data).setSlice s).finish market updateTime own data) := by
    rintro s rfl
    exact unchanged_finish hfresh (state_setSlice_of_lookup hp (state_emplace book data)) hhas
  cases data with
  | orderInput i => exact absurd hterminal id
  | order order =>
      have hposition : book.position own order.exchangeId order.instrumentId = p :=
        position_of_lookup hp
      constructor
      · intro hspent
        have hspent' := hspent own hown
        rw [hposition] at hspent'
        exact hsame (effect_of_stockSpent hterminal hspent')
      · intro _ hunchanged direction hdirection
        cases hown.symm.trans hdirection
        obtain ⟨⟨hcash, hmargin, -⟩, hsame'⟩ := hunchanged.of_setSlice hp hhas'
        rw [hposition]
        exact stockSpent_of_effect hterminal hcash hmargin hsame'
  | trade trade =>
      constructor
      · intro hspent
        exact hsame (effect_of_not_isTraded hspent)
      · intro howes hunchanged
        obtain ⟨⟨-, -, hfee, havail, hdebt, hshort⟩, hsame'⟩ := hunchanged.of_setSlice hp hhas'
        have hvolume := congrArg Position.volume hsame'
        change isTraded trade.side = false
        by_contra htraded
        apply effect_trade_ne rfl (Bool.not_eq_false _ ▸ htraded) hterminal ?_
          ⟨hfee, havail, hdebt, hshort, hvolume⟩
        exact fun htotal => howes htotal _ p hp

/-- A second delivery to a book of futures. -/
theorem future_unchanged_iff (hfresh : book.Fresh market) (hseen : book.Seen .future data)
    (hterminal : Terminal market data)
    (h : book.applyAndUpdate market .future updateTime data = .ok book') :
    Unchanged book book' ↔ Spent market book .future data := by
  obtain ⟨own, -, -, hown, -⟩ := exists_of_applyAndUpdate h
  obtain ⟨hhas, -⟩ := hseen own hown
  have hinput : ∀ i, data ≠ .orderInput i := by
    rintro i rfl
    exact hterminal
  have hfinal : ∀ o, data = .order o → isFinalStatus o.status = true := by
    rintro o rfl
    exact hterminal
  obtain ⟨direction, q, b, hdirection, hq, hstate, rfl⟩ :=
    exists_future_of_seen h hown hseen hinput hfinal
  have hhas' : b.Has (positionKey own data.exchangeId data.instrumentId) := by
    rw [Has, hstate]
    exact hhas
  cases data with
  | orderInput i => exact absurd rfl (hinput i)
  | order order =>
      have hposition : book.position direction order.exchangeId order.instrumentId = q :=
        position_of_lookup hq
      constructor
      · intro hunchanged direction' hdirection'
        cases hdirection.symm.trans hdirection'
        obtain ⟨⟨-, hmargin, -⟩, hsame⟩ := hunchanged.of_setSlice hq hhas'
        rw [hposition]
        exact futureSpent_of_effect hterminal hmargin hsame
      · intro hspent
        have hspent' := hspent direction hdirection
        rw [hposition] at hspent'
        rw [effect_of_futureSpent hterminal hspent']
        exact unchanged_finish hfresh (state_setSlice_of_lookup hq hstate) hhas
  | trade trade =>
      refine ⟨fun hunchanged => ?_, fun hspent => absurd hspent id⟩
      obtain ⟨-, hsame⟩ := hunchanged.of_setSlice hq hhas'
      have hvolume := congrArg Position.volume hsame
      have hmoved := congrArg Volumes.volume (FutureAccountingMethod.ofPosition_effect market
        (⟨book.state.asset, book.state.assetMargin, q⟩ : Slice _) (book.getFrozenPrice trade.orderId)
        (.trade trade) (decidedOffset book.holdings (.trade trade)))
      exact volume_apply_trade_ne hterminal.1 (hmoved.symm.trans hvolume)

/-! ## Runs -/

open FutureAccountingMethod in
/-- Where positions merge, futures make the one of the other side. -/
theorem has_opposite_of_apply
    (hown : getDirection data.instrumentType data.side data.offset = .ok own)
    (hhas : book.Has (positionKey own data.exchangeId data.instrumentId))
    (hterminal : Terminal market data) (hmerge : ableLongShortPositionMerge data.exchangeId)
    (h : Method.future.apply market book data = .ok book') :
    book'.Has (positionKey (opposite own) data.exchangeId data.instrumentId) := by
  have hmade : ∀ (b : AccountBook) (f : Offset → ∀ {key : PositionKey}, Slice key → Slice key),
      b.state = book.state → onOffsetPosition b data f = .ok book' →
        book'.Has (positionKey (opposite own) data.exchangeId data.instrumentId) := by
    intro b f hstate hok
    obtain ⟨b', hb', -, hopposite⟩ := exists_onOffsetPosition hown
      (Grows.of_state_eq hstate hhas) f
    rw [hok] at hb'
    cases hb'
    exact hopposite hmerge
  cases data with
  | orderInput i => exact absurd hterminal id
  | order order =>
      simp only [Method.apply, applyOrder_of_final hterminal 0] at h
      exact hmade _ _ (state_emplaceOrder book order) h
  | trade trade =>
      simp only [Method.apply, applyTrade_eq] at h
      exact hmade _ _ (state_emplaceTrade trade) h

/-- The positions of a message are there after it. -/
theorem seen_of_applyAndUpdate (hmethod : method ≠ .crypto) (hterminal : Terminal market data)
    (h : book.applyAndUpdate market method updateTime data = .ok book') : book'.Seen method data := by
  obtain ⟨own, p, book₁, hown, -, happly, rfl⟩ := exists_of_applyAndUpdate h
  have hself : (book.setPosition p).Has _ := has_setPosition_self p
  intro own' hown'
  cases hown.symm.trans hown'
  constructor
  · obtain ⟨b, hb, hgrows⟩ := completes_apply hmethod hown hself
    rw [happly] at hb
    cases hb
    exact grows_finish (hgrows hself)
  · rintro rfl hmerge
    exact grows_finish (has_opposite_of_apply hown hself hterminal hmerge happly)

theorem exists_ofInstrumentType (type : InstrumentType) :
    ∃ method, Method.ofInstrumentType type = some method := by
  cases type <;> exact ⟨_, rfl⟩

/-- After a run the sums are those over the positions, and the positions of all messages that
were applied are there. -/
theorem fresh_and_seen_applyUpdates {us : List Update} (h : book.applyUpdates market us = .ok book') :
    (us ≠ [] → book'.Fresh market) ∧ ∀ u ∈ us, ∀ method,
      Method.ofInstrumentType u.data.instrumentType = some method → method ≠ .crypto →
        Terminal market u.data → book'.Seen method u.data := by
  apply Outcome.foldlM_invariant (I := fun done b => (done ≠ [] → b.Fresh market) ∧
    ∀ u ∈ done, ∀ method, Method.ofInstrumentType u.data.instrumentType = some method →
      method ≠ .crypto → Terminal market u.data → b.Seen method u.data) ⟨by simp, by simp⟩ ?_ h
  rintro done u todo b b' - ⟨-, hseen⟩ hstep
  obtain ⟨method, hmethod⟩ := exists_ofInstrumentType u.data.instrumentType
  rw [applyUpdate, hmethod] at hstep
  have hgrows := grows_applyAndUpdate hstep
  constructor
  · intro _
    obtain ⟨own, p, book₁, -, -, -, rfl⟩ := exists_of_applyAndUpdate hstep
    exact fresh_finish
  · intro u' hu' method' hmethod' hcrypto hterminal
    rcases List.mem_append.mp hu' with hu' | hu'
    · exact (hseen u' hu' method' hmethod' hcrypto hterminal).mono hgrows
    · cases List.mem_singleton.mp hu'
      rw [hmethod] at hmethod'
      cases hmethod'
      exact seen_of_applyAndUpdate hcrypto hterminal hstep

end Book

section Redelivery

variable {app : App} {market : Market} {method : Method} {books books₁ books₂ : Books} {uid : UInt32}
  {us : List Update} {u again : Update} {start : AccountBook}

/-- The order to sell is done, and is reported once more. -/
def exampleOrderAgain : Update :=
  let details : Details := ⟨.Open, .Speculation, 0, 0, 0⟩
  let sell : OrderInput Details := ⟨2, 0, "600036", "SSE", .Stock, 11, 11, 50, .Sell, .Limit, details⟩
  ⟨9, 10, 77, .order { orderFromInput sell with volumeLeft := 0, status := .Filled }⟩

/-- The trade of 60 shares is reported once more. -/
def exampleTradeAgain : Update :=
  ⟨9, 10, 77, .trade ⟨9, 1, "", "", "600000", "SSE", .Stock, .Buy, 60,
    ⟨.Open, .Speculation, 19 / 2, 0, 1⟩⟩⟩

end Redelivery

end Kungfu.Wingchun
