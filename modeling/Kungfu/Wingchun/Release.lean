import Kungfu.Logic.Binary64
import Kungfu.Wingchun.StockFrozen

/-!
# Freezing and giving back

The input of an order freezes money, margin or volume, and an order that ends without a trade gives
it back.  Whether the book is then as it was before depends on the side and on what else is frozen:
volume that is frozen beyond yesterday's is given back as yesterday's, and the margin of margin
trading becomes available twice.
-/

namespace Kungfu.Wingchun

open Logic (Binary64)
open Longfist TradingData

/-! ## Volumes -/

namespace Volumes

variable (n : ℤ) (v : Volumes)

/-- What is frozen can be given back: as much of yesterday's volume as is given back was frozen. -/
def Restorable : Prop :=
  0 ≤ v.frozenTotal ∧
    if n ≤ v.yesterdayVolume - v.frozenYesterday then 0 ≤ v.frozenYesterday
    else max (v.yesterdayVolume - n) 0 = v.frozenYesterday

instance : Decidable (Restorable n v) := inferInstanceAs (Decidable (_ ∧ _))

/-- To close today's volume freezes nothing of yesterday's. -/
def RestorableToday : Prop := 0 ≤ v.frozenTotal ∨ n = 0

instance : Decidable (RestorableToday n v) := inferInstanceAs (Decidable (_ ∨ _))

theorem unfreeze_freeze_iff : (v.freeze n).unfreeze n = v ↔ Restorable n v := by
  obtain ⟨volume, yesterdayVolume, frozenTotal, frozenYesterday⟩ := v
  simp only [freeze, unfreeze, Restorable, Volumes.mk.injEq, true_and]
  split <;> omega

theorem unfreezeToday_freezeToday_iff :
    (v.freezeToday n).unfreezeToday n = v ↔ RestorableToday n v := by
  obtain ⟨volume, yesterdayVolume, frozenTotal, frozenYesterday⟩ := v
  simp only [unfreezeToday, RestorableToday]
  split
  · simp only [freezeToday, Volumes.mk.injEq, true_and, and_true] at *
    omega
  · simp only [freezeToday, Volumes.mk.injEq, true_and, and_true] at *
    omega

end Volumes

/-! ## Orders without trades -/

/-- An order that ends with a status, and nothing of it was traded. -/
def untradedOrder (i : OrderInput Details) (status : OrderStatus) : Order Details :=
  { orderFromInput i with status := status }

/-- A book has what it had. -/
structure Restored (book book' : AccountBook) : Prop where
  avail : book'.state.asset.avail = book.state.asset.avail
  frozenCash : book'.state.asset.frozenCash = book.state.asset.frozenCash
  frozenMargin : book'.state.asset.frozenMargin = book.state.asset.frozenMargin
  assetMargin : book'.state.assetMargin = book.state.assetMargin
  holdings : book'.holdings = book.holdings

/-- The rates of an instrument. -/
def instrConversionMarginRate (market : Market) (hash : UInt32) : ContractDiscountAndMarginRatio :=
  match market.instruments hash with
  | none => ⟨1, 10066330 / 16777216, 11744051 / 16777216, market.exchangeRate hash⟩
  | some instrument =>
      ⟨instrument.longMarginRatio, instrument.shortMarginRatio, instrument.conversionRate,
        market.exchangeRate hash⟩

theorem exchangeRate_instrConversionMarginRate (market : Market) (hash : UInt32) :
    (instrConversionMarginRate market hash).exchangeRate = market.exchangeRate hash := by
  unfold instrConversionMarginRate
  cases market.instruments hash <;> rfl

theorem getInstrConversionMarginRate_eq {key : PositionKey} (market : Market) (p : Position key) :
    StockAccountingMethod.getInstrConversionMarginRate market p =
      instrConversionMarginRate market key.hash := by
  cases hrates : market.instruments key.hash <;>
    simp [StockAccountingMethod.getInstrConversionMarginRate, instrConversionMarginRate, p.hashed,
      hrates]

/-- Cash is given back as it was frozen if the amounts agree, volume if it was frozen as it is given
back, and margin, which becomes available twice, only where there is none. -/
def GivesBack (cdMr : ContractDiscountAndMarginRatio) (frozen released : ℚ) (n : ℤ) (side : Side)
    (v : Volumes) : Prop :=
  match side with
  | .Sell | .RepayMargin => v.Restorable n
  | .Buy => released = frozen
  | .RepayStock => released = frozen ∧ v.Restorable n
  | .MarginTrade => frozen * cdMr.longMarginRatio = 0 ∧ released * cdMr.longMarginRatio = 0
  | .ShortSell => frozen * cdMr.shortMarginRatio = 0 ∧ released * cdMr.shortMarginRatio = 0
  | _ => True

instance (cdMr : ContractDiscountAndMarginRatio) (frozen released : ℚ) (n : ℤ) (side : Side)
    (v : Volumes) : Decidable (GivesBack cdMr frozen released n side v) :=
  match side with
  | .Sell | .RepayMargin => inferInstanceAs (Decidable (v.Restorable n))
  | .Buy => inferInstanceAs (Decidable (released = frozen))
  | .RepayStock | .MarginTrade | .ShortSell => inferInstanceAs (Decidable (_ ∧ _))
  | .Lock | .Unlock | .Exec | .Drop | .Purchase | .Redemption | .Split | .Merge | .CashRepayMargin
  | .StockRepayStock | .SurplusStockTransfer | .GuaranteeStockTransferIn
  | .GuaranteeStockTransferOut | .Unknown =>
      isTrue trivial

section Conditions

variable (market : Market) (book : AccountBook) (i : OrderInput Details)

/-- The cash or the value that an order freezes. -/
def frozenAmount : ℚ :=
  i.volume.toInt * i.frozenPrice * market.exchangeRate (hashInstrument i.exchangeId i.instrumentId)

/-- The price that the book finds for the order when it ends. -/
def releasePrice : ℚ := (book.emplaceOrder (orderFromInput i)).getFrozenPrice i.orderId

/-- What the order gives back. -/
def releasedAmount : ℚ :=
  releasePrice book i * i.volume.toInt *
    market.exchangeRate (hashInstrument i.exchangeId i.instrumentId)

/-- An order of stocks gives back what it froze. -/
def StockRestorable (key : PositionKey) : Prop :=
  GivesBack (instrConversionMarginRate market key.hash) (frozenAmount market i)
    (releasedAmount market book i) i.volume.toInt i.side (book.holdings key)

/-- An order of futures gives back what it froze, if it opens or if volume was frozen as it is given
back. -/
def FutureRestorable (offset : Offset) (key : PositionKey) : Prop :=
  match offset with
  | .Open => True
  | .Close | .CloseYesterday => (book.holdings key).Restorable i.volume.toInt
  | .CloseToday => (book.holdings key).RestorableToday i.volume.toInt

/-- When an order gives back what it froze. -/
def Restorable : Method → Prop
  | .stock => ∀ direction ∈ (getDirection i.instrumentType i.side i.details.offset).toOption,
      StockRestorable market book i (positionKey direction i.exchangeId i.instrumentId)
  | .future =>
      let offset := decidedOffset book.holdings (.orderInput i)
      ∀ direction ∈ (getDirection i.instrumentType i.side offset).toOption,
        FutureRestorable book i offset (positionKey direction i.exchangeId i.instrumentId)
  | _ => True

end Conditions

section Slices

variable {key : PositionKey} {market : Market} {i : OrderInput Details} {status : OrderStatus}
  {price : ℚ} {s : Slice key}

/-- A slice has what another has. -/
structure SameSlice (s s' : Slice key) : Prop where
  avail : s'.asset.avail = s.asset.avail
  frozenCash : s'.asset.frozenCash = s.asset.frozenCash
  frozenMargin : s'.asset.frozenMargin = s.asset.frozenMargin
  assetMargin : s'.assetMargin = s.assetMargin
  volumes : Volumes.ofPosition s'.position = Volumes.ofPosition s.position

/-! ### Stocks -/

open StockAccountingMethod in
/-- A slice after an order of stocks that was not traded. -/
def stockReleased (market : Market) (price : ℚ) (i : OrderInput Details) (status : OrderStatus)
    (s : Slice key) : Slice key :=
  effect stock market price (.order (untradedOrder i status)) (applyInput market i s)

theorem ofPosition_stockReleased (hfinal : isFinalStatus status) :
    Volumes.ofPosition (stockReleased market price i status s).position =
      if closes i.side then
        ((Volumes.ofPosition s.position).freeze i.volume.toInt).unfreeze i.volume.toInt
      else Volumes.ofPosition s.position := by
  have hinput := ofPosition_effect_stock market price (.orderInput i) s
  change Volumes.ofPosition (StockAccountingMethod.applyInput market i s).position = _ at hinput
  rw [stockReleased, ofPosition_effect_stock, hinput]
  simp only [Volumes.applyStock, untradedOrder, orderFromInput, hfinal, true_and]
  split <;> rfl

/-- What was frozen of the volume is given back. -/
theorem volumes_stockReleased_iff (hfinal : isFinalStatus status) (hcloses : closes i.side) :
    Volumes.ofPosition (stockReleased market price i status s).position =
        Volumes.ofPosition s.position ↔
      (Volumes.ofPosition s.position).Restorable i.volume.toInt := by
  rw [ofPosition_stockReleased hfinal, if_pos hcloses]
  exact Volumes.unfreeze_freeze_iff ..

/-- The sides whose orders freeze cash. -/
theorem money_stockReleased_cash (hfinal : isFinalStatus status)
    (hside : i.side = .Buy ∨ i.side = .RepayStock) :
    let rate := (instrConversionMarginRate market key.hash).exchangeRate
    (stockReleased market price i status s).asset =
        StockAccountingMethod.freezeCash (-(price * i.volume.toInt * rate))
          (StockAccountingMethod.freezeCash (i.volume.toInt * i.frozenPrice * rate) s.asset) ∧
      (stockReleased market price i status s).assetMargin = s.assetMargin := by
  rcases hside with hside | hside <;>
    simp [stockReleased, StockAccountingMethod.effect, StockAccountingMethod.applyInput,
      StockAccountingMethod.applyFinalOrder, untradedOrder, orderFromInput, hside, hfinal,
      getInstrConversionMarginRate_eq]

/-- The sides whose orders freeze no money. -/
theorem money_stockReleased_volume (hfinal : isFinalStatus status)
    (hside : i.side ≠ .Buy ∧ i.side ≠ .RepayStock ∧ i.side ≠ .MarginTrade ∧ i.side ≠ .ShortSell) :
    (stockReleased market price i status s).asset = s.asset ∧
      (stockReleased market price i status s).assetMargin = s.assetMargin := by
  obtain ⟨hbuy, hrepay, hmargin, hshort⟩ := hside
  cases hside : i.side <;> first
    | contradiction
    | simp [stockReleased, StockAccountingMethod.effect, StockAccountingMethod.applyInput,
        StockAccountingMethod.applyFinalOrder, untradedOrder, orderFromInput, hside, hfinal]

/-- The margin that was frozen is released once from what is frozen, and becomes available twice. -/
theorem money_stockReleased_marginTrade (hfinal : isFinalStatus status)
    (hside : i.side = .MarginTrade) :
    let cdMr := instrConversionMarginRate market key.hash
    let frozen := i.volume.toInt * i.frozenPrice * cdMr.exchangeRate * cdMr.longMarginRatio
    let released := price * cdMr.exchangeRate * i.volume.toInt * cdMr.longMarginRatio
    (stockReleased market price i status s).asset =
        { s.asset with frozenMargin := s.asset.frozenMargin + frozen - released } ∧
      (stockReleased market price i status s).assetMargin = { s.assetMargin with
        availMargin := s.assetMargin.availMargin - frozen + released + released
        cashMargin := s.assetMargin.cashMargin + frozen - released
        margin := s.assetMargin.margin + frozen - released } := by
  simp [stockReleased, StockAccountingMethod.effect, StockAccountingMethod.applyInput,
    StockAccountingMethod.applyFinalOrder, untradedOrder, orderFromInput, hside, hfinal,
    getInstrConversionMarginRate_eq]

theorem money_stockReleased_shortSell (hfinal : isFinalStatus status) (hside : i.side = .ShortSell) :
    let cdMr := instrConversionMarginRate market key.hash
    let frozen := i.volume.toInt * i.frozenPrice * cdMr.exchangeRate * cdMr.shortMarginRatio
    let released := price * cdMr.exchangeRate * i.volume.toInt * cdMr.shortMarginRatio
    (stockReleased market price i status s).asset =
        { s.asset with frozenMargin := s.asset.frozenMargin + frozen - released } ∧
      (stockReleased market price i status s).assetMargin = { s.assetMargin with
        availMargin := s.assetMargin.availMargin - frozen + released + released
        shortMargin := s.assetMargin.shortMargin + frozen - released
        margin := s.assetMargin.margin + frozen - released } := by
  simp [stockReleased, StockAccountingMethod.effect, StockAccountingMethod.applyInput,
    StockAccountingMethod.applyFinalOrder, untradedOrder, orderFromInput, hside, hfinal,
    getInstrConversionMarginRate_eq]

/-- Cash that is frozen and given back is as it was if both are the same amount. -/
theorem sameSlice_iff_of_cash {s' : Slice key} {frozen released : ℚ}
    (hasset : s'.asset = StockAccountingMethod.freezeCash (-released)
      (StockAccountingMethod.freezeCash frozen s.asset))
    (hmargin : s'.assetMargin = s.assetMargin) : SameSlice s s' ↔
      released = frozen ∧ Volumes.ofPosition s'.position = Volumes.ofPosition s.position := by
  constructor
  · intro h
    have havail := h.avail
    simp only [hasset, StockAccountingMethod.freezeCash] at havail
    exact ⟨by linarith, h.volumes⟩
  · rintro ⟨rfl, hvolumes⟩
    refine ⟨?_, ?_, ?_, hmargin, hvolumes⟩ <;> simp [hasset, StockAccountingMethod.freezeCash]

/-- Margin that becomes available twice is as it was only if there is none. -/
theorem sameSlice_iff_of_margin {s' : Slice key} {frozen released : ℚ}
    (hasset : s'.asset = { s.asset with frozenMargin := s.asset.frozenMargin + frozen - released })
    (havail : s'.assetMargin.availMargin =
      s.assetMargin.availMargin - frozen + released + released)
    (hmargin : frozen = 0 → released = 0 → s'.assetMargin = s.assetMargin)
    (hvolumes : Volumes.ofPosition s'.position = Volumes.ofPosition s.position) :
    SameSlice s s' ↔ frozen = 0 ∧ released = 0 := by
  constructor
  · intro h
    have hfrozen := h.frozenMargin
    have havail' := congrArg AssetMargin.availMargin h.assetMargin
    rw [hasset] at hfrozen
    rw [havail] at havail'
    dsimp only at hfrozen
    exact ⟨by linarith, by linarith⟩
  · rintro ⟨hfrozen, hreleased⟩
    refine ⟨?_, ?_, ?_, hmargin hfrozen hreleased, hvolumes⟩ <;> simp [hasset, hfrozen, hreleased]

theorem sameSlice_stockReleased_iff (hfinal : isFinalStatus status) :
    SameSlice s (stockReleased market price i status s) ↔
      GivesBack (instrConversionMarginRate market key.hash)
        (i.volume.toInt * i.frozenPrice * (instrConversionMarginRate market key.hash).exchangeRate)
        (price * i.volume.toInt * (instrConversionMarginRate market key.hash).exchangeRate)
        i.volume.toInt i.side (Volumes.ofPosition s.position) := by
  set cdMr := instrConversionMarginRate market key.hash
  set frozen := i.volume.toInt * i.frozenPrice * cdMr.exchangeRate
  set released := price * i.volume.toInt * cdMr.exchangeRate
  have hclosing := @volumes_stockReleased_iff _ market i status price s hfinal
  have hopening : ¬ closes i.side → Volumes.ofPosition (stockReleased market price i status s).position =
      Volumes.ofPosition s.position := by
    intro hcloses
    rw [ofPosition_stockReleased hfinal, if_neg hcloses]
  have hvolume : (i.side ≠ .Buy ∧ i.side ≠ .RepayStock ∧ i.side ≠ .MarginTrade ∧
      i.side ≠ .ShortSell) → (SameSlice s (stockReleased market price i status s) ↔
        Volumes.ofPosition (stockReleased market price i status s).position =
          Volumes.ofPosition s.position) := by
    intro hside
    obtain ⟨hasset, hmargin⟩ := @money_stockReleased_volume _ market i status price s hfinal hside
    refine ⟨fun h => h.volumes, fun h => ⟨?_, ?_, ?_, hmargin, h⟩⟩ <;> rw [hasset]
  cases hside : i.side <;> simp only [GivesBack]
  case Buy =>
      obtain ⟨hasset, hmargin⟩ :=
        @money_stockReleased_cash _ market i status price s hfinal (.inl hside)
      rw [sameSlice_iff_of_cash hasset hmargin]
      exact and_iff_left (hopening (by simp [hside, closes]))
  case RepayStock =>
      obtain ⟨hasset, hmargin⟩ :=
        @money_stockReleased_cash _ market i status price s hfinal (.inr hside)
      rw [sameSlice_iff_of_cash hasset hmargin, hclosing (by simp [hside, closes])]
  case Sell | RepayMargin =>
      rw [hvolume (by simp [hside]), hclosing (by simp [hside, closes])]
  case MarginTrade =>
      obtain ⟨hasset, hmargin⟩ :=
        @money_stockReleased_marginTrade _ market i status price s hfinal hside
      have hreleased : released * cdMr.longMarginRatio =
          price * cdMr.exchangeRate * i.volume.toInt * cdMr.longMarginRatio := by ring
      rw [hreleased]
      apply sameSlice_iff_of_margin hasset (by rw [hmargin])
      · intro hfrozen hzero
        rw [hmargin]
        simp [hfrozen, hzero]
      · exact hopening (by simp [hside, closes])
  case ShortSell =>
      obtain ⟨hasset, hmargin⟩ :=
        @money_stockReleased_shortSell _ market i status price s hfinal hside
      have hreleased : released * cdMr.shortMarginRatio =
          price * cdMr.exchangeRate * i.volume.toInt * cdMr.shortMarginRatio := by ring
      rw [hreleased]
      apply sameSlice_iff_of_margin hasset (by rw [hmargin])
      · intro hfrozen hzero
        rw [hmargin]
        simp [hfrozen, hzero]
      · exact hopening (by simp [hside, closes])
  all_goals
      rw [hvolume (by simp [hside]), iff_true]
      exact hopening (by simp [hside, closes])

/-! ### Futures -/

open FutureAccountingMethod in
/-- A slice after an order of futures that was not traded. -/
def futureReleased (market : Market) (offset : Offset) (i : OrderInput Details)
    (status : OrderStatus) (s : Slice key) : Slice key :=
  applyFinalOrder market (untradedOrder i status) offset (applyInput market i offset s)

theorem ofPosition_futureReleased (hfinal : isFinalStatus status) (offset : Offset) :
    Volumes.ofPosition (futureReleased market offset i status s).position =
      Volumes.apply offset (.order (untradedOrder i status))
        (Volumes.apply offset (.orderInput i) (Volumes.ofPosition s.position)) := by
  have hinput := FutureAccountingMethod.ofPosition_effect market s 0 (.orderInput i) offset
  have horder := FutureAccountingMethod.ofPosition_effect market
    (FutureAccountingMethod.applyInput market i offset s) 0 (.order (untradedOrder i status)) offset
  simp only [FutureAccountingMethod.effect, untradedOrder, hfinal, if_true] at hinput horder
  rw [futureReleased, untradedOrder, horder, hinput]

theorem sameSlice_futureReleased_iff (hfinal : isFinalStatus status) {offset : Offset} :
    SameSlice s (futureReleased market offset i status s) ↔ match offset with
      | .Open => True
      | .Close | .CloseYesterday => (Volumes.ofPosition s.position).Restorable i.volume.toInt
      | .CloseToday => (Volumes.ofPosition s.position).RestorableToday i.volume.toInt := by
  have hasset : offset ≠ .Open →
      (futureReleased market offset i status s).asset = s.asset ∧
        (futureReleased market offset i status s).assetMargin = s.assetMargin := by
    intro hclose
    cases offset <;> first | contradiction | exact ⟨rfl, rfl⟩
  have hsame : offset ≠ .Open → (SameSlice s (futureReleased market offset i status s) ↔
      Volumes.ofPosition (futureReleased market offset i status s).position =
        Volumes.ofPosition s.position) := by
    intro hclose
    obtain ⟨hasset, hmargin⟩ := hasset hclose
    refine ⟨fun h => h.volumes, fun h => ⟨?_, ?_, ?_, hmargin, h⟩⟩ <;> rw [hasset]
  cases offset with
  | Open =>
      refine iff_of_true ?_ trivial
      refine ⟨?_, ?_, ?_, rfl, ?_⟩
      · simp [futureReleased, FutureAccountingMethod.applyFinalOrder, untradedOrder, orderFromInput,
          FutureAccountingMethod.applyInput, FutureAccountingMethod.freezeMargin, Position.direction]
      · simp [futureReleased, FutureAccountingMethod.applyFinalOrder, untradedOrder, orderFromInput,
          FutureAccountingMethod.applyInput, FutureAccountingMethod.freezeMargin, Position.direction]
      · simp [futureReleased, FutureAccountingMethod.applyFinalOrder, untradedOrder, orderFromInput,
          FutureAccountingMethod.applyInput, FutureAccountingMethod.freezeMargin, Position.direction]
      · simp [futureReleased, FutureAccountingMethod.applyFinalOrder,
          FutureAccountingMethod.applyInput]
  | CloseToday =>
      rw [hsame (by simp), ← Volumes.unfreezeToday_freezeToday_iff, ofPosition_futureReleased hfinal]
      simp [Volumes.apply, untradedOrder, orderFromInput, hfinal]
  | Close | CloseYesterday =>
      rw [hsame (by simp), ← Volumes.unfreeze_freeze_iff, ofPosition_futureReleased hfinal]
      simp [Volumes.apply, untradedOrder, orderFromInput, hfinal]

end Slices

/-! ## Books -/

section Books

variable {key : PositionKey} {market : Market} {book book₁ book₂ : AccountBook} {method : Method}
  {i : OrderInput Details} {status : OrderStatus}

/-- A book is restored if its asset and the position that was changed are. -/
theorem restored_iff_sameSlice {s s' : Slice key} (hasset : s.asset = book.state.asset)
    (hmargin : s.assetMargin = book.state.assetMargin)
    (hvolumes : Volumes.ofPosition s.position = book.holdings key)
    (hasset' : book₂.state.asset = s'.asset) (hmargin' : book₂.state.assetMargin = s'.assetMargin)
    (hholdings : book₂.holdings =
      Function.update book.holdings key (Volumes.ofPosition s'.position)) :
    Restored book book₂ ↔ SameSlice s s' := by
  constructor
  · rintro ⟨havail, hcash, hfrozen, hsame, hvolumes'⟩
    rw [hasset', ← hasset] at havail hcash hfrozen
    rw [hmargin', ← hmargin] at hsame
    refine ⟨havail, hcash, hfrozen, hsame, ?_⟩
    rw [hvolumes, ← hvolumes', hholdings, Function.update_self]
  · rintro ⟨havail, hcash, hfrozen, hsame, hvolumes'⟩
    rw [hasset, ← hasset'] at havail hcash hfrozen
    rw [hmargin, ← hmargin'] at hsame
    refine ⟨havail, hcash, hfrozen, hsame, ?_⟩
    rw [hholdings, hvolumes', hvolumes, Function.update_eq_self]

/-- The price that is found for the order does not depend on how it ends. -/
theorem getFrozenPrice_untradedOrder (horders : book₁.orders = book.orders) :
    (book₁.emplaceOrder (untradedOrder i status)).getFrozenPrice i.orderId =
      releasePrice book i := by
  by_cases h : (book.orders i.orderId).isSome
  · have h' : (book₁.orders (untradedOrder i status).orderId).isSome := by
      rw [horders]
      exact h
    rw [releasePrice, Book.emplaceOrder, if_pos h', Book.emplaceOrder,
      if_pos (by exact h : (book.orders (orderFromInput i).orderId).isSome), Book.getFrozenPrice,
      horders, Book.getFrozenPrice]
  · have h' : ¬ (book₁.orders (untradedOrder i status).orderId).isSome := by
      rw [horders]
      exact h
    rw [releasePrice, Book.emplaceOrder, if_neg h', Book.emplaceOrder,
      if_neg (by exact h : ¬ (book.orders (orderFromInput i).orderId).isSome)]
    simp [Book.getFrozenPrice, untradedOrder, orderFromInput]

/-- The two messages of an order of stocks, one after the other. -/
theorem exists_stockReleased
    (h₁ : Method.stock.apply market book (.orderInput i) = .ok book₁)
    (h₂ : Method.stock.apply market book₁ (.order (untradedOrder i status)) = .ok book₂) :
    ∃ direction p,
      getDirection i.instrumentType i.side i.details.offset = .ok direction ∧
      book.Gives direction i.exchangeId i.instrumentId p ∧
      let s := stockReleased market (releasePrice book i) i status
        ⟨book.state.asset, book.state.assetMargin, p⟩
      book₂.state.asset = s.asset ∧ book₂.state.assetMargin = s.assetMargin ∧
        book₂.holdings = Function.update book.holdings
          (positionKey direction i.exchangeId i.instrumentId) (Volumes.ofPosition s.position) := by
  obtain ⟨direction, p, hdirection, hp, rfl⟩ :=
    Book.onPositionFor_eq_ok (f := fun s => StockAccountingMethod.applyInput market i s) h₁
  let s : Slice (positionKey direction i.exchangeId i.instrumentId) :=
    StockAccountingMethod.applyInput market i ⟨book.state.asset, book.state.assetMargin, p⟩
  have hheld : (book.setSlice s).setPosition s.position = book.setSlice s :=
    Book.setPosition_of_lookup (Book.lookup_setSlice s)
  have hprice : ((book.setSlice s).emplaceOrder (untradedOrder i status)).getFrozenPrice i.orderId =
      releasePrice book i := getFrozenPrice_untradedOrder rfl
  have happly : Method.stock.apply market ((book.setSlice s).setPosition s.position)
      (.order (untradedOrder i status)) =
        .ok (((book.setSlice s).emplaceOrder (untradedOrder i status)).setSlice
          (StockAccountingMethod.effect StockAccountingMethod.stock market
            (((book.setSlice s).emplaceOrder (untradedOrder i status)).getFrozenPrice i.orderId)
            (.order (untradedOrder i status)) s)) :=
    @Book.apply_stock_setPosition market (.order (untradedOrder i status)) (book.setSlice s)
      direction hdirection s.position
  rw [hheld, hprice] at happly
  cases h₂.symm.trans happly
  refine ⟨direction, p, hdirection, hp, rfl, rfl, ?_⟩
  rw [Book.holdings_setSlice, Book.holdings_congr (congrArg Account.positions
    (Book.state_emplaceOrder ..)), Book.holdings_setSlice]
  exact Function.update_idem ..

/-- Whether an order opens or closes depends on the volumes that are held. -/
theorem decidedOffset_untradedOrder {holdings holdings' : Holdings}
    (h : ∀ key, (holdings' key).volume = (holdings key).volume) :
    decidedOffset holdings' (.order (untradedOrder i status)) =
      decidedOffset holdings (.orderInput i) := by
  simp only [decidedOffset, h]
  rfl

/-- To freeze volume changes no volume. -/
theorem volume_apply_orderInput (offset : Offset) (v : Volumes) :
    (Volumes.apply offset (.orderInput i) v).volume = v.volume := by
  cases offset <;> rfl

/-- What is given back to the asset does not depend on what else is known of a position. -/
theorem applyFinalOrder_congr (market : Market) (offset : Offset) {o : Order Details} {s t : Slice key}
    (hfinal : isFinalStatus o.status) (hasset : t.asset = s.asset)
    (hmargin : t.assetMargin = s.assetMargin)
    (hvolumes : Volumes.ofPosition t.position = Volumes.ofPosition s.position) :
    let s' := FutureAccountingMethod.applyFinalOrder market o offset s
    let t' := FutureAccountingMethod.applyFinalOrder market o offset t
    t'.asset = s'.asset ∧ t'.assetMargin = s'.assetMargin ∧
      Volumes.ofPosition t'.position = Volumes.ofPosition s'.position := by
  have hs := FutureAccountingMethod.ofPosition_effect market s 0 (.order o) offset
  have ht := FutureAccountingMethod.ofPosition_effect market t 0 (.order o) offset
  simp only [FutureAccountingMethod.effect, hfinal, if_true] at hs ht
  refine ⟨?_, ?_, by rw [hs, ht, hvolumes]⟩
  · cases offset with
    | Open =>
        simp only [FutureAccountingMethod.applyFinalOrder, hasset]
        rfl
    | _ => exact hasset
  · cases offset <;> exact hmargin

/-- What the asset and the position are after the two messages of an order of futures. -/
theorem exists_futureReleased (hfinal : isFinalStatus status)
    (h₁ : Method.future.apply market book (.orderInput i) = .ok book₁)
    (h₂ : Method.future.apply market book₁ (.order (untradedOrder i status)) = .ok book₂) :
    ∃ direction : Direction, ∃ s : Slice (positionKey direction i.exchangeId i.instrumentId),
      getDirection i.instrumentType i.side (decidedOffset book.holdings (.orderInput i)) =
        .ok direction ∧
      s.asset = book.state.asset ∧ s.assetMargin = book.state.assetMargin ∧
      Volumes.ofPosition s.position =
        book.holdings (positionKey direction i.exchangeId i.instrumentId) ∧
      let s' := futureReleased market (decidedOffset book.holdings (.orderInput i)) i status s
      book₂.state.asset = s'.asset ∧ book₂.state.assetMargin = s'.assetMargin ∧
        book₂.holdings = Function.update book.holdings
          (positionKey direction i.exchangeId i.instrumentId) (Volumes.ofPosition s'.position) := by
  obtain ⟨direction, q, book₀, hdirection, halike, hq, rfl⟩ := Book.onOffsetPosition_eq_ok
    (f := fun offset _ s => FutureAccountingMethod.applyInput market i offset s) h₁
  set offset := decidedOffset book.holdings (.orderInput i) with hoffset
  let s : Slice (positionKey direction i.exchangeId i.instrumentId) :=
    ⟨book₀.state.asset, book₀.state.assetMargin, q⟩
  let s₁ := FutureAccountingMethod.applyInput market i offset s
  have hvolumes : Volumes.ofPosition s.position =
      book.holdings (positionKey direction i.exchangeId i.instrumentId) :=
    hq.ofPosition.trans (congrFun halike.holdings _)
  have hvolumes₁ := FutureAccountingMethod.ofPosition_effect market s 0 (.orderInput i) offset
  have hholdings : (book₀.setSlice s₁).holdings = Function.update book.holdings
      (positionKey direction i.exchangeId i.instrumentId) (Volumes.ofPosition s₁.position) := by
    rw [Book.holdings_setSlice, halike.holdings]
  have hstate : ((book₀.setSlice s₁).emplaceOrder (untradedOrder i status)).state =
      (book₀.setSlice s₁).state := Book.state_emplaceOrder ..
  have hholdings' := Book.holdings_congr (congrArg Account.positions hstate)
  -- freezing does not change what is decided
  have hsame : decidedOffset
      ((book₀.setSlice s₁).emplaceOrder (untradedOrder i status)).holdings
      (.order (untradedOrder i status)) = offset := by
    apply decidedOffset_untradedOrder
    intro key
    rw [hholdings', hholdings]
    by_cases hkey : key = positionKey direction i.exchangeId i.instrumentId
    · subst hkey
      rw [Function.update_self]
      exact (congrArg Volumes.volume hvolumes₁).trans
        ((volume_apply_orderInput ..).trans (congrArg Volumes.volume hvolumes))
    · rw [Function.update_of_ne hkey]
  have hend : FutureAccountingMethod.applyOrder market (book₀.setSlice s₁)
      (untradedOrder i status) = .ok book₂ := h₂
  have hfinal' : isFinalStatus (untradedOrder i status).status = true := hfinal
  rw [Book.applyOrder_of_final hfinal' 0] at hend
  obtain ⟨direction', q', book₀', hdirection', halike', hq', rfl⟩ := Book.onOffsetPosition_eq_ok hend
  rw [hsame] at hdirection' ⊢
  cases hdirection.symm.trans hdirection'
  have hq₁ : Volumes.ofPosition q' = Volumes.ofPosition s₁.position := by
    refine hq'.ofPosition.trans ?_
    rw [halike'.holdings, hholdings', hholdings]
    exact Function.update_self ..
  obtain ⟨hasset, hmargin, hvolumes'⟩ := applyFinalOrder_congr market offset
    (s := s₁) (t := ⟨book₀'.state.asset, book₀'.state.assetMargin, q'⟩) hfinal'
    (halike'.asset.trans (by rw [hstate]; rfl)) (halike'.assetMargin.trans (by rw [hstate]; rfl)) hq₁
  simp only [FutureAccountingMethod.effect, hfinal', if_true]
  refine ⟨direction, s, hdirection, halike.asset, halike.assetMargin, hvolumes, hasset, hmargin, ?_⟩
  rw [Book.holdings_setSlice, halike'.holdings, hholdings', hholdings]
  exact (congrArg _ hvolumes').trans (Function.update_idem ..)

theorem restored_iff_of_stock (hfinal : isFinalStatus status)
    (h₁ : Method.stock.apply market book (.orderInput i) = .ok book₁)
    (h₂ : Method.stock.apply market book₁ (.order (untradedOrder i status)) = .ok book₂) :
    Restored book book₂ ↔ Restorable market book i .stock := by
  obtain ⟨direction, p, hdirection, hp, hasset, hmargin, hholdings⟩ := exists_stockReleased h₁ h₂
  rw [restored_iff_sameSlice (s := ⟨book.state.asset, book.state.assetMargin, p⟩) rfl rfl
    hp.ofPosition hasset hmargin hholdings, sameSlice_stockReleased_iff hfinal]
  simp only [Restorable, hdirection, Except.toOption, Option.mem_def, Option.some.injEq,
    forall_eq', StockRestorable, frozenAmount, releasedAmount, hp.ofPosition,
    exchangeRate_instrConversionMarginRate]
  rfl

theorem restored_iff_of_future (hfinal : isFinalStatus status)
    (h₁ : Method.future.apply market book (.orderInput i) = .ok book₁)
    (h₂ : Method.future.apply market book₁ (.order (untradedOrder i status)) = .ok book₂) :
    Restored book book₂ ↔ Restorable market book i .future := by
  obtain ⟨direction, s, hdirection, hasset, hmargin, hvolumes, hasset', hmargin', hholdings⟩ :=
    exists_futureReleased hfinal h₁ h₂
  rw [restored_iff_sameSlice hasset hmargin hvolumes hasset' hmargin' hholdings,
    sameSlice_futureReleased_iff hfinal, hvolumes]
  simp only [Restorable, hdirection, Except.toOption, Option.mem_def, Option.some.injEq,
    forall_eq', FutureRestorable]

/-- An order that ends without a trade leaves the book as it was before it just when it is
restorable. -/
theorem restored_iff (hmethod : method = .stock ∨ method = .future) (hfinal : isFinalStatus status)
    (h₁ : method.apply market book (.orderInput i) = .ok book₁)
    (h₂ : method.apply market book₁ (.order (untradedOrder i status)) = .ok book₂) :
    Restored book book₂ ↔ Restorable market book i method := by
  rcases hmethod with rfl | rfl
  · exact restored_iff_of_stock hfinal h₁ h₂
  · exact restored_iff_of_future hfinal h₁ h₂

/-- An order to buy shares. -/
def exampleBuy (orderId : UInt64) (volume : Int64) (price : Binary64) :
    OrderInput (Details Binary64) Binary64 :=
  ⟨orderId, 0, "600000", "SSE", .Stock, price, price, volume, .Buy, .Limit,
    ⟨.Open, .Speculation, 0, 0, 0⟩⟩

open StockAccountingMethod in
/-- With numbers that are rounded, an order to buy 300 shares at 10.07 that is cancelled does not leave
the frozen cash as it was after an order to buy 100 shares at 20.137. -/
theorem not_restored_of_rounding :
    ∃ book book₁ book₂ : AccountBook Binary64,
      applyOrderInput (noInstrumentsOf Binary64) (emptyBook 10 .Account "20260929")
        (exampleBuy 1 100 (20137 / 1000)) = .ok book ∧
      applyOrderInput (noInstrumentsOf Binary64) book (exampleBuy 2 300 (1007 / 100)) = .ok book₁ ∧
      applyOrder stock (noInstrumentsOf Binary64) book₁ { orderFromInput (exampleBuy 2 300 (1007 / 100)) with
        status := .Cancelled } = .ok book₂ ∧
      book₂.state.asset.frozenCash ≠ book.state.asset.frozenCash := by
  obtain ⟨book, hbook, hrest⟩ := Outcome.exists_of_any
    (x := applyOrderInput (noInstrumentsOf Binary64) (emptyBook 10 .Account "20260929")
      (exampleBuy 1 100 (20137 / 1000)))
    (p := fun book => (applyOrderInput (noInstrumentsOf Binary64) book
      (exampleBuy 2 300 (1007 / 100))).toOption.any fun book₁ =>
        (applyOrder stock (noInstrumentsOf Binary64) book₁ { orderFromInput (exampleBuy 2 300 (1007 / 100)) with
          status := .Cancelled }).toOption.any fun book₂ =>
            book₂.state.asset.frozenCash ≠ book.state.asset.frozenCash) (by decide +kernel)
  obtain ⟨book₁, hbook₁, hrest₁⟩ := Outcome.exists_of_any hrest
  obtain ⟨book₂, hbook₂, hleft⟩ := Outcome.exists_of_any hrest₁
  exact ⟨book, book₁, book₂, hbook, hbook₁, hbook₂, of_decide_eq_true hleft⟩

open StockAccountingMethod in
/-- An order of margin trading for 4 shares at 100, which are released twice.  With numbers that are
rounded, an order to buy need not leave the frozen cash as it was, either. -/
theorem not_restored_of_marginTrade :
    (∃ book₁ book₂, Method.stock.apply noInstruments exampleShares
        (.orderInput { exampleSell 1 4 with side := .MarginTrade }) = .ok book₁ ∧
      Method.stock.apply noInstruments book₁
        (.order (untradedOrder { exampleSell 1 4 with side := .MarginTrade } .Cancelled)) =
          .ok book₂ ∧
      ¬ Restored exampleShares book₂) ∧
    ∃ book book₁ book₂ : AccountBook Binary64,
      applyOrderInput (noInstrumentsOf Binary64) (emptyBook 10 .Account "20260929")
        (exampleBuy 1 100 (20137 / 1000)) = .ok book ∧
      applyOrderInput (noInstrumentsOf Binary64) book (exampleBuy 2 300 (1007 / 100)) = .ok book₁ ∧
      applyOrder stock (noInstrumentsOf Binary64) book₁ { orderFromInput (exampleBuy 2 300 (1007 / 100)) with
        status := .Cancelled } = .ok book₂ ∧
      book₂.state.asset.frozenCash ≠ book.state.asset.frozenCash := by
  refine ⟨?_, not_restored_of_rounding⟩
  have hany : (Method.stock.apply noInstruments exampleShares
      (.orderInput { exampleSell 1 4 with side := .MarginTrade })).toOption.any (fun book₁ =>
        (Method.stock.apply noInstruments book₁
          (.order (untradedOrder { exampleSell 1 4 with side := .MarginTrade } .Cancelled))).toOption.any
            fun book₂ => book₂.state.assetMargin.availMargin = 400) = true := by
    decide +kernel
  obtain ⟨book₁, h₁, hany₁⟩ := Outcome.exists_of_any hany
  obtain ⟨book₂, h₂, havail⟩ := Outcome.exists_of_any hany₁
  have hfour := of_decide_eq_true havail
  refine ⟨book₁, book₂, h₁, h₂, fun h => ?_⟩
  rw [h.assetMargin] at hfour
  exact absurd hfour (by decide +kernel)

/-- An order to sell 4 of 10 shares of yesterday. -/
theorem restored_iff_example :
    ∃ book₁ book₂, Method.stock.apply noInstruments exampleShares (.orderInput (exampleSell 1 4)) =
        .ok book₁ ∧
      Method.stock.apply noInstruments book₁ (.order (untradedOrder (exampleSell 1 4) .Cancelled)) =
        .ok book₂ ∧
      Restored exampleShares book₂ := by
  have hany : (Method.stock.apply noInstruments exampleShares
      (.orderInput (exampleSell 1 4))).toOption.any (fun book₁ =>
        (Method.stock.apply noInstruments book₁
          (.order (untradedOrder (exampleSell 1 4) .Cancelled))).isOk) = true := by
    decide +kernel
  obtain ⟨book₁, h₁, hok⟩ := Outcome.exists_of_any hany
  obtain ⟨book₂, h₂⟩ := Outcome.exists_of_isOk hok
  refine ⟨book₁, book₂, h₁, h₂, (restored_iff (.inl rfl) rfl h₁ h₂).mpr ?_⟩
  intro direction hdirection
  cases (Option.some.inj hdirection : Direction.Long = direction)
  rw [StockRestorable]
  decide +kernel

end Books

end Kungfu.Wingchun
