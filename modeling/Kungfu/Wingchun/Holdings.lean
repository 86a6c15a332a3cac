import Kungfu.Wingchun.Lifecycle
import Mathlib.Tactic.Ring

/-!
# What a book of futures holds and freezes

Of a position only four numbers decide what is frozen.  A book is seen as the map from keys
to these numbers, where a position that is not there is one of nothing.  To make a position
does not change the map, and an update by accounting of futures changes it at one key.
-/

namespace Kungfu.Wingchun

open Longfist

/-- The volumes of a position. -/
structure Volumes where
  volume : ℤ
  yesterdayVolume : ℤ
  frozenTotal : ℤ
  frozenYesterday : ℤ
  deriving DecidableEq, Repr

namespace Volumes

/-- The volumes of a position that is not there. -/
def nothing : Volumes := ⟨0, 0, 0, 0⟩

def ofPosition {key : PositionKey} (p : Position key) : Volumes :=
  ⟨p.volume, p.yesterdayVolume, p.frozenTotal, p.frozenYesterday⟩

variable (n : ℤ) (v : Volumes)

/-- An order to close is placed. -/
def freeze : Volumes :=
  { v with
    frozenTotal := v.frozenTotal + n
    frozenYesterday :=
      if n ≤ v.yesterdayVolume - v.frozenYesterday then v.frozenYesterday + n
      else v.yesterdayVolume }

/-- An order to close ends with a volume left. -/
def unfreeze : Volumes :=
  { v with
    frozenTotal := max (v.frozenTotal - n) 0
    frozenYesterday := max (v.frozenYesterday - n) 0 }

/-- An order to close today's volume is placed. -/
def freezeToday : Volumes := { v with frozenTotal := v.frozenTotal + n }

/-- An order to close today's volume ends with a volume left. -/
def unfreezeToday : Volumes :=
  { v with frozenTotal := if n ≤ v.frozenTotal then v.frozenTotal - n else v.frozenTotal }

/-- A volume is opened. -/
def opened : Volumes := { v with volume := v.volume + n }

/-- A volume is closed, of today's or of yesterday's volume. -/
def closed (today : Bool) : Volumes where
  volume := v.volume - n
  yesterdayVolume := if today then v.yesterdayVolume else max (v.yesterdayVolume - n) 0
  frozenTotal := v.frozenTotal - n
  frozenYesterday := if today then v.frozenYesterday else max (v.frozenYesterday - n) 0

/-- What a message does that opens or closes as the offset says. -/
def apply (offset : Offset) : TradingData → Volumes → Volumes
  | .orderInput i, v =>
      match offset with
      | .Open => v
      | .Close | .CloseYesterday => v.freeze i.volume.toInt
      | .CloseToday => v.freezeToday i.volume.toInt
  | .order o, v =>
      if isFinalStatus o.status then
        match offset with
        | .Open => v
        | .Close | .CloseYesterday => v.unfreeze o.volumeLeft.toInt
        | .CloseToday => v.unfreezeToday o.volumeLeft.toInt
      else v
  | .trade t, v =>
      match offset with
      | .Open => v.opened t.volume.toInt
      | .Close | .CloseToday | .CloseYesterday =>
          v.closed t.volume.toInt (t.details.offset = .CloseToday)

end Volumes

/-! ## The effect of accounting of futures -/

namespace FutureAccountingMethod

variable {market : Market} {key : PositionKey} (s : Slice key)

/-- What accounting of futures does to the asset and to the position of the decided offset. -/
def effect (market : Market) (frozenPrice : ℚ) (data : TradingData) (offset : Offset)
    (s : Slice key) : Slice key :=
  match data with
  | .orderInput input => applyInput market input offset s
  | .order order => if isFinalStatus order.status then applyFinalOrder market order offset s else s
  | .trade trade => applyTradeTo market frozenPrice trade offset s

@[simp] theorem ofPosition_updatePosition (p : Position key) :
    Volumes.ofPosition (updatePosition market p) = Volumes.ofPosition p := by
  unfold updatePosition
  split <;> rfl

variable (market) in
/-- The volumes change as `Volumes.apply` says. -/
theorem ofPosition_effect (frozenPrice : ℚ) (data : TradingData) (offset : Offset) :
    Volumes.ofPosition (effect market frozenPrice data offset s).position =
      Volumes.apply offset data (Volumes.ofPosition s.position) := by
  cases data with
  | orderInput i => cases offset <;> exact ofPosition_updatePosition _
  | order o =>
      by_cases hfinal : isFinalStatus o.status
      · simp only [effect, Volumes.apply, hfinal, if_true]
        cases offset <;> exact ofPosition_updatePosition _
      · simp only [effect, Volumes.apply, hfinal, Bool.false_eq_true, if_false]
  | trade t =>
      cases offset with
      | Open => exact ofPosition_updatePosition _
      | _ =>
          refine (ofPosition_updatePosition _).trans ?_
          by_cases htoday : t.details.offset = .CloseToday <;>
            simp [Volumes.ofPosition, Volumes.apply, Volumes.closed, htoday]

/-- The margin that a message freezes, if its order opens at a frozen price. -/
def marginShare (market : Market) (direction : Direction) (offset : Offset) (price : ℚ)
    (data : TradingData) : ℚ :=
  if offset = .Open then
    marginFor (getInstrumentContractMultiplierAndMarginRatio market
      (hashInstrument data.exchangeId data.instrumentId) direction) price data.outstanding
  else 0

/-- The frozen price that counts for a message: its own, or the one that the book looks up. -/
def frozenPriceFor (looked : ℚ) : TradingData → ℚ
  | .orderInput i => i.frozenPrice
  | .order o => o.frozenPrice
  | .trade _ => looked

theorem marginFor_neg (cmMr : ContractMultiplierAndMarginRatio) (price : ℚ) (n : ℤ) :
    marginFor cmMr price (-n) = -marginFor cmMr price n := by
  simp only [marginFor]
  push_cast
  ring

variable (market) in
/-- Frozen margin and frozen cash change by the same amount. -/
theorem asset_effect (looked : ℚ) (data : TradingData) (offset : Offset) :
    let s' := effect market looked data offset s
    let share := marginShare market key.direction offset (frozenPriceFor looked data) data
    s'.asset.frozenMargin = s.asset.frozenMargin + share ∧
      s'.asset.frozenCash = s.asset.frozenCash + share := by
  cases data with
  | orderInput i => cases offset <;> simp [effect, applyInput, marginShare, freezeMargin,
      frozenPriceFor, TradingData.outstanding, TradingData.exchangeId, TradingData.instrumentId,
      Position.direction]
  | order o =>
      by_cases hfinal : isFinalStatus o.status
      · cases offset <;> simp [effect, applyFinalOrder, marginShare, freezeMargin, frozenPriceFor,
          TradingData.outstanding, TradingData.exchangeId, TradingData.instrumentId,
          Position.direction, hfinal, marginFor_neg]
      · have hzero : marginShare market key.direction offset (frozenPriceFor looked (.order o))
            (.order o) = 0 := by
          simp [marginShare, TradingData.outstanding, hfinal, marginFor]
        simp [effect, hfinal, hzero]
  | trade t => cases offset <;> simp [effect, applyTradeTo, applyOpen, applyClose, marginShare,
      freezeMargin, frozenPriceFor, TradingData.outstanding, TradingData.exchangeId,
      TradingData.instrumentId, Position.direction, marginFor_neg]

end FutureAccountingMethod

/-! ## The holdings of a book -/

/-- The volumes of all positions. -/
abbrev Holdings := PositionKey → Volumes

/-- The offset that is decided for a message. -/
def decidedOffset (holdings : Holdings) (data : TradingData) : Offset :=
  if FutureAccountingMethod.ableLongShortPositionMerge data.exchangeId then
    match getDirection data.instrumentType data.side data.offset with
    | .ok direction =>
        FutureAccountingMethod.decideOffset true
          (holdings (positionKey direction data.exchangeId data.instrumentId)).volume
          (holdings (positionKey (FutureAccountingMethod.opposite direction) data.exchangeId
            data.instrumentId)).volume data.offset
    | .error _ => data.offset
  else data.offset

namespace Book

variable {market : Market} {book book' book'' : AccountBook} {key : PositionKey}
  {direction : Direction} {exchangeId instrumentId : String} {data : TradingData}

def holdings (book : AccountBook) : Holdings := fun key =>
  match book.state.positions.lookup key with
  | some p => Volumes.ofPosition p
  | none => Volumes.nothing

theorem holdings_of_lookup {p : Position key} (h : book.state.positions.lookup key = some p) :
    book.holdings key = Volumes.ofPosition p := by
  simp only [holdings, h]

/-- The position that a book gives out has the volumes of the holdings. -/
theorem Gives.ofPosition {p : Position (positionKey direction exchangeId instrumentId)}
    (h : book.Gives direction exchangeId instrumentId p) :
    Volumes.ofPosition p = book.holdings (positionKey direction exchangeId instrumentId) := by
  rcases h with h | ⟨h, type, -, rfl⟩
  · rw [holdings_of_lookup h]
  · simp only [holdings, h]
    rfl

theorem holdings_position :
    (book.position direction exchangeId instrumentId).volume =
      (book.holdings (positionKey direction exchangeId instrumentId)).volume := by
  unfold position holdings
  cases book.state.positions.lookup (positionKey direction exchangeId instrumentId) <;> rfl

theorem holdings_setSlice (s : Slice key) :
    (book.setSlice s).holdings =
      Function.update book.holdings key (Volumes.ofPosition s.position) := by
  ext1 k
  by_cases hk : k = key
  · subst hk
    rw [Function.update_self, holdings_of_lookup (lookup_setSlice s)]
  · rw [Function.update_of_ne hk]
    simp only [holdings, lookup_setSlice_of_ne s hk]

theorem holdings_setPosition (p : Position key) :
    (book.setPosition p).holdings = Function.update book.holdings key (Volumes.ofPosition p) :=
  holdings_setSlice ⟨book.state.asset, book.state.assetMargin, p⟩

/-- The same asset, volumes and orders, with more entries perhaps. -/
structure Alike (book book' : AccountBook) : Prop where
  asset : book'.state.asset = book.state.asset
  assetMargin : book'.state.assetMargin = book.state.assetMargin
  holdings : book'.holdings = book.holdings
  orders : book'.orders = book.orders
  grows : Grows book book'

theorem Alike.refl : Alike book book := ⟨rfl, rfl, rfl, rfl, Grows.refl book⟩

theorem Alike.trans (h : Alike book book') (h' : Alike book' book'') : Alike book book'' :=
  ⟨h'.asset.trans h.asset, h'.assetMargin.trans h.assetMargin, h'.holdings.trans h.holdings,
    h'.orders.trans h.orders, h.grows.trans h'.grows⟩

/-- To make a position changes nothing that matters. -/
theorem Gives.alike {p : Position (positionKey direction exchangeId instrumentId)}
    (h : book.Gives direction exchangeId instrumentId p) : Alike book (book.setPosition p) := by
  refine ⟨rfl, rfl, ?_, rfl, grows_setPosition p⟩
  rw [holdings_setPosition, h.ofPosition, Function.update_eq_self]

theorem alike_of_getPosition (h : book.getPosition direction exchangeId instrumentId = .ok book') :
    Alike book book' := by
  obtain ⟨p, hp, rfl⟩ := gives_of_getPosition h
  exact hp.alike

/-- The offset is decided from the holdings. -/
theorem getOffset_eq_ok {offset : Offset}
    (h : FutureAccountingMethod.getOffset book data = .ok (offset, book')) :
    offset = decidedOffset book.holdings data ∧ Alike book book' := by
  unfold FutureAccountingMethod.getOffset at h
  unfold decidedOffset
  split at h
  · rename_i hmerge
    rw [if_pos hmerge]
    cases hdirection : getDirection data.instrumentType data.side data.offset with
    | error fault => simp [hdirection, orThrow, Except.mapError, bind, Except.bind] at h
    | ok direction =>
        simp only [hdirection, orThrow, Except.mapError, Outcome.ok_bind] at h
        cases hopposite : book.getPosition (FutureAccountingMethod.opposite direction)
            data.exchangeId data.instrumentId with
        | error thrown => simp [hopposite, bind, Except.bind] at h
        | ok book₁ =>
            simp only [hopposite, Outcome.ok_bind] at h
            cases hown : book₁.getPosition direction data.exchangeId data.instrumentId with
            | error thrown => simp [hown, bind, Except.bind] at h
            | ok book₂ =>
                simp only [hown, Outcome.ok_bind, holdings_position] at h
                have halike := (alike_of_getPosition hopposite).trans (alike_of_getPosition hown)
                rw [halike.holdings] at h
                cases h
                exact ⟨rfl, halike⟩
  · rename_i hmerge
    rw [if_neg hmerge]
    cases h
    exact ⟨rfl, Alike.refl⟩

/-- What a message does whose offset is decided first. -/
theorem onOffsetPosition_eq_ok {f : Offset → ∀ {key : PositionKey}, Slice key → Slice key}
    (h : FutureAccountingMethod.onOffsetPosition book data f = .ok book') :
    ∃ direction q book₀, getDirection data.instrumentType data.side
        (decidedOffset book.holdings data) = .ok direction ∧ Alike book book₀ ∧
      book₀.Gives direction data.exchangeId data.instrumentId q ∧
      book' = book₀.setSlice (f (decidedOffset book.holdings data)
        ⟨book₀.state.asset, book₀.state.assetMargin, q⟩) := by
  unfold FutureAccountingMethod.onOffsetPosition at h
  cases hoffset : FutureAccountingMethod.getOffset book data with
  | error thrown => simp [hoffset, bind, Except.bind] at h
  | ok r =>
      obtain ⟨offset, book₁⟩ := r
      obtain ⟨rfl, halike⟩ := getOffset_eq_ok hoffset
      simp only [hoffset, Outcome.ok_bind] at h
      cases hdirection : getDirection data.instrumentType data.side
          (decidedOffset book.holdings data) with
      | error fault => simp [hdirection, orThrow, Except.mapError, bind, Except.bind] at h
      | ok direction =>
          simp only [hdirection, orThrow, Except.mapError, Outcome.ok_bind] at h
          cases hposition : book₁.getPosition direction data.exchangeId data.instrumentId with
          | error thrown => simp [hposition, bind, Except.bind] at h
          | ok book₂ =>
              obtain ⟨q, hq, rfl⟩ := gives_of_getPosition hposition
              simp only [hposition, Outcome.ok_bind, onSlice, slice_setPosition,
                setSlice_setPosition] at h
              cases h
              exact ⟨direction, q, book₁, rfl, halike, hq, rfl⟩

theorem holdings_congr (h : book'.state.positions = book.state.positions) :
    book'.holdings = book.holdings := by
  unfold holdings
  rw [h]

/-- The end of an update changes no volumes, if the position is there. -/
theorem holdings_finish (updateTime : Int64)
    (h : book.Has (positionKey direction data.exchangeId data.instrumentId)) :
    (book.finish market updateTime direction data).holdings = book.holdings := by
  obtain ⟨p, hp⟩ := Option.isSome_iff_exists.mp h
  rw [holdings_congr positions_finish, stamp, onSlice, holdings_setSlice]
  have hvolumes : Volumes.ofPosition (book.position direction data.exchangeId data.instrumentId) =
      book.holdings (positionKey direction data.exchangeId data.instrumentId) := by
    simp only [position, hp, Option.getD_some, holdings_of_lookup hp]
  calc _ = Function.update book.holdings _ (book.holdings _) := congrArg _ hvolumes
    _ = book.holdings := Function.update_eq_self ..

/-! ## Updates by accounting of futures -/

open FutureAccountingMethod

/-- What a message changes of a book that matters for what is frozen. -/
structure Changes (market : Market) (looked : ℚ) (data : TradingData) (offset : Offset)
    (direction : Direction) (book book' : AccountBook) : Prop where
  holdings : book'.holdings = Function.update book.holdings
    (positionKey direction data.exchangeId data.instrumentId)
    (Volumes.apply offset data
      (book.holdings (positionKey direction data.exchangeId data.instrumentId)))
  frozenMargin : book'.state.asset.frozenMargin = book.state.asset.frozenMargin +
    marginShare market direction offset (frozenPriceFor looked data) data
  frozenCash : book'.state.asset.frozenCash = book.state.asset.frozenCash +
    marginShare market direction offset (frozenPriceFor looked data) data
  orders : book'.orders = book.orders
  grows : Grows book book'

/-- A change by what the decided offset says. -/
theorem changes_onOffsetPosition {looked : ℚ}
    (h : onOffsetPosition book data (fun offset => effect market looked data offset) = .ok book') :
    ∃ direction, getDirection data.instrumentType data.side (decidedOffset book.holdings data) =
        .ok direction ∧
      Changes market looked data (decidedOffset book.holdings data) direction book book' := by
  obtain ⟨direction, q, book₀, hdirection, halike, hgives, rfl⟩ := onOffsetPosition_eq_ok h
  obtain ⟨hmargin, hcash⟩ := asset_effect market
    (⟨book₀.state.asset, book₀.state.assetMargin, q⟩ : Slice _) looked data
    (decidedOffset book.holdings data)
  refine ⟨direction, hdirection, ?_, ?_, ?_, halike.orders, halike.grows.trans (grows_setSlice _)⟩
  · rw [holdings_setSlice, ofPosition_effect, halike.holdings]
    dsimp only
    rw [hgives.ofPosition, halike.holdings]
  · exact hmargin.trans (by rw [halike.asset]; rfl)
  · exact hcash.trans (by rw [halike.asset]; rfl)

/-- A message that is not for the accounting method changes nothing. -/
theorem changes_of_not_final {looked : ℚ} {offset : Offset} {order : Order Details}
    (h : ¬ isFinalStatus order.status) :
    Changes market looked (.order order) offset direction book book where
  holdings := by simp [Volumes.apply, h]
  frozenMargin := by simp [marginShare, TradingData.outstanding, h, marginFor]
  frozenCash := by simp [marginShare, TradingData.outstanding, h, marginFor]
  orders := rfl
  grows := Grows.refl book

theorem applyOrder_of_final {order : Order Details} (hfinal : isFinalStatus order.status = true)
    (looked : ℚ) : FutureAccountingMethod.applyOrder market book order =
      onOffsetPosition (book.emplaceOrder order) (.order order) fun offset =>
        effect market looked (.order order) offset := by
  have heffect : (fun offset {key : PositionKey} (s : Slice key) =>
      applyFinalOrder market order offset s) = fun offset {key : PositionKey} s =>
        effect market looked (.order order) offset s := by
    funext offset key s
    simp only [effect, if_pos hfinal]
  simp only [FutureAccountingMethod.applyOrder, if_pos hfinal, ← heffect]

theorem state_emplaceTrade (trade : Trade Details) : (book.emplaceTrade trade).state = book.state := by
  unfold emplaceTrade
  split <;> rfl

theorem orders_emplaceTrade (trade : Trade Details) :
    (book.emplaceTrade trade).orders = book.orders := by
  unfold emplaceTrade
  split <;> rfl

theorem applyTrade_eq (trade : Trade Details) : FutureAccountingMethod.applyTrade market book trade =
    onOffsetPosition (book.emplaceTrade trade) (.trade trade) fun offset =>
      effect market (book.getFrozenPrice trade.orderId) (.trade trade) offset := by
  have hprice : (book.emplaceTrade trade).getFrozenPrice trade.orderId =
      book.getFrozenPrice trade.orderId := by
    rw [getFrozenPrice, orders_emplaceTrade, getFrozenPrice]
  simp only [FutureAccountingMethod.applyTrade, hprice]
  rfl

/-- What accounting of futures does, on a book that knows the order of the message. -/
theorem apply_future (h : Method.future.apply market book data = .ok book')
    {own : Direction} (hown : getDirection data.instrumentType data.side data.offset = .ok own) :
    ∃ direction, getDirection data.instrumentType data.side (decidedOffset book.holdings data) =
        .ok direction ∧
      Changes market (book.getFrozenPrice data.orderId) data (decidedOffset book.holdings data)
        direction (book.emplace data) book' := by
  cases data with
  | orderInput input => exact changes_onOffsetPosition h
  | order order =>
      have hholdings : (book.emplaceOrder order).holdings = book.holdings :=
        holdings_congr (by rw [state_emplaceOrder])
      by_cases hfinal : isFinalStatus order.status = true
      · simp only [Method.apply, applyOrder_of_final hfinal (book.getFrozenPrice order.orderId)] at h
        have hchanges := changes_onOffsetPosition h
        rw [hholdings] at hchanges
        exact hchanges
      · obtain ⟨direction, hdirection⟩ := exists_getDirection_offset
          hown
        simp only [Method.apply, FutureAccountingMethod.applyOrder, if_neg hfinal] at h
        cases h
        exact ⟨direction, hdirection, changes_of_not_final hfinal⟩
  | trade trade =>
      simp only [Method.apply, applyTrade_eq] at h
      obtain ⟨direction, hdirection, hchanges⟩ := changes_onOffsetPosition h
      have hstate : (book.emplaceTrade trade).state = book.state := state_emplaceTrade trade
      have hholdings : (book.emplaceTrade trade).holdings = book.holdings :=
        holdings_congr (by rw [hstate])
      rw [hholdings] at hdirection hchanges
      refine ⟨direction, hdirection, ?_, ?_, ?_, ?_, ?_⟩
      · rw [hchanges.holdings, hholdings]
        rfl
      · rw [hchanges.frozenMargin, hstate]
        rfl
      · rw [hchanges.frozenCash, hstate]
        rfl
      · rw [hchanges.orders, orders_emplaceTrade]
        rfl
      · exact (Grows.of_state_eq hstate).trans hchanges.grows

/-- What an update of a book by accounting of futures does. -/
theorem applyAndUpdate_future {updateTime : Int64}
    (h : book.applyAndUpdate market .future updateTime data = .ok book') :
    let offset := decidedOffset book.holdings data
    ∃ direction, getDirection data.instrumentType data.side offset = .ok direction ∧
      let key := positionKey direction data.exchangeId data.instrumentId
      let share := marginShare market direction offset
        (frozenPriceFor (book.getFrozenPrice data.orderId) data) data
      book'.holdings = Function.update book.holdings key
        (Volumes.apply offset data (book.holdings key)) ∧
      book'.state.asset.frozenMargin = book.state.asset.frozenMargin + share ∧
      book'.state.asset.frozenCash = book.state.asset.frozenCash + share ∧
      ∀ orderId, book'.orders orderId = book.ordersAfter data orderId := by
  obtain ⟨own, p, book₁, hown, hp, happly, rfl⟩ := exists_of_applyAndUpdate h
  have halike := hp.alike
  have hemplace : ((book.setPosition p).emplace data).holdings = book.holdings := by
    rw [holdings_congr (congrArg Account.positions (state_emplace _ data)), halike.holdings]
  obtain ⟨direction, hdirection, hchanges⟩ := apply_future happly hown
  rw [halike.holdings] at hdirection hchanges
  have hhas : book₁.Has (positionKey own data.exchangeId data.instrumentId) := by
    apply hchanges.grows
    simp [Has]
  obtain ⟨-, hcash, hmargin⟩ := asset_finish market updateTime own data book₁
  refine ⟨direction, hdirection, ?_, ?_, ?_, ?_⟩
  · rw [holdings_finish updateTime hhas, hchanges.holdings, hemplace]
  · rw [hmargin, hchanges.frozenMargin, state_emplace]
    rfl
  · rw [hcash, hchanges.frozenCash, state_emplace]
    rfl
  · intro orderId
    rw [orders_finish, ordersAfter_congr hchanges.orders, ordersAfter_emplace,
      ordersAfter_congr halike.orders]

end Book

end Kungfu.Wingchun
