import Kungfu.Wingchun.Lifecycle
import Mathlib.Tactic.Linarith

/-!
# Frozen cash of a stock account

In a cash account an order to buy freezes cash.  Each of its trades gives back the cash for
its volume and pays the price, and the final order gives back the cash for the volume left.
In whatever way the messages of many orders are mixed, the frozen cash follows the volume
that the orders still have, so in the end all of it has been given back.
-/

namespace Kungfu.Wingchun

open Longfist TradingData

variable {market : Market} {key : PositionKey} {ms : List TradingData} {m : TradingData}

/-- The exchange rate of what a message is about. -/
def rateOf (market : Market) (m : TradingData) : ℚ :=
  market.exchangeRate (hashInstrument m.exchangeId m.instrumentId)

/-- What a trade is worth. -/
def tradeAmount (market : Market) (t : Trade Details) : ℚ :=
  t.details.price * t.volume.toInt * rateOf market (.trade t)

/-- What a message adds to the frozen cash, if its order freezes cash at a price. -/
def frozenShare (market : Market) (price : ℚ) (m : TradingData) : ℚ :=
  if m.side = .Buy then price * rateOf market m * m.outstanding else 0

/-- The cash that a message brings in. -/
def cashFlow (market : Market) : TradingData → ℚ
  | .trade t =>
      if t.side = .Buy then -(tradeAmount market t + t.details.commission + t.details.tax)
      else tradeAmount market t - t.details.commission - t.details.tax
  | _ => 0

/-! ## One message -/

/-- The cash side of a book: no credit, and nothing owed on positions. -/
structure CashOnly (s : Slice key) : Prop where
  totalAsset : s.assetMargin.totalAsset = 0
  margin : s.position.margin = 0

@[simp] theorem margin_updateStockPosition (p : Position key) :
    (StockAccountingMethod.updateStockPosition p).margin = p.margin := by
  unfold StockAccountingMethod.updateStockPosition
  split <;> rfl

/-- The fees of a trade that sells are not above what it is worth. -/
def FeesCovered (market : Market) : TradingData → Prop
  | .trade t =>
      t.side = .Sell → t.details.commission + t.details.tax ≤ tradeAmount market t
  | _ => True

instance (market : Market) : DecidablePred (FeesCovered market)
  | .orderInput _ => isTrue trivial
  | .order _ => isTrue trivial
  | .trade _ => inferInstanceAs (Decidable (_ → _))

open StockAccountingMethod in
/-- An order input to buy freezes cash; one to sell freezes none. -/
theorem applyInput_cash {input : OrderInput Details} {s : Slice key}
    (hside : input.side = .Buy ∨ input.side = .Sell) (hs : CashOnly s) :
    let s' := applyInput market input s
    s'.asset = (if input.side = .Buy then
        freezeCash (input.volume.toInt * input.frozenPrice * market.exchangeRate key.hash) s.asset
      else s.asset) ∧ CashOnly s' := by
  have hrate := exchangeRate_getInstrConversionMarginRate market s.position
  rcases hside with hside | hside <;> simp only [applyInput, hside, hrate] <;>
    exact ⟨rfl, hs.totalAsset, hs.margin⟩

open StockAccountingMethod in
/-- A final order gives back the cash for the volume left. -/
theorem applyFinalOrder_cash {order : Order Details} (frozenPrice : ℚ) {s : Slice key}
    (hside : order.side = .Buy ∨ order.side = .Sell) (hs : CashOnly s) :
    let s' := applyFinalOrder market frozenPrice order s
    s'.asset = (if order.side = .Buy then
        freezeCash (-(frozenPrice * order.volumeLeft.toInt * market.exchangeRate key.hash)) s.asset
      else s.asset) ∧ CashOnly s' := by
  have hrate := exchangeRate_getInstrConversionMarginRate market s.position
  rcases hside with hside | hside <;> simp only [applyFinalOrder, hside, hrate] <;>
    exact ⟨rfl, hs.totalAsset, hs.margin⟩

open StockAccountingMethod in
/-- A trade that buys gives back the cash for its volume and pays. -/
theorem applyBuy_cash {trade : Trade Details} {frozenPrice : ℚ} {s : Slice key}
    (hs : CashOnly s) :
    let s' := applyBuy stock market frozenPrice trade s
    let rate := market.exchangeRate key.hash
    let released := frozenPrice * rate * trade.volume.toInt
    s'.asset.frozenCash = s.asset.frozenCash - released ∧
      s'.asset.avail = s.asset.avail + (released -
        trade.details.price * trade.volume.toInt * rate -
          (trade.details.commission + trade.details.tax)) ∧ CashOnly s' := by
  have hrate := exchangeRate_getInstrConversionMarginRate market s.position
  have htotal : ¬ s.assetMargin.totalAsset ≠ 0 := not_not.mpr hs.totalAsset
  simp only [applyBuy, hrate, calculateCommission, stock, if_neg htotal]
  exact ⟨trivial, trivial, hs.totalAsset, hs.margin⟩

open StockAccountingMethod in
/-- A trade that sells brings in what it is worth, less the fees: no debt is repaid. -/
theorem applySell_cash {trade : Trade Details} {s : Slice key} (hs : CashOnly s)
    (hfees : trade.details.commission + trade.details.tax ≤
      trade.details.price * market.exchangeRate key.hash * trade.volume.toInt) :
    let s' := applySell stock market trade s
    s'.asset.frozenCash = s.asset.frozenCash ∧
      s'.asset.avail = s.asset.avail +
        (trade.details.price * market.exchangeRate key.hash * trade.volume.toInt -
          (trade.details.commission + trade.details.tax)) ∧ CashOnly s' := by
  have hrate := exchangeRate_getInstrConversionMarginRate market s.position
  have htotal : ¬ s.assetMargin.totalAsset ≠ 0 := not_not.mpr hs.totalAsset
  have hmargin : (soldPosition stock trade s.position).margin = 0 :=
    (margin_updateStockPosition _).trans hs.margin
  have hrepay := min_eq_left (sub_nonneg.mpr hfees)
  simp only [applySell, hrate, calculateCommission, if_neg htotal, hmargin]
  simp only [stock, hrepay, sub_zero]
  exact ⟨trivial, trivial, hs.totalAsset, hmargin⟩

theorem frozenShare_orderInput (price : ℚ) (i : OrderInput Details) :
    frozenShare market price (.orderInput i) =
      if i.side = .Buy then price * rateOf market (.orderInput i) * i.volume.toInt else 0 := rfl

theorem frozenShare_order (price : ℚ) {o : Order Details} (hfinal : isFinalStatus o.status) :
    frozenShare market price (.order o) =
      if o.side = .Buy then -(price * o.volumeLeft.toInt * rateOf market (.order o)) else 0 := by
  by_cases hside : o.side = .Buy
  · simp only [frozenShare, outstanding, hfinal, if_true, if_pos hside, TradingData.side]
    push_cast
    ring
  · simp [frozenShare, TradingData.side, hside]

theorem frozenShare_trade (price : ℚ) (t : Trade Details) :
    frozenShare market price (.trade t) =
      if t.side = .Buy then -(price * rateOf market (.trade t) * t.volume.toInt) else 0 := by
  by_cases hside : t.side = .Buy
  · have hside' : (TradingData.trade t).side = .Buy := hside
    simp only [frozenShare, outstanding, hside', hside, if_true]
    push_cast
    ring
  · simp [frozenShare, TradingData.side, hside]

/-- What a message to buy or to sell changes of the cash. -/
theorem effect_cash {frozenPrice : ℚ} {s : Slice key}
    (hkey : key.hash = hashInstrument m.exchangeId m.instrumentId)
    (hside : m.side = .Buy ∨ m.side = .Sell) (hs : CashOnly s) (hfees : FeesCovered market m)
    (hprice : ∀ i, m = .orderInput i → i.frozenPrice = frozenPrice) :
    let s' := StockAccountingMethod.effect StockAccountingMethod.stock market frozenPrice m s
    s'.asset.frozenCash = s.asset.frozenCash + frozenShare market frozenPrice m ∧
      s'.asset.avail = s.asset.avail - frozenShare market frozenPrice m + cashFlow market m ∧
      CashOnly s' := by
  have hrate : market.exchangeRate key.hash = rateOf market m := by rw [hkey, rateOf]
  cases m with
  | orderInput i =>
      obtain ⟨hasset, hcash⟩ := applyInput_cash hside hs
      rw [hrate, hprice i rfl] at hasset
      simp only [StockAccountingMethod.effect, hasset, frozenShare_orderInput, cashFlow]
      refine ⟨?_, ?_, hcash⟩
      all_goals
        split
        · simp only [StockAccountingMethod.freezeCash]
          ring
        · ring
  | order o =>
      by_cases hfinal : isFinalStatus o.status
      · obtain ⟨hasset, hcash⟩ := applyFinalOrder_cash frozenPrice hside hs
        rw [hrate] at hasset
        have hmargin := (margin_updateStockPosition _).trans hcash.margin
        simp only [StockAccountingMethod.effect, hfinal, if_true, hasset, frozenShare_order, cashFlow]
        refine ⟨?_, ?_, hcash.totalAsset, hmargin⟩
        · split <;> simp [StockAccountingMethod.freezeCash]
        · split <;> simp [StockAccountingMethod.freezeCash]
      · have hzero : frozenShare market frozenPrice (.order o) = 0 := by
          simp [frozenShare, outstanding, hfinal]
        simp only [StockAccountingMethod.effect, hfinal, Bool.false_eq_true, if_false, hzero,
          cashFlow, add_zero, sub_zero]
        exact ⟨trivial, trivial, hs⟩
  | trade t =>
      rcases hside with hside | hside <;> change t.side = _ at hside
      · obtain ⟨hfrozen, havail, hcash⟩ := applyBuy_cash hs
        simp only [StockAccountingMethod.effect, hside]
        refine ⟨?_, ?_, hcash⟩
        · rw [hfrozen, hrate, frozenShare_trade, if_pos hside]
          ring
        · rw [havail, hrate, frozenShare_trade, if_pos hside, cashFlow, if_pos hside, tradeAmount]
          ring
      · have hnot : ¬ t.side = .Buy := by rw [hside]; decide
        have hcovered : t.details.commission + t.details.tax ≤
            t.details.price * market.exchangeRate key.hash * t.volume.toInt := by
          calc t.details.commission + t.details.tax ≤ tradeAmount market t := hfees hside
            _ = t.details.price * market.exchangeRate key.hash * t.volume.toInt := by
              rw [tradeAmount, hrate]
              ring
        obtain ⟨hfrozen, havail, hcash⟩ := applySell_cash hs hcovered
        simp only [StockAccountingMethod.effect, hside]
        refine ⟨?_, ?_, hcash⟩
        · rw [hfrozen, frozenShare_trade, if_neg hnot, add_zero]
        · rw [havail, hrate, frozenShare_trade, if_neg hnot, cashFlow, if_neg hnot, tradeAmount]
          ring

/-! ## Runs -/

/-- A cash account, in which nothing is owed on positions. -/
structure CashAccount (book : AccountBook) : Prop where
  totalAsset : book.state.assetMargin.totalAsset = 0
  margin : book.Forall fun p => p.margin = 0

/-- What is added to the frozen cash by a message of a run. -/
def frozenShareIn (market : Market) (ms : List TradingData) (m : TradingData) : ℚ :=
  frozenShare market (frozenPriceOf ms m.orderId) m

/-- A book after a part of the messages of a run. -/
structure CashAfter (market : Market) (ms : List TradingData) (start : AccountBook)
    (done : List TradingData) (book : AccountBook) : Prop where
  frozenCash : book.state.asset.frozenCash =
    start.state.asset.frozenCash + (done.map (frozenShareIn market ms)).sum
  avail : book.state.asset.avail = start.state.asset.avail -
    (done.map (frozenShareIn market ms)).sum + (done.map (cashFlow market)).sum
  account : CashAccount book
  orders : KnowsOrders ms done book

variable {start book book' : AccountBook}

/-- The effect of a message is the one at the price of its order. -/
theorem effect_emplace {done todo : List TradingData} (hcomplete : Complete ms)
    (hms : ms = done ++ m :: todo) (hbook : CashAfter market ms start done book) (s : Slice key) :
    StockAccountingMethod.effect StockAccountingMethod.stock market
        ((book.emplace m).getFrozenPrice m.orderId) m s =
      StockAccountingMethod.effect StockAccountingMethod.stock market
        (frozenPriceOf ms m.orderId) m s := by
  cases m with
  | orderInput i => rfl
  | _ => rw [hbook.orders.getFrozenPrice_emplace hcomplete hms (by simp)]

/-- Every message to buy or to sell keeps account of the cash. -/
theorem CashAfter.step {done todo : List TradingData} {updateTime : Int64}
    (hcomplete : Complete ms) (hms : ms = done ++ m :: todo)
    (hside : m.side = .Buy ∨ m.side = .Sell) (hfees : FeesCovered market m)
    (hbook : CashAfter market ms start done book)
    (h : book.applyAndUpdate market .stock updateTime m = .ok book') :
    CashAfter market ms start (done ++ [m]) book' := by
  have hmem : m ∈ ms := by rw [hms]; simp
  obtain ⟨direction, p, -, hp, rfl⟩ := Book.applyAndUpdate_stock h
  have hcash : CashOnly (⟨book.state.asset, book.state.assetMargin, p⟩ : Slice _) := by
    refine ⟨hbook.account.totalAsset, ?_⟩
    exact hp.elim (P := fun p => p.margin = 0) (fun hp => hbook.account.margin _ _ hp) fun _ => rfl
  have hprice : ∀ i, m = .orderInput i → i.frozenPrice = frozenPriceOf ms m.orderId := by
    rintro i rfl
    exact hcomplete.frozenPrice_orderInput hmem
  obtain ⟨hfrozen, havail, hafter⟩ := effect_cash rfl hside hcash hfees hprice
  rw [← effect_emplace hcomplete hms hbook] at hfrozen havail hafter
  obtain ⟨havail', hfrozen', -⟩ := Book.asset_finish market updateTime direction m
    ((book.emplace m).setSlice (StockAccountingMethod.effect StockAccountingMethod.stock market
      ((book.emplace m).getFrozenPrice m.orderId) m
      ⟨book.state.asset, book.state.assetMargin, p⟩))
  refine ⟨?_, ?_, ⟨?_, ?_⟩, hbook.orders.step hcomplete hmem ?_⟩
  · rw [hfrozen', List.map_append, List.sum_append]
    change (StockAccountingMethod.effect ..).asset.frozenCash = _
    rw [hfrozen, hbook.frozenCash]
    simp only [frozenShareIn, List.map_cons, List.map_nil, List.sum_cons, List.sum_nil]
    ring
  · rw [havail', List.map_append, List.map_append, List.sum_append, List.sum_append]
    change (StockAccountingMethod.effect ..).asset.avail = _
    rw [havail, hbook.avail]
    simp only [frozenShareIn, List.map_cons, List.map_nil, List.sum_cons, List.sum_nil]
    ring
  · rw [Book.totalAsset_finish]
    exact hafter.totalAsset
  · apply Book.Forall.finish
    · exact fun _ _ hp => hp
    · intro k q hq
      rw [Book.state_emplace] at hq
      exact hbook.account.margin k q hq
    · exact hafter.margin
  · intro orderId
    have hemplace : (book.emplace m).ordersAfter m orderId = book.ordersAfter m orderId :=
      Book.ordersAfter_emplace orderId
    rw [Book.orders_finish, ← hemplace]
    exact Book.ordersAfter_congr rfl orderId

/-- An order to buy or to sell, in an instrument that is accounted for as a stock. -/
structure StockMessage (market : Market) (m : TradingData) : Prop where
  method : Method.ofInstrumentType m.instrumentType = some .stock
  side : m.side = .Buy ∨ m.side = .Sell
  fees : FeesCovered market m

instance (market : Market) (m : TradingData) : Decidable (StockMessage market m) :=
  decidable_of_iff
    (Method.ofInstrumentType m.instrumentType = some .stock ∧ (m.side = .Buy ∨ m.side = .Sell) ∧
      FeesCovered market m)
    ⟨fun ⟨h₁, h₂, h₃⟩ => ⟨h₁, h₂, h₃⟩, fun ⟨h₁, h₂, h₃⟩ => ⟨h₁, h₂, h₃⟩⟩

/-- The cash of a book after any part of the messages that reach it. -/
theorem cashAfter_applyUpdates {us done todo : List Update} (hus : us = done ++ todo)
    (hcomplete : Complete (us.map (·.data))) (hstock : ∀ u ∈ us, StockMessage market u.data)
    (hcash : CashAccount start) (hprices : KnowsPrices (us.map (·.data)) start)
    (h : start.applyUpdates market done = .ok book) :
    CashAfter market (us.map (·.data)) start (done.map (·.data)) book := by
  refine Outcome.foldlM_invariant
    (I := fun done book => CashAfter market (us.map (·.data)) start (done.map (·.data)) book)
    ⟨by simp, by simp, hcash, ⟨hprices, by simp⟩⟩ ?_ h
  intro before u after b b' hdone hbefore hstep
  have hmem : u ∈ us := by rw [hus, hdone]; simp
  have hms : us.map (·.data) =
      before.map (·.data) ++ u.data :: (after.map (·.data) ++ todo.map (·.data)) := by
    rw [hus, hdone]
    simp
  have hmessage := hstock u hmem
  rw [Book.applyUpdate, hmessage.method] at hstep
  rw [List.map_append]
  exact hbefore.step hcomplete hms hmessage.side hmessage.fees hstep

/-! ## The end of a run -/

/-- The trades of one side. -/
def tradesOf (side : Side) (ms : List TradingData) : List (Trade Details) :=
  (ms.filterMap trade?).filter (·.side = side)

/-- The cash of all messages is what the trades that sell bring in, less what the trades that
buy cost. -/
theorem sum_cashFlow (market : Market) (hside : ∀ m ∈ ms, m.side = .Buy ∨ m.side = .Sell) :
    (ms.map (cashFlow market)).sum =
      -((tradesOf .Buy ms).map fun t =>
          tradeAmount market t + t.details.commission + t.details.tax).sum +
        ((tradesOf .Sell ms).map fun t =>
          tradeAmount market t - t.details.commission - t.details.tax).sum := by
  induction ms with
  | nil => simp [tradesOf]
  | cons m ms ih =>
      have hsum := ih fun m' hm' => hside m' (List.mem_cons_of_mem m hm')
      have hm := hside m List.mem_cons_self
      rw [List.map_cons, List.sum_cons, hsum]
      cases m with
      | orderInput i => simp only [cashFlow, tradesOf, List.filterMap_cons, trade?, zero_add]
      | order o => simp only [cashFlow, tradesOf, List.filterMap_cons, trade?, zero_add]
      | trade t =>
          rcases hm with hm | hm <;> change t.side = _ at hm
          · simp only [cashFlow, hm, if_true, tradesOf, List.filterMap_cons, trade?,
              List.filter_cons, decide_true, reduceCtorEq, decide_false, Bool.false_eq_true,
              if_false, List.map_cons, List.sum_cons]
            ring
          · simp only [cashFlow, hm, if_true, tradesOf, List.filterMap_cons, trade?,
              List.filter_cons, decide_true, reduceCtorEq, decide_false, Bool.false_eq_true,
              if_false, List.map_cons, List.sum_cons]
            ring

/-- Nothing that orders froze stays frozen. -/
theorem sum_frozenShareIn (market : Market) (hcomplete : Complete ms) : (ms.map (frozenShareIn market ms)).sum = 0 := by
  apply hcomplete.balanced.sum_eq_zero
  intro m hm
  refine ⟨if m.side = .Buy then frozenPriceOf ms m.orderId * rateOf market m else 0, ?_⟩
  intro m' hm' hid
  obtain ⟨hexchange, hinstrument, hside⟩ := hcomplete.balanced.agree hm hm' hid
  have hrate : rateOf market m' = rateOf market m := by
    rw [rateOf, rateOf, hexchange, hinstrument]
  rw [frozenShareIn, frozenShare, hid, hrate, hside]
  split <;> simp

/-- When all orders to buy and to sell are through, the frozen cash of the book is what it was,
and the available cash has changed by the trades alone. -/
theorem stock_cash_settles {app : App} {us : List Update} {books books' : Books} {uid : UInt32}
    (hrun : updateBooks app market us books = .ok books')
    (hstart : getBook app books uid = .ok start)
    (honce : ∀ u ∈ us, u.ReachesOnce uid)
    (hcomplete : Complete (messagesTo uid us))
    (hstock : ∀ m ∈ messagesTo uid us, StockMessage market m)
    (hcash : CashAccount start) (hprices : KnowsPrices (messagesTo uid us) start) :
    ∃ book, getBook app books' uid = .ok book ∧
      book.state.asset.frozenCash = start.state.asset.frozenCash ∧
      book.state.asset.avail = start.state.asset.avail -
        ((tradesOf .Buy (messagesTo uid us)).map fun t =>
          tradeAmount market t + t.details.commission + t.details.tax).sum +
        ((tradesOf .Sell (messagesTo uid us)).map fun t =>
          tradeAmount market t - t.details.commission - t.details.tax).sum := by
  obtain ⟨book, hbook, happly⟩ := applyUpdates_of_updateBooks hrun hstart honce
  have hmessage : ∀ u ∈ us.filter fun u => u.Reaches uid, StockMessage market u.data := by
    intro u hu
    exact hstock _ (List.mem_map_of_mem hu)
  have hafter : CashAfter market (messagesTo uid us) start (messagesTo uid us) book :=
    cashAfter_applyUpdates (List.append_nil _).symm hcomplete hmessage hcash hprices happly
  have hzero := sum_frozenShareIn market hcomplete
  have hflow := sum_cashFlow market fun m hm => (hstock m hm).side
  refine ⟨book, hbook, ?_, ?_⟩
  · rw [hafter.frozenCash, hzero, add_zero]
  · rw [hafter.avail, hzero, hflow]
    ring

/-- Two orders of the strategy: 100 shares are bought and 50 sold.  The order to buy is done
with 40 shares left before its trade arrives. -/
def exampleUpdates : List Update :=
  let details : Details := ⟨.Open, .Speculation, 0, 0, 0⟩
  let buy : OrderInput Details := ⟨1, 0, "600000", "SSE", .Stock, 10, 10, 100, .Buy, .Limit, details⟩
  let sell : OrderInput Details := ⟨2, 0, "600036", "SSE", .Stock, 11, 11, 50, .Sell, .Limit, details⟩
  let order := orderFromInput buy
  let order' := orderFromInput sell
  [⟨1, 77, 10, .orderInput buy⟩, ⟨2, 77, 10, .orderInput sell⟩, ⟨3, 10, 77, .order order⟩,
    ⟨4, 10, 77, .order order'⟩,
    ⟨5, 10, 77, .order { order with volumeLeft := 40, status := .PartialFilledNotActive }⟩,
    ⟨6, 10, 77, .trade ⟨8, 2, "", "", "600036", "SSE", .Stock, .Sell, 50,
      ⟨.Open, .Speculation, 11, 1 / 2, 2⟩⟩⟩,
    ⟨7, 10, 77, .trade ⟨9, 1, "", "", "600000", "SSE", .Stock, .Buy, 60,
      ⟨.Open, .Speculation, 19 / 2, 0, 1⟩⟩⟩,
    ⟨8, 10, 77, .order { order' with volumeLeft := 0, status := .Filled }⟩]

/-- Nothing stays frozen, 571 was paid and 547.5 was earned. -/
theorem stock_cash_settles_example :
    ∃ books' book, updateBooks exampleApp noInstruments exampleUpdates (fun _ => none) = .ok books' ∧
      getBook exampleApp books' 10 = .ok book ∧ book.state.asset.frozenCash = 0 ∧
      book.state.asset.avail = 0 - 571 + 1095 / 2 := by
  obtain ⟨books', hrun⟩ := Outcome.exists_of_isOk
    (x := updateBooks exampleApp noInstruments exampleUpdates fun _ => none) (by decide +kernel)
  have hstart : getBook exampleApp (fun _ => none) 10 = makeBook exampleApp 10 := rfl
  obtain ⟨book, hbook, hfrozen, havail⟩ := stock_cash_settles hrun hstart
    (by decide +kernel) (by decide +kernel) (by decide +kernel)
    ⟨rfl, fun _ _ h => by cases h⟩ fun _ _ _ h => by cases h
  refine ⟨books', book, hrun, hbook, hfrozen, ?_⟩
  rw [havail]
  decide +kernel

end Kungfu.Wingchun
