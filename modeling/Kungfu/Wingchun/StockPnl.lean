import Kungfu.Logic.AverageCost
import Kungfu.Wingchun.Quote
import Kungfu.Wingchun.UpdateBook
import Mathlib.Tactic.Linarith

/-!
# Profit and loss of stock positions

A long position of stocks is a holding at its average cost.  Its accounting keeps the profit that is
not realized up to date by different formulas in trades, in quotes and in the looks through all
positions.  In exact arithmetic all of them come to the same: the profit is the money that came in
and the value of what is held.
-/

namespace Kungfu.Wingchun

open Longfist AverageCost StockAccountingMethod

/-! ## Events -/

/-- A trade or a quote, with the instruments that are known when it comes. -/
inductive StockEvent
  | trade (market : Market) (trade : Trade Details)
  | quote (market : Market) (now : Int64) (quote : Quote)

namespace StockEvent

def apply (q : Quoted) : StockEvent → Throws Quoted
  | .trade market t => do
      let book ← applyTrade stock market q.book t
      return { q with book := book }
  | .quote market now data => applyQuote stock market now data q

/-- One event after another. -/
def run (events : List StockEvent) (q : Quoted) : Throws Quoted := events.foldlM apply q

/-- The trade of an event, if it is on a side of a position. -/
def tradeOn (key : PositionKey) (side : Side) : StockEvent → Option (Trade Details)
  | .trade _ t => if messageKey (.trade t) = some key ∧ t.side = side then some t else none
  | .quote .. => none

/-- Trades buy or sell, and their volumes and all prices are positive. -/
def Sound : StockEvent → Prop
  | .trade _ t => (t.side = .Buy ∨ t.side = .Sell) ∧ 0 < t.details.price ∧ 0 < t.volume.toInt
  | .quote _ _ data => 0 < data.lastPrice

instance : DecidablePred Sound
  | .trade _ _ => inferInstanceAs (Decidable (_ ∧ _))
  | .quote _ _ _ => inferInstanceAs (Decidable (_ < _))

end StockEvent

open StockEvent

section Sums

variable (key : PositionKey) (events : List StockEvent)

/-- The volume that was bought of a position. -/
def bought : ℤ := ((events.filterMap (tradeOn key .Buy)).map fun t => t.volume.toInt).sum

/-- The volume that was sold of it. -/
def sold : ℤ := ((events.filterMap (tradeOn key .Sell)).map fun t => t.volume.toInt).sum

/-- What was paid for it. -/
def cost : ℚ :=
  ((events.filterMap (tradeOn key .Buy)).map fun t => t.details.price * (t.volume.toInt : ℚ)).sum

/-- What was got for it. -/
def proceeds : ℚ :=
  ((events.filterMap (tradeOn key .Sell)).map fun t => t.details.price * (t.volume.toInt : ℚ)).sum

/-- No more is sold of a position at any time than was bought before. -/
def Covered : Prop := ∀ done, done <+: events → sold key done ≤ bought key done

instance : Decidable (Covered key events) :=
  decidable_of_iff (∀ done ∈ events.inits, sold key done ≤ bought key done)
    (by simp only [Covered, List.mem_inits])

end Sums

/-! ## Positions as holdings -/

variable {key : PositionKey} {market : Market} {p : Position key} {t : Trade Details}

/-- What a position is a holding of. -/
def holdingOf (p : Position key) : Holding ℚ := ⟨p.volume, p.avgOpenPrice, p.realizedPnl⟩

/-- The holding of a book under a key. -/
def Book.holding (book : AccountBook) (key : PositionKey) : Holding ℚ :=
  match book.state.positions.lookup key with
  | some p => holdingOf p
  | none => ⟨0, 0, 0⟩

theorem Book.holding_of_lookup {book : AccountBook} (h : book.state.positions.lookup key = some p) :
    book.holding key = holdingOf p := by
  simp only [Book.holding, h]

/-- The profit that is not realized is the one at the last price, which there is for what is held. -/
structure Priced (p : Position key) : Prop where
  unrealized : p.unrealizedPnl = (p.lastPrice - p.avgOpenPrice) * p.volume
  nonneg : 0 ≤ p.lastPrice
  positive : p.volume ≠ 0 → 0 < p.lastPrice

/-- The deal of a trade. -/
def dealOf (t : Trade Details) : Deal ℚ :=
  if t.side = .Buy then .buy t.volume.toInt t.details.price else .sell t.volume.toInt t.details.price

/-- The deal that an event is for a position. -/
def deal (key : PositionKey) : StockEvent → Option (Deal ℚ)
  | .trade _ t => if messageKey (.trade t) = some key then some (dealOf t) else none
  | .quote .. => none

/-- The deals that events are for a position. -/
def deals (key : PositionKey) (events : List StockEvent) : List (Deal ℚ) := events.filterMap (deal key)

/-- An update of the profit that is not realized makes it the one at the last price. -/
theorem priced_updateStockPosition (hlong : key.direction = .Long) (hnonneg : 0 ≤ p.lastPrice)
    (hpositive : p.volume ≠ 0 → 0 < p.lastPrice)
    (hunrealized : p.lastPrice = 0 → p.unrealizedPnl = 0) : Priced (updateStockPosition p) := by
  unfold updateStockPosition
  by_cases hprice : 0 < p.lastPrice
  · rw [if_pos hprice]
    exact ⟨by simp [Position.direction, hlong], hnonneg, hpositive⟩
  · have hzero : p.lastPrice = 0 := le_antisymm (not_lt.mp hprice) hnonneg
    have hvolume : p.volume = 0 := not_not.mp fun hne => hprice (hpositive hne)
    rw [if_neg hprice]
    exact ⟨by simp [hunrealized hzero, hvolume], hnonneg, hpositive⟩

@[simp] theorem holdingOf_updateStockPosition :
    holdingOf (updateStockPosition p) = holdingOf p := by
  unfold updateStockPosition
  split <;> rfl

/-! ## Trades -/

/-- A trade that buys averages its price into the cost. -/
theorem applyBuy_holding {frozenPrice : ℚ} {s : Slice key} (hpriced : Priced s.position)
    (hheld : 0 ≤ s.position.volume) (hprice : 0 < t.details.price) (hvolume : 0 < t.volume.toInt) :
    let p' := (applyBuy stock market frozenPrice t s).position
    holdingOf p' = (holdingOf s.position).buy (t.volume.toInt : ℚ) t.details.price ∧ Priced p' := by
  have hrate : (getInstrConversionMarginRate market s.position).exchangeRate ≠ 0 := by
    rw [exchangeRate_getInstrConversionMarginRate]
    exact market.exchangeRate_ne_zero _
  have hopened : 0 < s.position.volume + t.volume.toInt ∧ 0 < t.details.price := ⟨by omega, hprice⟩
  have hsum : (s.position.volume : ℚ) + t.volume.toInt ≠ 0 := by
    exact_mod_cast hopened.1.ne'
  have hlast : 0 < (if 0 < s.position.lastPrice then s.position.lastPrice else t.details.price) := by
    split
    · assumption
    · exact hprice
  -- what is held already has a price, so it is not revalued
  have hkept : (s.position.lastPrice - s.position.avgOpenPrice) * s.position.volume =
      ((if 0 < s.position.lastPrice then s.position.lastPrice else t.details.price) -
        s.position.avgOpenPrice) * s.position.volume := by
    by_cases hheld' : s.position.volume = 0
    · simp [hheld']
    · rw [if_pos (hpriced.positive hheld')]
  simp only [applyBuy, if_pos hopened, holdingOf, Holding.buy]
  refine ⟨?_, ?_, hlast.le, fun _ => hlast⟩
  · simp [mul_div_assoc, div_self hrate]
  · rw [hpriced.unrealized, hkept]
    push_cast
    field_simp
    ring

/-- A trade that sells realizes the difference between its price and the cost. -/
theorem applySell_holding {s : Slice key} (hlong : key.direction = .Long) (hpriced : Priced s.position)
    (hheld : t.volume.toInt ≤ s.position.volume) (hvolume : 0 < t.volume.toInt) :
    let p' := (applySell stock market t s).position
    holdingOf p' = (holdingOf s.position).sell (t.volume.toInt : ℚ) t.details.price ∧ Priced p' := by
  have hpositive := hpriced.positive (by omega)
  have hleft : max (s.position.volume - t.volume.toInt) 0 = s.position.volume - t.volume.toInt :=
    max_eq_left (by omega)
  have hsold : holdingOf (soldPosition stock t s.position) =
      (holdingOf s.position).sell (t.volume.toInt : ℚ) t.details.price := by
    refine holdingOf_updateStockPosition.trans ?_
    simp [holdingOf, closeVolume, Position.unfreeze, Holding.sell, hleft]
  have hpriced' : Priced (soldPosition stock t s.position) :=
    priced_updateStockPosition hlong hpositive.le (fun _ => hpositive) fun hzero =>
      absurd hzero hpositive.ne'
  simp only [applySell]
  split
  · exact ⟨hsold, hpriced'.unrealized, hpriced'.nonneg, hpriced'.positive⟩
  · exact ⟨hsold, hpriced'⟩

/-! ## Quotes -/

/-- A quote changes the price of what is held, not the holding. -/
theorem quoted_holding (market : Market) {quote : Quote} (s : Slice key) (hlong : key.direction = .Long)
    (hprice : 0 < quote.lastPrice) :
    let p' := (quoted stock market quote s).position
    holdingOf p' = holdingOf s.position ∧ Priced p' := by
  simp only [quoted, Position.direction, hlong]
  refine ⟨holdingOf_updateStockPosition, ?_⟩
  exact priced_updateStockPosition hlong hprice.le (fun _ => hprice) fun hzero =>
    absurd hzero hprice.ne'

/-! ## Books -/

namespace Book

variable {book book' : AccountBook} {key' : PositionKey} {direction : Direction}
  {exchangeId instrumentId : String}

/-- The position under a key, if there is one, is priced. -/
def PricedAt (book : AccountBook) (key : PositionKey) : Prop :=
  ∀ p : Position key, book.state.positions.lookup key = some p → Priced p

@[simp] theorem holding_setSlice (s : Slice key) : (book.setSlice s).holding key = holdingOf s.position :=
  holding_of_lookup (lookup_setSlice s)

theorem holding_setSlice_of_ne (s : Slice key') (h : key ≠ key') :
    (book.setSlice s).holding key = book.holding key := by
  simp only [holding, lookup_setSlice_of_ne s h]

theorem PricedAt.setSlice {s : Slice key} (h : Priced s.position) : (book.setSlice s).PricedAt key := by
  intro p hp
  rw [lookup_setSlice] at hp
  cases hp
  exact h

theorem PricedAt.setSlice_of_ne (h : book.PricedAt key) (s : Slice key') (hne : key ≠ key') :
    (book.setSlice s).PricedAt key := by
  intro p hp
  rw [lookup_setSlice_of_ne s hne] at hp
  exact h p hp

/-- The position that a book gives out is the holding of the book. -/
theorem Gives.holdingOf {p : Position (positionKey direction exchangeId instrumentId)}
    (h : book.Gives direction exchangeId instrumentId p) :
    Wingchun.holdingOf p = book.holding (positionKey direction exchangeId instrumentId) := by
  rcases h with h | ⟨h, type, -, rfl⟩
  · rw [holding_of_lookup h]
  · simp [holding, h, Wingchun.holdingOf, newPosition, emptyPosition]

theorem Gives.priced {p : Position (positionKey direction exchangeId instrumentId)}
    (h : book.Gives direction exchangeId instrumentId p)
    (hpriced : book.PricedAt (positionKey direction exchangeId instrumentId)) : Priced p := by
  rcases h with h | ⟨-, type, -, rfl⟩
  · exact hpriced p h
  · constructor <;> simp [newPosition, emptyPosition]

/-- A look through all positions changes no holding. -/
theorem calculateMarketvalue_holding (now : Int64) (hlong : key.direction = .Long)
    (h : book.PricedAt key) :
    (calculateMarketvalue stock now book).holding key = book.holding key ∧
      (calculateMarketvalue stock now book).PricedAt key := by
  constructor
  · simp only [holding, calculateMarketvalue, lookup_mapPositions]
    cases book.state.positions.lookup key with
    | none => rfl
    | some p => exact holdingOf_updateStockPosition
  · intro q hq
    rw [calculateMarketvalue, lookup_mapPositions, Option.map_eq_some_iff] at hq
    obtain ⟨p, hp, rfl⟩ := hq
    have hpriced := h p hp
    refine priced_updateStockPosition (p := { p with updateTime := now }) hlong hpriced.nonneg
      hpriced.positive fun hzero => ?_
    have hvolume : p.volume = 0 := by
      by_contra hne
      exact (hpriced.positive hne).ne' hzero
    simp [hpriced.unrealized, hvolume]

end Book

open Book

/-! ## One event -/

section Events

variable {q q' : Quoted} {now : Int64} {quote : Quote} {direction : Direction}

/-- A quote changes no holding on either side. -/
theorem applyQuoteTo_holding (hlong : key.direction = .Long) (hprice : 0 < quote.lastPrice)
    (hpriced : q.book.PricedAt key)
    (h : applyQuoteTo stock market now quote direction q = .ok q') :
    q'.book.holding key = q.book.holding key ∧ q'.book.PricedAt key := by
  obtain ⟨book, hposition, h⟩ := Outcome.exists_of_bind h
  obtain ⟨p, hp, rfl⟩ := gives_of_getPosition hposition
  -- the position is made if it is not there, and is the one that is quoted
  have hgiven : (q.book.setPosition p).holding key = q.book.holding key ∧
      (q.book.setPosition p).PricedAt key := by
    by_cases hkey : key = positionKey direction quote.exchangeId quote.instrumentId
    · subst hkey
      exact ⟨(holding_of_lookup (lookup_setPosition p)).trans hp.holdingOf,
        PricedAt.setSlice (s := ⟨_, _, p⟩) (hp.priced hpriced)⟩
    · exact ⟨holding_setSlice_of_ne ⟨_, _, p⟩ hkey, hpriced.setSlice_of_ne ⟨_, _, p⟩ hkey⟩
  split at h
  · cases h
    exact hgiven
  · have hquoted : ((q.book.setPosition p).onSlice direction quote.exchangeId quote.instrumentId
        (quoted stock market quote)).holding key = q.book.holding key ∧
        ((q.book.setPosition p).onSlice direction quote.exchangeId quote.instrumentId
          (quoted stock market quote)).PricedAt key := by
      rw [onSlice, slice_setPosition, setSlice_setPosition]
      by_cases hkey : key = positionKey direction quote.exchangeId quote.instrumentId
      · subst hkey
        obtain ⟨hholding, hpriced'⟩ := quoted_holding market
          ⟨q.book.state.asset, q.book.state.assetMargin, p⟩ hlong hprice
        exact ⟨(holding_setSlice _).trans (hholding.trans hp.holdingOf), PricedAt.setSlice hpriced'⟩
      · exact ⟨holding_setSlice_of_ne _ hkey, hpriced.setSlice_of_ne _ hkey⟩
    dsimp only at h
    split at h
    · cases h
      obtain ⟨hholding, hpriced'⟩ := calculateMarketvalue_holding now hlong hquoted.2
      exact ⟨hholding.trans hquoted.1, hpriced'⟩
    · cases h
      exact hquoted

theorem applyQuote_holding (hlong : key.direction = .Long) (hprice : 0 < quote.lastPrice)
    (hpriced : q.book.PricedAt key) (h : applyQuote stock market now quote q = .ok q') :
    q'.book.holding key = q.book.holding key ∧ q'.book.PricedAt key := by
  obtain ⟨q₁, hlongSide, h⟩ := Outcome.exists_of_bind h
  obtain ⟨q₂, hshortSide, h⟩ := Outcome.exists_of_bind h
  cases h
  obtain ⟨hholding₁, hpriced₁⟩ := applyQuoteTo_holding hlong hprice hpriced hlongSide
  obtain ⟨hholding₂, hpriced₂⟩ := applyQuoteTo_holding hlong hprice hpriced₁ hshortSide
  exact ⟨hholding₂.trans hholding₁, hpriced₂⟩

/-- What a trade to buy or to sell does to the holding of a book. -/
theorem applyTrade_holding {book book' : AccountBook} (hlong : key.direction = .Long)
    (hside : t.side = .Buy ∨ t.side = .Sell) (hprice : 0 < t.details.price)
    (hvolume : 0 < t.volume.toInt) (hheld : 0 ≤ (book.holding key).volume)
    (hcovered : messageKey (.trade t) = some key → t.side = .Sell →
      (t.volume.toInt : ℚ) ≤ (book.holding key).volume)
    (hpriced : book.PricedAt key) (h : applyTrade stock market book t = .ok book') :
    book'.holding key = (if messageKey (.trade t) = some key then (book.holding key).apply (dealOf t)
      else book.holding key) ∧ book'.PricedAt key := by
  have hon : ∃ f : ∀ {key : PositionKey}, Slice key → Slice key,
      book.onPositionFor (.trade t) f = .ok book' ∧ ∀ s : Slice key, Priced s.position →
        0 ≤ s.position.volume → (t.side = .Sell → t.volume.toInt ≤ s.position.volume) →
          holdingOf (f s).position = (holdingOf s.position).apply (dealOf t) ∧
            Priced (f s).position := by
    rcases hside with hbuy | hsell
    · simp only [applyTrade, hbuy] at h
      refine ⟨_, h, fun s hpriced hheld _ => ?_⟩
      rw [dealOf, if_pos hbuy]
      exact applyBuy_holding hpriced hheld hprice hvolume
    · simp only [applyTrade, hsell] at h
      refine ⟨_, h, fun s hpriced _ hsold => ?_⟩
      rw [dealOf, if_neg (by simp [hsell])]
      exact applySell_holding hlong hpriced (hsold hsell) hvolume
  obtain ⟨f, hf, heffect⟩ := hon
  obtain ⟨direction, p, hdirection, hp, rfl⟩ := onPositionFor_eq_ok hf
  have htrade : messageKey (.trade t) = some (positionKey direction (TradingData.trade t).exchangeId
      (TradingData.trade t).instrumentId) := by
    rw [messageKey, hdirection]
  by_cases hkey : key = positionKey direction (TradingData.trade t).exchangeId
      (TradingData.trade t).instrumentId
  · subst hkey
    rw [if_pos htrade, holding_setSlice, ← hp.holdingOf]
    rw [← hp.holdingOf] at hheld hcovered
    have hheld' : 0 ≤ p.volume := Int.cast_nonneg_iff.mp hheld
    obtain ⟨hholding, hpriced'⟩ := heffect ⟨_, _, p⟩ (hp.priced hpriced) hheld' fun hsell =>
      Int.cast_le.mp (hcovered htrade hsell)
    exact ⟨hholding, PricedAt.setSlice hpriced'⟩
  · have hne : messageKey (.trade t) ≠ some key := by
      rw [htrade]
      exact fun heq => hkey (Option.some.inj heq).symm
    rw [if_neg hne]
    exact ⟨holding_setSlice_of_ne _ hkey, hpriced.setSlice_of_ne _ hkey⟩

end Events

/-! ## Runs -/

section Runs

variable {events done : List StockEvent} {event : StockEvent} {q q' : Quoted}

theorem deals_concat : deals key (done ++ [event]) = deals key done ++ (deal key event).toList := by
  cases h : deal key event <;> simp [deals, h]

/-- What the deals of a position add to its volume. -/
theorem sum_volumeChange (hsound : ∀ e ∈ events, e.Sound) :
    ((deals key events).map Deal.volumeChange).sum = ((bought key events - sold key events : ℤ) : ℚ) := by
  induction events with
  | nil => simp [deals, bought, sold]
  | cons e events ih =>
      have hsum := ih fun e he => hsound e (List.mem_cons_of_mem _ he)
      cases e with
      | quote market now quote => exact hsum
      | trade market t =>
          obtain ⟨hside, -⟩ := hsound _ List.mem_cons_self
          by_cases hkey : messageKey (.trade t) = some key
          · rcases hside with hside | hside <;>
              simp [deals, bought, sold, deal, tradeOn, dealOf, hkey, hside, Deal.volumeChange] at hsum ⊢ <;>
              rw [hsum] <;> ring
          · simpa [deals, bought, sold, deal, tradeOn, hkey] using hsum

/-- The money that the deals of a position bring in. -/
theorem sum_income (hsound : ∀ e ∈ events, e.Sound) :
    ((deals key events).map Deal.income).sum = proceeds key events - cost key events := by
  induction events with
  | nil => simp [deals, proceeds, cost]
  | cons e events ih =>
      have hsum := ih fun e he => hsound e (List.mem_cons_of_mem _ he)
      cases e with
      | quote market now quote => exact hsum
      | trade market t =>
          obtain ⟨hside, -⟩ := hsound _ List.mem_cons_self
          by_cases hkey : messageKey (.trade t) = some key
          · rcases hside with hside | hside <;>
              simp [deals, proceeds, cost, deal, tradeOn, dealOf, hkey, hside, Deal.income] at hsum ⊢ <;>
              rw [hsum] <;> ring
          · simpa [deals, proceeds, cost, deal, tradeOn, hkey] using hsum

/-- A trade that sells adds to what was sold. -/
theorem sold_concat_sell {market : Market} {t : Trade Details}
    (hkey : messageKey (.trade t) = some key) (hside : t.side = .Sell) :
    sold key (events ++ [.trade market t]) = sold key events + t.volume.toInt := by
  simp [sold, tradeOn, hkey, hside]

theorem bought_concat_sell {market : Market} {t : Trade Details} (hside : t.side = .Sell) :
    bought key (events ++ [.trade market t]) = bought key events := by
  simp [bought, tradeOn, hside]

/-- A position is empty, or not there. -/
def Empty (book : AccountBook) (key : PositionKey) : Prop :=
  ∀ p : Position key, book.state.positions.lookup key = some p →
    p.volume = 0 ∧ p.realizedPnl = 0 ∧ p.unrealizedPnl = 0 ∧ 0 ≤ p.lastPrice

theorem Empty.pricedAt {book : AccountBook} (h : Empty book key) : book.PricedAt key := by
  intro p hp
  obtain ⟨hvolume, -, hunrealized, hprice⟩ := h p hp
  exact ⟨by simp [hvolume, hunrealized], hprice, fun hne => absurd hvolume hne⟩

theorem Empty.holding {book : AccountBook} (h : Empty book key) :
    (book.holding key).volume = 0 ∧ (book.holding key).balance = 0 := by
  cases hp : book.state.positions.lookup key with
  | none => simp [Book.holding, hp, Holding.balance]
  | some p =>
      obtain ⟨hvolume, hrealized, -⟩ := h p hp
      simp [holding_of_lookup hp, holdingOf, Holding.balance, hvolume, hrealized]

/-- The volume of an empty position after its deals. -/
theorem volume_run_deals {book : AccountBook} (hempty : Empty book key)
    (hsound : ∀ e ∈ events, e.Sound) :
    ((book.holding key).run (deals key events)).volume =
      ((bought key events - sold key events : ℤ) : ℚ) := by
  rw [Holding.volume_run, hempty.holding.1, zero_add, sum_volumeChange hsound]

/-- A position is the holding after its deals. -/
theorem StockEvent.holding_run (hlong : key.direction = .Long) (hempty : Empty q.book key)
    (hsound : ∀ e ∈ events, e.Sound) (hcovered : Covered key events) (hrun : run events q = .ok q') :
    q'.book.holding key = (q.book.holding key).run (deals key events) ∧ q'.book.PricedAt key := by
  refine Outcome.foldlM_invariant (I := fun done q' =>
    q'.book.holding key = (q.book.holding key).run (deals key done) ∧ q'.book.PricedAt key)
    ⟨rfl, hempty.pricedAt⟩ ?_ hrun
  rintro done e todo s s' rfl ⟨hholding, hpriced⟩ he
  have hsoundDone : ∀ e ∈ done, e.Sound := fun e he => hsound e (List.mem_append_left _ he)
  have hsoundStep : e.Sound := hsound e (by simp)
  cases e with
  | quote market now data =>
      obtain ⟨hsame, hpriced'⟩ := applyQuote_holding hlong hsoundStep hpriced he
      refine ⟨?_, hpriced'⟩
      rw [hsame, hholding, deals_concat]
      simp [deal]
  | trade market t =>
      obtain ⟨hside, hprice, hvolume⟩ := hsoundStep
      obtain ⟨book, hbook, hret⟩ := Outcome.exists_of_bind he
      cases hret
      have hheld := volume_run_deals hempty hsoundDone
      have hbefore := hcovered done (List.prefix_append ..)
      obtain ⟨hafter, hpriced'⟩ := applyTrade_holding hlong hside hprice hvolume
        (by rw [hholding, hheld]; exact_mod_cast sub_nonneg.mpr hbefore)
        (fun hkey hsell => by
          have hsold := hcovered (done ++ [.trade market t]) ⟨todo, by simp⟩
          rw [sold_concat_sell hkey hsell, bought_concat_sell hsell] at hsold
          rw [hholding, hheld]
          exact Int.cast_le.mpr (by omega)) hpriced hbook
      refine ⟨?_, hpriced'⟩
      rw [hafter, deals_concat]
      by_cases hkey : messageKey (.trade t) = some key <;> simp [hkey, deal, hholding]

theorem buy_mem_deals {volume price : ℚ} (hsound : ∀ e ∈ events, e.Sound)
    (h : .buy volume price ∈ deals key events) : 0 < volume := by
  obtain ⟨e, he, hdeal⟩ := List.mem_filterMap.mp h
  have hsoundEvent := hsound e he
  cases e with
  | quote market now data => cases hdeal
  | trade market t =>
      simp only [deal, dealOf] at hdeal
      split at hdeal
      · split at hdeal
        · cases hdeal
          exact_mod_cast hsoundEvent.2.2
        · cases hdeal
      · cases hdeal

/-- Every purchase of a run that sells only what is held averages. -/
theorem allAverage_deals {book : AccountBook} (hempty : Empty book key)
    (hsound : ∀ e ∈ events, e.Sound) (hcovered : Covered key events) :
    (book.holding key).AllAverage (deals key events) := by
  apply Holding.allAverage_of_covered
  · intro done hdone
    obtain ⟨before, hbefore, rfl⟩ := List.prefix_filterMap_iff.mp hdone
    change 0 ≤ ((book.holding key).run (deals key before)).volume
    rw [volume_run_deals hempty fun e he => hsound e (hbefore.subset he)]
    exact_mod_cast sub_nonneg.mpr (hcovered before hbefore)
  · exact fun volume price h => buy_mem_deals hsound h

/-- After every sequence of trades and quotes the profit and loss of a long position that started
empty is what was got for it, less what was paid, and the value of what is held. -/
theorem StockEvent.pnl_of_run {p : Position key} (hlong : key.direction = .Long)
    (hempty : Empty q.book key) (hsound : ∀ e ∈ events, e.Sound) (hcovered : Covered key events)
    (hrun : run events q = .ok q') (hp : q'.book.state.positions.lookup key = some p) :
    p.volume = bought key events - sold key events ∧
      p.realizedPnl + p.unrealizedPnl =
        proceeds key events - cost key events + p.volume * p.lastPrice := by
  obtain ⟨hholding, hpriced⟩ := holding_run hlong hempty hsound hcovered hrun
  rw [holding_of_lookup hp] at hholding
  have hvolume : (p.volume : ℚ) = ((bought key events - sold key events : ℤ) : ℚ) := by
    rw [← volume_run_deals hempty hsound, ← hholding]
    rfl
  refine ⟨Int.cast_injective hvolume, ?_⟩
  have hgain := Holding.gain_run (allAverage_deals hempty hsound hcovered) p.lastPrice
  rw [← hholding, sum_income hsound, hempty.holding.2, zero_add] at hgain
  calc p.realizedPnl + p.unrealizedPnl = (holdingOf p).gain p.lastPrice := by
        rw [(hpriced p hp).unrealized]
        rfl
    _ = proceeds key events - cost key events + p.volume * p.lastPrice := hgain

/-- 10 shares are bought at 5 and quoted at 6, and 4 of them are sold at 7. -/
def examplePnl : List StockEvent :=
  let trade (tradeId : UInt64) (side : Side) (volume : Int64) (price : ℚ) : Trade Details :=
    ⟨tradeId, tradeId, "", "", "600000", "SSE", .Stock, side, volume,
      ⟨.Open, .Speculation, price, 0, 0⟩⟩
  [.trade noInstruments (trade 1 .Buy 10 5), .quote noInstruments 1 ⟨"600000", "SSE", 0, 6, 0⟩,
    .trade noInstruments (trade 2 .Sell 4 7)]

def exampleQuoted : Quoted where
  counter := 0
  book := emptyBook 10 .Account "20260929"

/-- Of 10 shares for 50 there are 6 left at the quoted price, and 4 brought in 28. -/
theorem StockEvent.pnl_of_run_example : ∃ q', run examplePnl exampleQuoted = .ok q' ∧
    ∃ p : Position (positionKey .Long "SSE" "600000"), q'.book.state.positions.lookup _ = some p ∧
      p.lastPrice = 6 ∧ p.volume = 6 ∧ p.realizedPnl + p.unrealizedPnl = 28 - 50 + 6 * 6 := by
  have hany : (run examplePnl exampleQuoted).toOption.any (fun q' =>
      (q'.book.state.positions.lookup (positionKey .Long "SSE" "600000")).any
        fun p => p.lastPrice = 6) = true := by
    decide +kernel
  obtain ⟨q', hrun, hlookup⟩ := Outcome.exists_of_any hany
  refine ⟨q', hrun, ?_⟩
  cases hp : q'.book.state.positions.lookup (positionKey .Long "SSE" "600000") with
  | none => simp [hp] at hlookup
  | some p =>
      have hprice : p.lastPrice = 6 := by simpa [hp] using hlookup
      obtain ⟨hvolume, hpnl⟩ := pnl_of_run rfl (fun p h => by simp [exampleQuoted, emptyBook] at h)
        (by decide +kernel) (by decide +kernel) hrun hp
      have hheld : p.volume = 6 := by
        rw [hvolume]
        decide +kernel
      refine ⟨p, rfl, hprice, hheld, ?_⟩
      rw [hpnl, hheld, hprice]
      decide +kernel

end Runs

end Kungfu.Wingchun
