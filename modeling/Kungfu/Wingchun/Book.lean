import Kungfu.Wingchun.Bookkeeper
import Kungfu.Wingchun.Instrument
import Kungfu.Logic.Outcome
import Mathlib.Data.Finmap
import Mathlib.Algebra.BigOperators.Group.Multiset.Basic

/-!
# The contents of a book

A book holds the asset of its owner and the positions, which are made when they are first
asked for.  An accounting method changes the asset and one position at a time; what it sees
of a book for this is a `Slice`.
-/

namespace Kungfu.Longfist.Position

variable {key : PositionKey} {K : Type}

/-- The volume of an order to close is frozen, of yesterday's volume as much as there is. -/
def freeze (volume : ℤ) (position : Position key K) : Position key K :=
  { position with
    frozenTotal := position.frozenTotal + volume
    frozenYesterday :=
      if volume ≤ position.yesterdayVolume - position.frozenYesterday then
        position.frozenYesterday + volume
      else position.yesterdayVolume }

/-- The volume that an order leaves is not frozen any more. -/
def unfreeze (volume : ℤ) (position : Position key K) : Position key K :=
  { position with
    frozenTotal := max (position.frozenTotal - volume) 0
    frozenYesterday := max (position.frozenYesterday - volume) 0 }

/-- An order to close today's volume freezes nothing of yesterday's. -/
def freezeToday (volume : ℤ) (position : Position key K) : Position key K :=
  { position with frozenTotal := position.frozenTotal + volume }

/-- What an order to close today's volume leaves is not frozen any more. -/
def unfreezeToday (volume : ℤ) (position : Position key K) : Position key K :=
  { position with
    frozenTotal :=
      if volume ≤ position.frozenTotal then position.frozenTotal - volume
      else position.frozenTotal }

end Kungfu.Longfist.Position

namespace Kungfu.Wingchun

open Longfist

/-- What is thrown, and the state that is left behind. -/
structure Thrown (σ : Type) where
  fault : Fault
  state : σ

structure Account (K : Type := ℚ) where
  asset : Asset K
  assetMargin : AssetMargin K
  /-- `long_positions` and `short_positions`. -/
  positions : Finmap (PositionAt K)
  orderInputs : UInt64 → Option (OrderInput (Details K) K)

abbrev AccountBook (K : Type := ℚ) := Book (Details K) (Account K) K

/-- A computation on a book of numbers that may throw. -/
abbrev ThrowsOf (K : Type) := Except (Thrown (AccountBook K))

/-- A computation on a book that may throw. -/
abbrev Throws := ThrowsOf ℚ

/-- The parts of a book that trading in one instrument changes. -/
structure Slice (key : PositionKey) (K : Type := ℚ) where
  asset : Asset K
  assetMargin : AssetMargin K
  position : Position key K

/-- The key that `Book::get_position` looks under. -/
def positionKey (direction : Direction) (exchangeId instrumentId : String) : PositionKey :=
  ⟨direction, hashInstrument exchangeId instrumentId⟩

namespace Book

variable {key key' : PositionKey} {K : Type}

/-! ## Positions -/

def setPosition (book : AccountBook K) (position : Position key K) : AccountBook K :=
  { book with state := { book.state with positions := book.state.positions.insert key position } }

/-- The entry that `Book::get_position` makes, up to where it asks for the instrument's type. -/
def emptyPosition [∀ n, OfNat K n] (book : AccountBook K) (direction : Direction)
    (exchangeId instrumentId : String) :
    Position (positionKey direction exchangeId instrumentId) K where
  updateTime := 0
  tradingDay := book.state.asset.tradingDay
  instrumentId := instrumentId
  instrumentType := .Unknown
  exchangeId := exchangeId
  holderUid := 0
  ledgerCategory := .Account
  volume := 0
  yesterdayVolume := 0
  frozenTotal := 0
  frozenYesterday := 0
  lastPrice := 0
  avgOpenPrice := 0
  positionCostPrice := 0
  closePrice := 0
  preClosePrice := 0
  settlementPrice := 0
  preSettlementPrice := 0
  margin := 0
  positionPnl := 0
  closePnl := 0
  realizedPnl := 0
  unrealizedPnl := 0
  hashed := rfl

/-- The position under a key, or an empty one. -/
def position [∀ n, OfNat K n] (book : AccountBook K) (direction : Direction)
    (exchangeId instrumentId : String) :
    Position (positionKey direction exchangeId instrumentId) K :=
  (book.state.positions.lookup _).getD (book.emptyPosition direction exchangeId instrumentId)

theorem position_of_lookup {book : AccountBook} {direction : Direction}
    {exchangeId instrumentId : String} {p : Position (positionKey direction exchangeId instrumentId)}
    (h : book.state.positions.lookup (positionKey direction exchangeId instrumentId) = some p) :
    book.position direction exchangeId instrumentId = p := by
  rw [position, h, Option.getD_some]

/-- The entry that `Book::get_position` makes for an instrument of a type. -/
def newPosition [∀ n, OfNat K n] (book : AccountBook K) (direction : Direction)
    (exchangeId instrumentId : String) (instrumentType : InstrumentType) :
    Position (positionKey direction exchangeId instrumentId) K :=
  { book.emptyPosition direction exchangeId instrumentId with
    instrumentType := instrumentType
    holderUid := book.state.asset.holderUid
    ledgerCategory := book.state.asset.ledgerCategory }

/-- `Book::get_position`. -/
def getPosition [∀ n, OfNat K n] (book : AccountBook K) (direction : Direction)
    (exchangeId instrumentId : String) : ThrowsOf K (AccountBook K) :=
  if (book.state.positions.lookup (positionKey direction exchangeId instrumentId)).isSome then
    .ok book
  else
    match getInstrumentType exchangeId instrumentId with
    | .error fault =>
        -- the entry is in the map already
        .error ⟨fault, book.setPosition (book.emptyPosition direction exchangeId instrumentId)⟩
    | .ok instrumentType =>
        .ok (book.setPosition (book.newPosition direction exchangeId instrumentId instrumentType))

/-! ## Changes of the asset and one position -/

def slice [∀ n, OfNat K n] (book : AccountBook K) (direction : Direction)
    (exchangeId instrumentId : String) : Slice (positionKey direction exchangeId instrumentId) K where
  asset := book.state.asset
  assetMargin := book.state.assetMargin
  position := book.position direction exchangeId instrumentId

def setSlice (book : AccountBook K) (s : Slice key K) : AccountBook K :=
  { book with state := { book.state with
      asset := s.asset
      assetMargin := s.assetMargin
      positions := book.state.positions.insert key s.position } }

/-- A change of the asset and the position under a key. -/
def onSlice [∀ n, OfNat K n] (book : AccountBook K) (direction : Direction)
    (exchangeId instrumentId : String)
    (f : Slice (positionKey direction exchangeId instrumentId) K →
      Slice (positionKey direction exchangeId instrumentId) K) : AccountBook K :=
  book.setSlice (f (book.slice direction exchangeId instrumentId))

/-- A fault that is thrown while the book is as it is. -/
def orThrow {β : Type} (book : AccountBook K) (x : Except Fault β) : ThrowsOf K β :=
  x.mapError fun fault => ⟨fault, book⟩

/-- A change of the asset and of the position that `Book::get_position_for` finds. -/
def onPositionFor [∀ n, OfNat K n] (book : AccountBook K) (data : TradingData K)
    (f : ∀ {key : PositionKey}, Slice key K → Slice key K) : ThrowsOf K (AccountBook K) := do
  let direction ← book.orThrow (getDirection data.instrumentType data.side data.offset)
  let book ← book.getPosition direction data.exchangeId data.instrumentId
  return book.onSlice direction data.exchangeId data.instrumentId f

section Positions

variable {book book' : AccountBook} {direction : Direction} {exchangeId instrumentId : String}
  {position : Position (positionKey direction exchangeId instrumentId)}

@[simp] theorem orders_setPosition (p : Position key) :
    (book.setPosition p).orders = book.orders := rfl

@[simp] theorem lookup_setPosition (p : Position key) :
    (book.setPosition p).state.positions.lookup key = some p :=
  Finmap.lookup_insert _

theorem lookup_setPosition_of_ne (p : Position key) (h : key' ≠ key) :
    (book.setPosition p).state.positions.lookup key' = book.state.positions.lookup key' :=
  Finmap.lookup_insert_of_ne _ h

@[simp] theorem lookup_setSlice (s : Slice key) :
    (book.setSlice s).state.positions.lookup key = some s.position :=
  Finmap.lookup_insert _

theorem lookup_setSlice_of_ne (s : Slice key) (h : key' ≠ key) :
    (book.setSlice s).state.positions.lookup key' = book.state.positions.lookup key' :=
  Finmap.lookup_insert_of_ne _ h

theorem insert_of_lookup {positions : Finmap (PositionAt ℚ)} {p : Position key}
    (h : positions.lookup key = some p) : positions.insert key p = positions := by
  apply Finmap.ext_lookup
  intro k
  by_cases hk : k = key
  · subst hk
    rw [Finmap.lookup_insert, h]
  · rw [Finmap.lookup_insert_of_ne _ hk]

theorem insert_eq_insert_erase (positions : Finmap (PositionAt ℚ)) (p : Position key) :
    positions.insert key p = (positions.erase key).insert key p := by
  apply Finmap.ext_lookup
  intro k
  by_cases hk : k = key
  · subst hk
    simp
  · simp [Finmap.lookup_insert_of_ne _ hk, Finmap.lookup_erase_ne hk]

/-- A position that is put in stands beside the positions under other keys. -/
theorem entries_insert (positions : Finmap (PositionAt ℚ)) (p : Position key) :
    (positions.insert key p).entries = ⟨key, p⟩ ::ₘ (positions.erase key).entries := by
  rw [insert_eq_insert_erase]
  exact Finmap.entries_insert_of_notMem Finmap.notMem_erase_self

/-- To put back the position that a book holds changes nothing. -/
theorem setPosition_of_lookup {p : Position key}
    (h : book.state.positions.lookup key = some p) : book.setPosition p = book := by
  rw [setPosition, insert_of_lookup h]

@[simp] theorem setSlice_setPosition (p : Position key) (s : Slice key) :
    (book.setPosition p).setSlice s = book.setSlice s := by
  simp only [setSlice, setPosition, Finmap.insert_insert]

@[simp] theorem slice_setPosition :
    (book.setPosition position).slice direction exchangeId instrumentId =
      ⟨book.state.asset, book.state.assetMargin, position⟩ := by
  simp only [slice, Book.position, lookup_setPosition, Option.getD_some]
  rfl

/-- The position that a book gives out: the one that it holds, or a new one. -/
def Gives (book : AccountBook) (direction : Direction) (exchangeId instrumentId : String)
    (p : Position (positionKey direction exchangeId instrumentId)) : Prop :=
  book.state.positions.lookup _ = some p ∨
    book.state.positions.lookup (positionKey direction exchangeId instrumentId) = none ∧
      ∃ instrumentType, getInstrumentType exchangeId instrumentId = .ok instrumentType ∧
        p = book.newPosition direction exchangeId instrumentId instrumentType

theorem getPosition_of_lookup
    (h : book.state.positions.lookup (positionKey direction exchangeId instrumentId) =
      some position) : book.getPosition direction exchangeId instrumentId = .ok book := by
  rw [getPosition, h]
  rfl

/-- A position that was asked for is in the book. -/
theorem gives_of_getPosition (h : book.getPosition direction exchangeId instrumentId = .ok book') :
    ∃ p, book.Gives direction exchangeId instrumentId p ∧ book' = book.setPosition p := by
  cases hp : book.state.positions.lookup (positionKey direction exchangeId instrumentId) with
  | some p =>
      rw [getPosition_of_lookup hp] at h
      cases h
      exact ⟨p, .inl hp, (setPosition_of_lookup hp).symm⟩
  | none =>
      cases ht : getInstrumentType exchangeId instrumentId with
      | error fault => simp [getPosition, hp, ht] at h
      | ok type =>
          simp only [getPosition, hp, ht, Option.isSome_none, Bool.false_eq_true, if_false,
            Except.ok.injEq] at h
          exact ⟨_, .inr ⟨hp, type, ht, rfl⟩, h.symm⟩

/-- The book has an entry for a position. -/
def Has (book : AccountBook K) (key : PositionKey) : Prop := (book.state.positions.lookup key).isSome

instance (book : AccountBook K) (key : PositionKey) : Decidable (book.Has key) :=
  inferInstanceAs (Decidable (_ = true))

/-- Entries stay in a book. -/
def Grows (book book' : AccountBook) : Prop := ∀ ⦃key⦄, book.Has key → book'.Has key

theorem Grows.refl (book : AccountBook) : Grows book book := fun _ h => h

theorem Grows.trans {book'' : AccountBook} (h : Grows book book') (h' : Grows book' book'') :
    Grows book book'' := fun _ hk => h' (h hk)

theorem Grows.of_positions_eq (h : book'.state.positions = book.state.positions) :
    Grows book book' := by
  intro k hk
  rw [Has, h]
  exact hk

theorem Grows.of_state_eq (h : book'.state = book.state) : Grows book book' :=
  .of_positions_eq (congrArg Account.positions h)

theorem grows_setSlice (s : Slice key) : Grows book (book.setSlice s) := by
  intro k hk
  by_cases heq : k = key
  · subst heq
    simp [Has]
  · rw [Has, lookup_setSlice_of_ne s heq]
    exact hk

theorem grows_setPosition (p : Position key) : Grows book (book.setPosition p) :=
  grows_setSlice (⟨book.state.asset, book.state.assetMargin, p⟩ : Slice key)

/-- What is true of the positions of a book and of new ones is true of what it gives out. -/
theorem Gives.elim {P : ∀ {key : PositionKey}, Position key → Prop}
    (h : book.Gives direction exchangeId instrumentId position)
    (hheld : ∀ {key : PositionKey} {p : Position key},
      book.state.positions.lookup key = some p → P p)
    (hnew : ∀ type, P (book.newPosition direction exchangeId instrumentId type)) : P position := by
  rcases h with h | ⟨-, type, -, rfl⟩
  · exact hheld h
  · exact hnew type

end Positions

/-- A position that is in the book is changed without fail. -/
theorem onPositionFor_setPosition {book : AccountBook} {data : TradingData} {direction : Direction}
    (hdirection : getDirection data.instrumentType data.side data.offset = .ok direction)
    (p : Position (positionKey direction data.exchangeId data.instrumentId))
    (f : ∀ {key : PositionKey}, Slice key → Slice key) :
    (book.setPosition p).onPositionFor data f =
      .ok (book.setSlice (f ⟨book.state.asset, book.state.assetMargin, p⟩)) := by
  simp only [onPositionFor, hdirection, orThrow, Except.mapError, Outcome.ok_bind,
    getPosition_of_lookup (lookup_setPosition p), onSlice, slice_setPosition,
    setSlice_setPosition]
  rfl

/-- A change that completes was made to the position that the book gives out. -/
theorem onPositionFor_eq_ok {book book' : AccountBook} {data : TradingData}
    {f : ∀ {key : PositionKey}, Slice key → Slice key} (h : book.onPositionFor data f = .ok book') :
    ∃ direction p, getDirection data.instrumentType data.side data.offset = .ok direction ∧
      book.Gives direction data.exchangeId data.instrumentId p ∧
      book' = book.setSlice (f ⟨book.state.asset, book.state.assetMargin, p⟩) := by
  unfold onPositionFor at h
  obtain ⟨direction, hdirection, h⟩ := Outcome.exists_of_bind h
  obtain ⟨book₀, hposition, h⟩ := Outcome.exists_of_bind h
  obtain ⟨p, hp, rfl⟩ := gives_of_getPosition hposition
  rw [orThrow, Outcome.mapError_eq_ok] at hdirection
  refine ⟨direction, p, hdirection, hp, ?_⟩
  rw [onSlice, slice_setPosition, setSlice_setPosition] at h
  cases h
  rfl

/-! ## Orders -/

/-- `Book::get_frozen_price`. -/
def getFrozenPrice [∀ n, OfNat K n] (book : AccountBook K) (orderId : UInt64) : K :=
  match book.orders orderId with
  | some order => order.frozenPrice
  | none => 0

/-- What the accounting methods do with an order first. -/
def emplaceOrder (book : AccountBook K) (order : Order (Details K) K) : AccountBook K :=
  if (book.orders order.orderId).isSome then book
  else { book with orders := Function.update book.orders order.orderId (some order) }

/-- What accounting of stocks does with trading data first. -/
def emplace (book : AccountBook) : TradingData → AccountBook
  | .order order => book.emplaceOrder order
  | _ => book

@[simp] theorem state_emplaceOrder (book : AccountBook) (order : Order Details) :
    (book.emplaceOrder order).state = book.state := by
  unfold emplaceOrder
  split <;> rfl

@[simp] theorem state_emplace (book : AccountBook) (data : TradingData) :
    (book.emplace data).state = book.state := by
  cases data with
  | order order => exact state_emplaceOrder book order
  | _ => rfl

theorem orders_emplaceOrder_of_ne (book : AccountBook) {order : Order Details} {orderId : UInt64}
    (h : orderId ≠ order.orderId) : (book.emplaceOrder order).orders orderId = book.orders orderId := by
  unfold emplaceOrder
  split
  · rfl
  · exact Function.update_of_ne h ..

theorem emplaceOrder_setPosition (book : AccountBook) (p : Position key) (order : Order Details) :
    (book.setPosition p).emplaceOrder order = (book.emplaceOrder order).setPosition p := by
  by_cases h : (book.orders order.orderId).isSome
  · simp only [emplaceOrder, orders_setPosition, h, if_true]
  · simp only [emplaceOrder, orders_setPosition, h, Bool.false_eq_true, if_false]
    rfl

/-- What accounting of futures does with a trade first. -/
def emplaceTrade (book : AccountBook K) (trade : Trade (Details K)) : AccountBook K :=
  if (book.trades trade.tradeId).isSome then book
  else { book with trades := Function.update book.trades trade.tradeId (some trade) }

/-- `Book::replace`. -/
def replaceData (book : AccountBook) : TradingData → AccountBook
  | .orderInput input => { book with state := { book.state with
      orderInputs := Function.update book.state.orderInputs input.orderId (some input) } }
  | .order order => book.replace (.order order)
  | .trade trade => book.replace (.trade trade)

/-! ## Sums over positions -/

/-- The types that `Book::update` takes for stocks. -/
def isStock : InstrumentType → Bool
  | .Stock | .Bond | .Fund | .StockOption | .TechStock | .Index | .Repo => true
  | _ => false

/-- The exchange rate that `Book::update` uses for a position. -/
def dbExchangeRate (market : Market) (position : Position key) : ℚ :=
  market.exchangeRate (hashInstrument position.exchangeId position.instrumentId)

/-- The market value of a position. -/
def positionMarketValue (market : Market) (position : Position key) : ℚ :=
  position.volume *
    (if 0 < position.lastPrice then position.lastPrice else position.avgOpenPrice) *
    dbExchangeRate market position

/-- What `Book::update` adds to the market value of the asset for a position. -/
def marketValueShare (market : Market) (position : Position key) : ℚ :=
  if isStock position.instrumentType ∧ position.direction = .Short then 0
  else positionMarketValue market position

/-- What `Book::update` adds to the profit that is not realized. -/
def unrealizedPnlShare (market : Market) (position : Position key) : ℚ :=
  if isStock position.instrumentType ∧ position.direction = .Short then 0
  else position.unrealizedPnl * dbExchangeRate market position

/-- What `Book::update` adds to the dynamic equity. -/
def equityShare (market : Market) (position : Position key) : ℚ :=
  if isStock position.instrumentType then
    if position.direction = .Long then positionMarketValue market position else 0
  else if position.instrumentType = .Future then
    position.margin + position.positionPnl * dbExchangeRate market position
  else 0

/-- What `Book::update` adds to the value of what was sold short. -/
def shortMarketValueShare (market : Market) (position : Position key) : ℚ :=
  if isStock position.instrumentType ∧ position.direction = .Short then
    positionMarketValue market position
  else 0

/-- The sum over all positions. -/
def sumPositions (account : Account) (f : ∀ {key : PositionKey}, Position key → ℚ) : ℚ :=
  (account.positions.entries.map fun entry => f entry.2).sum

/-- The sum over the positions under other keys. -/
def sumOthers (book : AccountBook) (f : ∀ {key : PositionKey}, Position key → ℚ)
    (key : PositionKey) : ℚ :=
  ((book.state.positions.erase key).entries.map fun entry => f entry.2).sum

theorem sumPositions_setSlice (book : AccountBook) (f : ∀ {key : PositionKey}, Position key → ℚ)
    (s : Slice key) :
    sumPositions (book.setSlice s).state f = f s.position + book.sumOthers f key := by
  simp [sumPositions, setSlice, entries_insert, sumOthers]

/-- A position that the book gives out counts, if it is new as nothing. -/
theorem Gives.sumPositions {book : AccountBook} {direction : Direction}
    {exchangeId instrumentId : String}
    {p : Position (positionKey direction exchangeId instrumentId)}
    (h : book.Gives direction exchangeId instrumentId p)
    {f : ∀ {key : PositionKey}, Position key → ℚ}
    (hnew : ∀ type, f (book.newPosition direction exchangeId instrumentId type) = 0) :
    sumPositions book.state f =
      f p + book.sumOthers f (positionKey direction exchangeId instrumentId) := by
  rcases h with h | ⟨h, type, -, rfl⟩
  · rw [← sumPositions_setSlice book f ⟨book.state.asset, book.state.assetMargin, p⟩]
    simp only [Book.sumPositions, setSlice, insert_of_lookup h]
  · have herase : book.state.positions.erase (positionKey direction exchangeId instrumentId) =
        book.state.positions := by
      apply Finmap.ext_lookup
      intro k
      by_cases hk : k = positionKey direction exchangeId instrumentId
      · subst hk
        rw [Finmap.lookup_erase, h]
      · exact Finmap.lookup_erase_ne hk
    rw [hnew, zero_add, sumOthers, herase]
    rfl

/-- `Book::update`. -/
def update (market : Market) (updateTime : Int64) (book : AccountBook) : AccountBook :=
  let account := book.state
  let isStockAcct := ∀ entry ∈ account.positions.entries, isStock entry.2.instrumentType
  { book with state := { account with
      asset := { account.asset with
        updateTime := updateTime
        margin := if isStockAcct then 0 else sumPositions account fun position => position.margin
        marketValue := sumPositions account (marketValueShare market)
        unrealizedPnl := sumPositions account (unrealizedPnlShare market)
        dynamicEquity := account.asset.avail + sumPositions account (equityShare market) }
      assetMargin := { account.assetMargin with
        shortMarketValue := sumPositions account (shortMarketValueShare market) } } }

end Book

end Kungfu.Wingchun
