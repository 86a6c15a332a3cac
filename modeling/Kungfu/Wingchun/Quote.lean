import Kungfu.Wingchun.Stock

/-!
# Quotes

A quote changes the price of the positions in an instrument on both sides, with what depends on it.
Every now and then it makes the accounting method go through all positions of a book.
-/

namespace Kungfu.Wingchun

open Longfist

/-- The fields of a quote that are read here. -/
structure Quote (K : Type := ℚ) where
  instrumentId : String
  exchangeId : String
  dataTime : ℤ
  lastPrice : K
  volume : ℤ
  deriving DecidableEq, Repr

/-! ## Prices -/

section Prices

variable {K : Type} [Sub K] [Mul K] [Div K] [Neg K] [Max K] [LT K] [DecidableLT K] [LE K]
  [DecidableLE K] [∀ n, OfNat K n]

/-- `DOUBLEMAX`. -/
def doubleMax : K := 10000000000000000

/-- `is_greater`. -/
def isGreater (x y : K) : Bool := epsilon < x - y

/-- `is_less`. -/
def isLess (x y : K) : Bool := x - y < -epsilon

/-- `is_less_equal`. -/
def isLessEqual (x y : K) : Bool := isLess x y || isEqual x y

/-- `is_too_large`. -/
def isTooLarge (x : K) : Bool := isGreater x doubleMax

/-- `is_valid_price`. -/
def isValidPrice (price : K) : Bool := !isLessEqual price 0 && !isTooLarge price

end Prices

/-! ## All positions of a book -/

namespace Book

variable {key : PositionKey}

/-- A change of every position. -/
def mapPositions (f : ∀ {key : PositionKey}, Position key → Position key)
    (positions : Finmap (PositionAt ℚ)) : Finmap (PositionAt ℚ) where
  entries := positions.entries.map fun entry => ⟨entry.1, f entry.2⟩
  nodupKeys := by
    have hkeys : (positions.entries.map fun entry : Sigma (PositionAt ℚ) =>
        (⟨entry.1, f entry.2⟩ : Sigma (PositionAt ℚ))).keys = positions.entries.keys := by
      simp [Multiset.keys]
    rw [← Multiset.nodup_keys, hkeys, Multiset.nodup_keys]
    exact positions.nodupKeys

@[simp] theorem lookup_mapPositions (f : ∀ {key : PositionKey}, Position key → Position key)
    (positions : Finmap (PositionAt ℚ)) :
    (mapPositions f positions).lookup key = (positions.lookup key).map f := by
  apply Option.ext
  intro q
  rw [Finmap.lookup_eq_some_iff, Option.map_eq_some_iff]
  constructor
  · intro hq
    obtain ⟨⟨k, p⟩, hp, heq⟩ := Multiset.mem_map.mp hq
    obtain ⟨rfl, hfp⟩ := Sigma.mk.inj heq
    exact ⟨p, Finmap.lookup_eq_some_iff.mpr hp, eq_of_heq hfp⟩
  · rintro ⟨p, hp, rfl⟩
    exact Multiset.mem_map.mpr ⟨⟨key, p⟩, Finmap.lookup_eq_some_iff.mp hp, rfl⟩

end Book

namespace StockAccountingMethod

variable {key : PositionKey}

/-- `calculate_marketvalue`, without the market values, which nothing reads. -/
def calculateMarketvalue (method : StockAccountingMethod) (now : Int64) (book : AccountBook) :
    AccountBook :=
  { book with state := { book.state with
      positions := Book.mapPositions
        (fun position => method.updatePosition { position with updateTime := now })
        book.state.positions } }

/-- The quote is of no use for a position. -/
def Ignores (quote : Quote) (position : Position key) : Prop :=
  isValidPrice quote.lastPrice = false ∨ position.volume = 0

instance (quote : Quote) (position : Position key) : Decidable (Ignores quote position) :=
  inferInstanceAs (Decidable (_ ∨ _))

/-- What a quote changes of the asset and of a position that it is of use for. -/
def quoted (method : StockAccountingMethod) (market : Market) (quote : Quote) (s : Slice key) :
    Slice key :=
  let lastPrice := if s.position.lastPrice = 0 then quote.lastPrice else s.position.lastPrice
  let priceChange := quote.lastPrice - lastPrice
  let position := { s.position with lastPrice := quote.lastPrice }
  let cdMr := getInstrConversionMarginRate market position
  let marketValueChange := priceChange * cdMr.exchangeRate * position.volume
  match position.direction with
  | .Long =>
      { asset := { s.asset with
          marketValue := s.asset.marketValue + marketValueChange
          unrealizedPnl := s.asset.unrealizedPnl + marketValueChange }
        assetMargin := { s.assetMargin with
          totalAsset := s.assetMargin.totalAsset + marketValueChange }
        position := method.updatePosition position }
  | .Short =>
      let shortMarginChange :=
        if quote.lastPrice < position.avgOpenPrice then cdMr.shortMarginRatio * marketValueChange
        else marketValueChange
      let availMarginChange :=
        if priceChange ≠ 0 then -cdMr.conversionRate * marketValueChange - shortMarginChange else 0
      { asset := { s.asset with unrealizedPnl := s.asset.unrealizedPnl - marketValueChange }
        assetMargin := { s.assetMargin with
          shortMargin := s.assetMargin.shortMargin + shortMarginChange
          shortMarketValue := s.assetMargin.shortMarketValue + marketValueChange
          margin := s.assetMargin.margin + shortMarginChange
          availMargin := s.assetMargin.availMargin + availMarginChange }
        position := method.updatePosition { position with
          margin := position.margin + shortMarginChange } }

/-- A book, and the counter of quotes that all books share. -/
structure Quoted where
  counter : ℕ
  book : AccountBook

/-- What `apply_quote` does on one side. -/
def applyQuoteTo (method : StockAccountingMethod) (market : Market) (now : Int64) (quote : Quote)
    (direction : Direction) (q : Quoted) : Throws Quoted := do
  let book ← q.book.getPosition direction quote.exchangeId quote.instrumentId
  if Ignores quote (book.position direction quote.exchangeId quote.instrumentId) then
    return { q with book := book }
  else
    let book := book.onSlice direction quote.exchangeId quote.instrumentId (quoted method market quote)
    if 20 < q.counter then return ⟨0, calculateMarketvalue method now book⟩
    else return { q with book := book }

/-- `apply_quote`. -/
def applyQuote (method : StockAccountingMethod) (market : Market) (now : Int64) (quote : Quote)
    (q : Quoted) : Throws Quoted := do
  let q ← applyQuoteTo method market now quote .Long q
  let q ← applyQuoteTo method market now quote .Short q
  return { q with counter := q.counter + 1 }

end StockAccountingMethod

end Kungfu.Wingchun
