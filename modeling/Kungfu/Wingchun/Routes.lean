import Kungfu.Wingchun.UpdateBook
import Kungfu.Logic.Iteration

/-!
# Assets and positions that others report

A bookkeeper gets assets and positions on two routes.  What a trader writes for
synchronization goes to a replica of the book first: when all positions have come the book
is compared with its replica, and made the same if a volume differs.  What comes on another
way is put into the book at once.
-/

namespace Kungfu.Wingchun

open Longfist Logic

/-- A position as it is sent, which says itself where it is filed. -/
abbrev Row (K : Type := ℚ) := Sigma (PositionAt K)

/-! ## Books -/

namespace Book

section Positions

variable {K : Type} [∀ n, OfNat K n]

/-- `Book::get_position_for` for the direction and the instrument of a position. -/
def getPositionFor (book : AccountBook K) (row : Row K) : ThrowsOf K (AccountBook K) :=
  book.getPosition row.2.direction row.2.exchangeId row.2.instrumentId

/-- The position of a book that stands where a row is filed. -/
def positionFor (book : AccountBook K) (row : Row K) :
    Position (positionKey row.2.direction row.2.exchangeId row.2.instrumentId) K :=
  book.position row.2.direction row.2.exchangeId row.2.instrumentId

end Positions

/-- The position of a row takes the place of the one in the book. -/
def assign (book : AccountBook) (row : Row) : Throws AccountBook := do
  let book ← book.getPositionFor row
  return book.setPosition row.2

/-- `position_compare` of `Bookkeeper::try_sync_position_end`: whether a position has other
volumes than the one of the target book, where missing positions are made. -/
def positionCompare : List Row → AccountBook → Throws (Bool × AccountBook)
  | [], target => .ok (false, target)
  | row :: rows, target => do
      let target ← target.getPositionFor row
      let position := target.positionFor row
      if row.2.volume ≠ position.volume ∨ row.2.yesterdayVolume ≠ position.yesterdayVolume then
        .ok (true, target)
      else positionCompare rows target

variable (order : Iteration (PositionAt ℚ))

/-- The positions of a book on one side, as a loop meets them. -/
def rows (direction : Direction) (book : AccountBook) : List Row :=
  (order.entries book.state.positions).filter fun row => row.1.direction = direction

/-- The positions of one book are compared with those of another. -/
def compareTo (source target : AccountBook) : Throws (Bool × AccountBook) := do
  let (changed, target) ← positionCompare (source.rows order .Long) target
  if changed then .ok (true, target) else positionCompare (source.rows order .Short) target

/-- `position_changed` of `Bookkeeper::try_sync_position_end`, with both books after it. -/
def positionChanged (oldBook newBook : AccountBook) : Throws (Bool × AccountBook × AccountBook) := do
  let (changed, oldBook) ← compareTo order newBook oldBook
  if changed then .ok (true, oldBook, newBook)
  else do
    let (changed, newBook) ← compareTo order oldBook newBook
    return (changed, oldBook, newBook)

/-- `Book::mirror_position_from`. -/
def mirrorPositionFrom (book source : AccountBook) : Throws AccountBook :=
  let cleared : AccountBook := { book with state := { book.state with positions := ∅ } }
  (source.rows order .Long ++ source.rows order .Short).foldlM assign cleared

def setAsset (book : AccountBook) (asset : Asset) : AccountBook :=
  { book with state := { book.state with asset := asset } }

def setAssetMargin (book : AccountBook) (assetMargin : AssetMargin) : AccountBook :=
  { book with state := { book.state with assetMargin := assetMargin } }

end Book

/-- `AccountingMethod::update_position` for a position of a book. -/
def Method.updatePosition (market : Market) (book : AccountBook) (row : Row) :
    Method → Throws AccountBook
  | stock | bond => .ok (book.setPosition (StockAccountingMethod.updateStockPosition row.2))
  | future => .ok (book.setPosition (FutureAccountingMethod.updatePosition market row.2))
  | repo => .ok book
  -- only a copy of the long position is changed, which is made if the exchange and the
  -- instrument, one taken for the other, have none
  | crypto => book.getPosition .Long row.2.instrumentId row.2.exchangeId

/-! ## Bookkeepers -/

structure Bookkeeper where
  books : Books
  /-- What has come for synchronization. -/
  booksReplica : Books
  syncAsset : Bool
  syncAssetMargin : Bool
  syncPosition : Bool
  positionsGuarded : Bool

namespace Bookkeeper

variable (app : App) (market : Market)

/-- A change of the book of a location, which is made if there is none. -/
def onBook (books : Books) (uid : UInt32) (f : AccountBook → Throws AccountBook) :
    Except Fault Books := do
  let book ← getBook app books uid
  let book ← (f book).mapError (·.fault)
  return Function.update books uid (some book)

/-- `app_.has_location`. -/
def hasLocation (uid : UInt32) : Bool := (app.locations uid).isSome

/-! ### For synchronization -/

/-- What `try_sync_asset` takes for a change. -/
def assetChanged (old asset : Asset) : Bool := old.avail ≠ asset.avail ∨ old.margin ≠ asset.margin

/-- What `try_sync_asset_margin` takes for a change. -/
def assetMarginChanged (old assetMargin : AssetMargin) : Bool :=
  old.totalAsset ≠ assetMargin.totalAsset ∨ old.availMargin ≠ assetMargin.availMargin ∨
    old.cashMargin ≠ assetMargin.cashMargin ∨ old.shortMargin ≠ assetMargin.shortMargin ∨
    old.margin ≠ assetMargin.margin ∨ old.cashDebt ≠ assetMargin.cashDebt ∨
    old.shortCash ≠ assetMargin.shortCash

/-- `try_sync_asset`. -/
def trySyncAsset (keeper : Bookkeeper) (asset : Asset) : Except Fault Bookkeeper :=
  if !keeper.syncAsset || !hasLocation app asset.holderUid then .ok keeper
  else do
    let replica ← onBook app keeper.booksReplica asset.holderUid fun book => .ok (book.setAsset asset)
    let books ← onBook app keeper.books asset.holderUid fun book =>
      .ok (if assetChanged book.state.asset asset then book.setAsset asset else book)
    return { keeper with booksReplica := replica, books := books }

/-- `try_sync_asset_margin`. -/
def trySyncAssetMargin (keeper : Bookkeeper) (assetMargin : AssetMargin) : Except Fault Bookkeeper :=
  if !keeper.syncAssetMargin || !hasLocation app assetMargin.holderUid then .ok keeper
  else do
    let replica ← onBook app keeper.booksReplica assetMargin.holderUid fun book =>
      .ok (book.setAssetMargin assetMargin)
    let books ← onBook app keeper.books assetMargin.holderUid fun book =>
      .ok (if assetMarginChanged book.state.assetMargin assetMargin then
        book.setAssetMargin assetMargin else book)
    return { keeper with booksReplica := replica, books := books }

/-- `try_sync_position`. -/
def trySyncPosition (keeper : Bookkeeper) (row : Row) : Except Fault Bookkeeper :=
  if !keeper.syncPosition || !hasLocation app row.2.holderUid then .ok keeper
  else do
    let replica ← onBook app keeper.booksReplica row.2.holderUid fun book => book.assign row
    return { keeper with booksReplica := replica }

/-- What the end of the positions does to the book of their holder. -/
def resync (order : Iteration (PositionAt ℚ)) (oldBook newBook : AccountBook) : Throws AccountBook := do
  let (changed, oldBook, newBook) ← Book.positionChanged order oldBook newBook
  if changed then oldBook.mirrorPositionFrom order newBook else .ok oldBook

/-- `try_sync_position_end`. -/
def trySyncPositionEnd (order : Iteration (PositionAt ℚ)) (keeper : Bookkeeper) (holderUid : UInt32) :
    Except Fault Bookkeeper :=
  if !keeper.syncPosition || !hasLocation app holderUid then .ok keeper
  else do
    let newBook ← getBook app keeper.booksReplica holderUid
    let books ← onBook app keeper.books holderUid fun oldBook => resync order oldBook newBook
    return { keeper with
      books := books
      booksReplica := Function.update keeper.booksReplica holderUid none }

/-! ### On other ways -/

/-- `try_update_asset`. -/
def tryUpdateAsset (keeper : Bookkeeper) (asset : Asset) : Except Fault Bookkeeper :=
  if hasLocation app asset.holderUid then do
    let books ← onBook app keeper.books asset.holderUid fun book => .ok (book.setAsset asset)
    return { keeper with books := books }
  else .ok keeper

/-- `try_update_asset_margin`. -/
def tryUpdateAssetMargin (keeper : Bookkeeper) (assetMargin : AssetMargin) :
    Except Fault Bookkeeper :=
  if hasLocation app assetMargin.holderUid then do
    let books ← onBook app keeper.books assetMargin.holderUid fun book =>
      .ok (book.setAssetMargin assetMargin)
    return { keeper with books := books }
  else .ok keeper

/-- What `try_update_position` puts in the place of a position. -/
def mergePosition {key key' : PositionKey} (target : Position key') (position : Position key) :
    Position key :=
  { position with lastPrice := max target.lastPrice position.lastPrice }

/-- What `try_update_position` does to the book of the holder. -/
def updatePosition (guarded : Bool) (row : Row) (book : AccountBook) : Throws AccountBook := do
  let book ← book.getPositionFor row
  let target := book.positionFor row
  if guarded ∧ row.2.updateTime ≤ target.updateTime then .ok book
  else
    let position := mergePosition target row.2
    let book := book.setPosition position
    match Method.ofInstrumentType position.instrumentType with
    | none => .ok book
    | some method => method.updatePosition market book ⟨row.1, position⟩

/-- `try_update_position`. -/
def tryUpdatePosition (keeper : Bookkeeper) (row : Row) : Except Fault Bookkeeper :=
  if hasLocation app row.2.holderUid then do
    let books ← onBook app keeper.books row.2.holderUid
      (updatePosition market keeper.positionsGuarded row)
    return { keeper with books := books }
  else .ok keeper

/-- `try_update_position_end`. -/
def tryUpdatePositionEnd (now : Int64) (keeper : Bookkeeper) (holderUid : UInt32) :
    Except Fault Bookkeeper := do
  let books ← onBook app keeper.books holderUid fun book => .ok (book.update market now)
  return { keeper with books := books }

/-- `drop_book`. -/
def dropBook (keeper : Bookkeeper) (uid : UInt32) : Bookkeeper :=
  { keeper with books := Function.update keeper.books uid none }

end Bookkeeper

end Kungfu.Wingchun
