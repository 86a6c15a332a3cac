import Kungfu.Wingchun.Stock
import Kungfu.Wingchun.Future
import Kungfu.Wingchun.Crypto

/-!
# Updates of books

`Bookkeeper::update_book` applies trading data to the book of its source and then to the
book of its destination.  Books are made when they are first asked for.  Everything on the
way may throw; what was changed before that stays changed.
-/

namespace Kungfu.Wingchun

open Longfist

/-! ## Accounting methods -/

/-- The accounting methods of a bookkeeper. -/
inductive Method
  | stock | bond | future | repo | crypto
  deriving DecidableEq, Repr

namespace Method

/-- `AccountingMethod::setup_defaults`. -/
def ofInstrumentType : InstrumentType → Option Method
  | .Stock => some stock
  | .Bond => some bond
  | .Fund => some stock
  | .StockOption => some future
  | .Warrant => some future
  | .Iopt => some future
  | .TechStock => some stock
  | .Index => some stock
  | .Repo => some repo
  | .Future => some future
  | .Crypto => some crypto
  | .Unknown => some stock

/-- What an accounting method does with trading data. -/
def apply (market : Market) (book : AccountBook) : Method → TradingData → Throws AccountBook
  | stock, .orderInput input => StockAccountingMethod.applyOrderInput market book input
  | stock, .order order =>
      StockAccountingMethod.applyOrder StockAccountingMethod.stock market book order
  | stock, .trade trade =>
      StockAccountingMethod.applyTrade StockAccountingMethod.stock market book trade
  | bond, .orderInput input => BondAccountingMethod.applyOrderInput market book input
  | bond, .order order =>
      StockAccountingMethod.applyOrder StockAccountingMethod.stock market book order
  | bond, .trade trade =>
      StockAccountingMethod.applyTrade StockAccountingMethod.stock market book trade
  | future, .orderInput input => FutureAccountingMethod.applyOrderInput market book input
  | future, .order order => FutureAccountingMethod.applyOrder market book order
  | future, .trade trade => FutureAccountingMethod.applyTrade market book trade
  | repo, .orderInput input => RepoAccountingMethod.applyOrderInput market book input
  | repo, .order order => RepoAccountingMethod.applyOrder market book order
  | repo, .trade trade => RepoAccountingMethod.applyTrade market book trade
  | crypto, .orderInput _ => .ok book
  | crypto, .order _ => .ok book
  | crypto, .trade trade => CryptoAccountingMethod.applyTrade market book trade

end Method

/-! ## One book -/

/-- The key of the position that trading data changes. -/
def messageKey (data : TradingData) : Option PositionKey :=
  match getDirection data.instrumentType data.side data.offset with
  | .ok direction => some (positionKey direction data.exchangeId data.instrumentId)
  | .error _ => none

namespace Book

/-- The position is marked with the time of the update. -/
def stamp (book : AccountBook) (updateTime : Int64) (direction : Direction)
    (exchangeId instrumentId : String) : AccountBook :=
  book.onSlice direction exchangeId instrumentId fun s =>
    { s with position := { s.position with updateTime := updateTime } }

/-- What `apply_and_update` does after the accounting method. -/
def finish (market : Market) (updateTime : Int64) (direction : Direction) (data : TradingData)
    (book : AccountBook) : AccountBook :=
  let book := book.stamp updateTime direction data.exchangeId data.instrumentId
  (book.replaceData data).update market updateTime

/-- What `apply_and_update` does to a book. -/
def applyAndUpdate (market : Market) (method : Method) (updateTime : Int64) (data : TradingData)
    (book : AccountBook) : Throws AccountBook := do
  let direction ← book.orThrow (getDirection data.instrumentType data.side data.offset)
  let book ← book.getPosition direction data.exchangeId data.instrumentId
  let book ← method.apply market book data
  return book.finish market updateTime direction data

section

variable {market : Market} {method : Method} {updateTime : Int64} {data : TradingData}
  {book book' : AccountBook} {direction : Direction} {key : PositionKey}

/-! ### The end of an update -/

/-- What the end of an update keeps of the asset. -/
theorem asset_finish (market : Market) (updateTime : Int64) (direction : Direction)
    (data : TradingData) (book : AccountBook) :
    let asset := (book.finish market updateTime direction data).state.asset
    asset.avail = book.state.asset.avail ∧ asset.frozenCash = book.state.asset.frozenCash ∧
      asset.frozenMargin = book.state.asset.frozenMargin := by
  cases data <;> exact ⟨rfl, rfl, rfl⟩

theorem totalAsset_finish :
    (book.finish market updateTime direction data).state.assetMargin.totalAsset =
      book.state.assetMargin.totalAsset := by
  cases data <;> rfl

theorem positions_finish :
    (book.finish market updateTime direction data).state.positions =
      (book.stamp updateTime direction data.exchangeId data.instrumentId).state.positions := by
  cases data <;> rfl

/-- The orders of a book after an update, which puts its order in. -/
def ordersAfter (book : AccountBook) (data : TradingData) (orderId : UInt64) :
    Option (Order Details) :=
  match data with
  | .order order => if orderId = order.orderId then some order else book.orders orderId
  | _ => book.orders orderId

theorem orders_finish (orderId : UInt64) :
    (book.finish market updateTime direction data).orders orderId = book.ordersAfter data orderId := by
  cases data with
  | order order => exact Function.update_apply ..
  | _ => rfl

theorem ordersAfter_congr (h : book'.orders = book.orders) (orderId : UInt64) :
    book'.ordersAfter data orderId = book.ordersAfter data orderId := by
  cases data <;> simp only [ordersAfter, h]

/-- `Book::replace` puts in what the accounting method may have put in before. -/
theorem ordersAfter_emplace (orderId : UInt64) :
    (book.emplace data).ordersAfter data orderId = book.ordersAfter data orderId := by
  cases data with
  | order order =>
      by_cases hid : orderId = order.orderId
      · simp only [ordersAfter, if_pos hid]
      · simp only [ordersAfter, if_neg hid]
        exact orders_emplaceOrder_of_ne book hid
  | _ => rfl

/-- Something is true of every position. -/
def Forall (P : ∀ {key : PositionKey}, Position key → Prop) (book : AccountBook) : Prop :=
  ∀ (key : PositionKey) (p : Position key), book.state.positions.lookup key = some p → P p

theorem Forall.setSlice {P : ∀ {key : PositionKey}, Position key → Prop} (h : book.Forall P)
    {s : Slice key} (hs : P s.position) : (book.setSlice s).Forall P := by
  intro k p hp
  by_cases hk : k = key
  · subst hk
    rw [lookup_setSlice] at hp
    cases hp
    exact hs
  · rw [lookup_setSlice_of_ne s hk] at hp
    exact h k p hp

/-- The position that was put in is the one that is marked. -/
theorem stamp_setSlice {exchangeId instrumentId : String} (updateTime : Int64)
    (s : Slice (positionKey direction exchangeId instrumentId)) :
    (book.setSlice s).stamp updateTime direction exchangeId instrumentId =
      book.setSlice { s with position := { s.position with updateTime := updateTime } } := by
  have hslice : (book.setSlice s).slice direction exchangeId instrumentId = s := by
    simp only [slice, position, lookup_setSlice, Option.getD_some]
    rfl
  rw [stamp, onSlice, hslice]
  simp only [setSlice, Finmap.insert_insert]

/-- A sum that does not depend on the time of the update is the same at its end. -/
theorem sumPositions_finish {f : ∀ {key : PositionKey}, Position key → ℚ}
    (hstamp : ∀ {key : PositionKey} (p : Position key) t, f { p with updateTime := t } = f p)
    (s : Slice (positionKey direction data.exchangeId data.instrumentId)) :
    sumPositions ((book.setSlice s).finish market updateTime direction data).state f =
      sumPositions (book.setSlice s).state f := by
  let stamped : Slice (positionKey direction data.exchangeId data.instrumentId) :=
    { s with position := { s.position with updateTime := updateTime } }
  have hpositions : ((book.setSlice s).finish market updateTime direction data).state.positions =
      (book.setSlice stamped).state.positions := by
    rw [positions_finish, stamp_setSlice]
  calc sumPositions ((book.setSlice s).finish market updateTime direction data).state f
      = sumPositions (book.setSlice stamped).state f := by simp only [sumPositions, hpositions]
    _ = f s.position + book.sumOthers f _ := by
      rw [sumPositions_setSlice]
      exact congrArg (· + _) (hstamp s.position updateTime)
    _ = sumPositions (book.setSlice s).state f := (sumPositions_setSlice book f s).symm

/-- What does not depend on the time of the update is true at its end, too. -/
theorem Forall.finish {P : ∀ {key : PositionKey}, Position key → Prop}
    (hstamp : ∀ {key : PositionKey} (p : Position key) t, P p → P { p with updateTime := t })
    {s : Slice (positionKey direction data.exchangeId data.instrumentId)} (h : book.Forall P)
    (hs : P s.position) : ((book.setSlice s).finish market updateTime direction data).Forall P := by
  intro k p hp
  rw [positions_finish, stamp_setSlice] at hp
  exact h.setSlice (s := { s with position := { s.position with updateTime := updateTime } })
    (hstamp _ _ hs) k p hp

/-! ### The update as a whole -/

/-- An update that completes found a position and applied the method to it. -/
theorem exists_of_applyAndUpdate
    (h : book.applyAndUpdate market method updateTime data = .ok book') :
    ∃ direction p book₁,
      getDirection data.instrumentType data.side data.offset = .ok direction ∧
      book.Gives direction data.exchangeId data.instrumentId p ∧
      method.apply market (book.setPosition p) data = .ok book₁ ∧
      book' = book₁.finish market updateTime direction data := by
  unfold applyAndUpdate at h
  cases hdirection : getDirection data.instrumentType data.side data.offset with
  | error fault => simp [hdirection, orThrow, Except.mapError, bind, Except.bind] at h
  | ok direction =>
      simp only [hdirection, orThrow, Except.mapError, Outcome.ok_bind] at h
      cases hposition : book.getPosition direction data.exchangeId data.instrumentId with
      | error thrown => simp [hposition, bind, Except.bind] at h
      | ok book₀ =>
          obtain ⟨p, hp, rfl⟩ := gives_of_getPosition hposition
          simp only [hposition, Outcome.ok_bind] at h
          cases happly : method.apply market (book.setPosition p) data with
          | error thrown => simp [happly, bind, Except.bind] at h
          | ok book₁ =>
              simp only [happly, Outcome.ok_bind] at h
              cases h
              exact ⟨direction, p, book₁, rfl, hp, happly, rfl⟩

/-- On a position that is in the book, accounting of stocks never throws. -/
theorem apply_stock_setPosition
    (hdirection : getDirection data.instrumentType data.side data.offset = .ok direction)
    (p : Position (positionKey direction data.exchangeId data.instrumentId)) :
    Method.stock.apply market (book.setPosition p) data =
      .ok ((book.emplace data).setSlice (StockAccountingMethod.effect StockAccountingMethod.stock
        market ((book.emplace data).getFrozenPrice data.orderId) data
        ⟨book.state.asset, book.state.assetMargin, p⟩)) := by
  cases data with
  | orderInput input =>
      exact onPositionFor_setPosition hdirection p (StockAccountingMethod.applyInput market input)
  | order order =>
      simp only [Method.apply, StockAccountingMethod.applyOrder, emplaceOrder_setPosition]
      by_cases hfinal : isFinalStatus order.status
      · rw [if_pos hfinal, onPositionFor_setPosition hdirection]
        simp [StockAccountingMethod.effect, hfinal, emplace, TradingData.orderId, getFrozenPrice]
      · rw [if_neg hfinal]
        simp [StockAccountingMethod.effect, hfinal, emplace, setPosition, setSlice]
  | trade trade =>
      have happly (f : ∀ {key : PositionKey}, Slice key → Slice key) :
          (book.setPosition p).onPositionFor (.trade trade) f = _ :=
        onPositionFor_setPosition hdirection p f
      simp only [Method.apply, StockAccountingMethod.applyTrade, StockAccountingMethod.effect]
      cases trade.side <;> first | rfl | exact happly _

/-- What an update of a book by accounting of stocks does. -/
theorem applyAndUpdate_stock
    (h : book.applyAndUpdate market .stock updateTime data = .ok book') :
    ∃ direction p, getDirection data.instrumentType data.side data.offset = .ok direction ∧
      book.Gives direction data.exchangeId data.instrumentId p ∧
      book' = ((book.emplace data).setSlice
        (StockAccountingMethod.effect StockAccountingMethod.stock market
          ((book.emplace data).getFrozenPrice data.orderId) data
          ⟨book.state.asset, book.state.assetMargin, p⟩)).finish market updateTime direction data := by
  obtain ⟨direction, p, book₁, hdirection, hp, happly, rfl⟩ := exists_of_applyAndUpdate h
  rw [apply_stock_setPosition hdirection p] at happly
  cases happly
  exact ⟨direction, p, hdirection, hp, rfl⟩

end

end Book

/-! ## All books -/

/-- What a bookkeeper asks its app for. -/
structure App where
  locations : UInt32 → Option Category
  tradingDay : String

abbrev Books := BookMap Details Account

/-- An update of books by trading data. -/
structure Update where
  updateTime : Int64
  source : UInt32
  dest : UInt32
  data : TradingData

section EmptyBooks

variable {K : Type} [∀ n, OfNat K n] (uid : UInt32) (ledgerCategory : LedgerCategory)
  (tradingDay : String)

def emptyAsset : Asset K where
  updateTime := 0
  tradingDay := tradingDay
  holderUid := uid
  ledgerCategory := ledgerCategory
  initialEquity := 0
  staticEquity := 0
  dynamicEquity := 0
  realizedPnl := 0
  unrealizedPnl := 0
  avail := 0
  marketValue := 0
  margin := 0
  accumulatedFee := 0
  intradayFee := 0
  frozenCash := 0
  frozenMargin := 0
  frozenFee := 0
  positionPnl := 0
  closePnl := 0

def emptyAssetMargin : AssetMargin K where
  updateTime := 0
  tradingDay := tradingDay
  holderUid := uid
  ledgerCategory := ledgerCategory
  totalAsset := 0
  availMargin := 0
  cashMargin := 0
  shortMargin := 0
  margin := 0
  cashDebt := 0
  shortCash := 0
  shortMarketValue := 0
  marginMarketValue := 0
  marginInterest := 0
  settlement := 0
  credit := 0
  collateralRatio := 0

/-- A book that holds nothing. -/
def emptyBook : AccountBook K where
  state :=
    { asset := emptyAsset uid ledgerCategory tradingDay
      assetMargin := emptyAssetMargin uid ledgerCategory tradingDay
      positions := ∅
      orderInputs := fun _ => none }
  orders := fun _ => none
  trades := fun _ => none

end EmptyBooks

/-- `Bookkeeper::make_book`, which throws unless the location is known. -/
def makeBook (app : App) (uid : UInt32) : Except Fault AccountBook :=
  match app.locations uid with
  | none => .error .outOfRange
  | some category =>
      let ledgerCategory := if category = .TD then LedgerCategory.Account else .Strategy
      .ok (emptyBook uid ledgerCategory app.tradingDay)

/-- `Bookkeeper::get_book`. -/
def getBook (app : App) (books : Books) (uid : UInt32) : Except Fault AccountBook :=
  match books uid with
  | some book => .ok book
  | none => makeBook app uid

/-- `apply_and_update` for the book of a location. -/
def applyAndUpdateAt (app : App) (market : Market) (method : Method) (u : Update) (books : Books)
    (uid : UInt32) : Except (Thrown Books) Books :=
  match getBook app books uid with
  | .error fault => .error ⟨fault, books⟩
  | .ok book =>
      match book.applyAndUpdate market method u.updateTime u.data with
      | .error thrown => .error ⟨thrown.fault, Function.update books uid (some thrown.state)⟩
      | .ok book => .ok (Function.update books uid (some book))

/-- `Bookkeeper::update_book`. -/
def updateBook (app : App) (market : Market) (u : Update) (books : Books) :
    Except (Thrown Books) Books :=
  match Method.ofInstrumentType u.data.instrumentType with
  | none => .ok books
  | some method => do
      let books ← applyAndUpdateAt app market method u books u.source
      if u.dest ≠ PUBLIC then applyAndUpdateAt app market method u books u.dest else .ok books

/-- One update after another. -/
def updateBooks (app : App) (market : Market) (us : List Update) (books : Books) :
    Except (Thrown Books) Books :=
  us.foldlM (fun books u => updateBook app market u books) books

/-! ## The updates of one book -/

namespace Update

variable (u : Update) (uid : UInt32)

/-- The update reaches the book of a location. -/
def Reaches : Prop := u.source = uid ∨ u.dest = uid ∧ u.dest ≠ PUBLIC

/-- The update reaches the book of a location once at most. -/
def ReachesOnce : Prop := ¬ (u.source = uid ∧ u.dest = uid ∧ u.dest ≠ PUBLIC)

instance : Decidable (u.Reaches uid) := inferInstanceAs (Decidable (_ ∨ _))

instance : Decidable (u.ReachesOnce uid) := inferInstanceAs (Decidable (¬ _))

end Update

/-- What an update does to a book that it reaches. -/
def Book.applyUpdate (market : Market) (book : AccountBook) (u : Update) : Throws AccountBook :=
  match Method.ofInstrumentType u.data.instrumentType with
  | none => .ok book
  | some method => book.applyAndUpdate market method u.updateTime u.data

/-- The updates of one book, one after another. -/
def Book.applyUpdates (market : Market) (book : AccountBook) (us : List Update) :
    Throws AccountBook :=
  us.foldlM (Book.applyUpdate market) book

/-- The trading data that reaches the book of a location. -/
def messagesTo (uid : UInt32) (us : List Update) : List TradingData :=
  (us.filter fun u => u.Reaches uid).map (·.data)

theorem mem_messagesTo {uid : UInt32} {u : Update} {us : List Update} (hu : u ∈ us)
    (hreach : u.Reaches uid) : u.data ∈ messagesTo uid us := by
  apply List.mem_map_of_mem
  simp [hu, hreach]

theorem messagesTo_cons (uid : UInt32) (u : Update) (us : List Update) :
    messagesTo uid (u :: us) =
      (if u.Reaches uid then [u.data] else []) ++ messagesTo uid us := by
  by_cases h : u.Reaches uid <;> simp [messagesTo, h]

theorem messagesTo_append (uid : UInt32) (us us' : List Update) :
    messagesTo uid (us ++ us') = messagesTo uid us ++ messagesTo uid us' := by
  simp [messagesTo]

section Reaches

variable {app : App} {market : Market} {method : Method} {u : Update} {us : List Update}
  {books books' : Books} {uid : UInt32} {book : AccountBook}

theorem getBook_update_self (b : AccountBook) :
    getBook app (Function.update books uid (some b)) uid = .ok b := by
  simp [getBook]

variable (app books) in
theorem getBook_update_of_ne {uid' : UInt32} (b : Option AccountBook) (h : uid ≠ uid') :
    getBook app (Function.update books uid' b) uid = getBook app books uid := by
  simp [getBook, h]

theorem getBook_applyAndUpdateAt_self (h : applyAndUpdateAt app market method u books uid = .ok books')
    (hbook : getBook app books uid = .ok book) :
    ∃ book', book.applyAndUpdate market method u.updateTime u.data = .ok book' ∧
      getBook app books' uid = .ok book' := by
  simp only [applyAndUpdateAt, hbook] at h
  cases happly : book.applyAndUpdate market method u.updateTime u.data with
  | error thrown => simp [happly] at h
  | ok book' =>
      simp only [happly, Except.ok.injEq] at h
      subst h
      exact ⟨book', rfl, getBook_update_self book'⟩

theorem getBook_applyAndUpdateAt_of_ne {uid' : UInt32} (hne : uid ≠ uid')
    (h : applyAndUpdateAt app market method u books uid' = .ok books') :
    getBook app books' uid = getBook app books uid := by
  unfold applyAndUpdateAt at h
  cases hbook : getBook app books uid' with
  | error fault => simp [hbook] at h
  | ok book =>
      cases happly : book.applyAndUpdate market method u.updateTime u.data with
      | error thrown => simp [hbook, happly] at h
      | ok book' =>
          simp only [hbook, happly, Except.ok.injEq] at h
          subst h
          exact getBook_update_of_ne app _ _ hne

/-- An update changes the books that it reaches, and no others. -/
theorem getBook_updateBook (h : updateBook app market u books = .ok books')
    (hbook : getBook app books uid = .ok book) (honce : u.ReachesOnce uid) :
    ∃ book', getBook app books' uid = .ok book' ∧
      (if u.Reaches uid then book.applyUpdate market u = .ok book' else book' = book) := by
  unfold updateBook at h
  unfold Book.applyUpdate
  cases hmethod : Method.ofInstrumentType u.data.instrumentType with
  | none =>
      simp only [hmethod, Except.ok.injEq] at h
      subst h
      exact ⟨book, hbook, by simp⟩
  | some method =>
      simp only [hmethod] at h
      cases hsource : applyAndUpdateAt app market method u books u.source with
      | error thrown => simp [hsource, bind, Except.bind] at h
      | ok books₁ =>
          rw [hsource, Outcome.ok_bind] at h
          by_cases heq : u.source = uid
          · -- the source's book, which the destination leaves alone
            rw [heq] at hsource
            obtain ⟨book', happly, hbook'⟩ := getBook_applyAndUpdateAt_self hsource hbook
            refine ⟨book', ?_, by simp [Update.Reaches, heq, happly]⟩
            split at h
            · rename_i hpub
              have hne : uid ≠ u.dest := fun hdest => honce ⟨heq, hdest.symm, hpub⟩
              rw [getBook_applyAndUpdateAt_of_ne hne h, hbook']
            · cases h
              exact hbook'
          · have hbook₁ := (getBook_applyAndUpdateAt_of_ne (Ne.symm heq) hsource).trans hbook
            split at h
            · rename_i hpub
              by_cases hdest : u.dest = uid
              · rw [hdest] at h
                obtain ⟨book', happly, hbook'⟩ := getBook_applyAndUpdateAt_self h hbook₁
                refine ⟨book', hbook', ?_⟩
                have hreach : u.Reaches uid := .inr ⟨hdest, hpub⟩
                rw [if_pos hreach]
                exact happly
              · refine ⟨book, (getBook_applyAndUpdateAt_of_ne (Ne.symm hdest) h).trans hbook₁, ?_⟩
                rw [if_neg (by simp [Update.Reaches, heq, hdest])]
            · rename_i hpub
              cases h
              refine ⟨book, hbook₁, ?_⟩
              rw [if_neg]
              rintro (hs | ⟨-, hp⟩)
              · exact heq hs
              · exact hpub hp

/-- The updates of all books are, for one book, the updates that reach it. -/
theorem applyUpdates_of_updateBooks (h : updateBooks app market us books = .ok books')
    (hbook : getBook app books uid = .ok book) (honce : ∀ u ∈ us, u.ReachesOnce uid) :
    ∃ book', getBook app books' uid = .ok book' ∧
      book.applyUpdates market (us.filter fun u => u.Reaches uid) = .ok book' := by
  induction us generalizing books book with
  | nil =>
      cases h
      exact ⟨book, hbook, rfl⟩
  | cons u us ih =>
      unfold updateBooks at h
      rw [List.foldlM_cons] at h
      cases hu : updateBook app market u books with
      | error thrown => simp [hu, bind, Except.bind] at h
      | ok books₁ =>
          rw [hu, Outcome.ok_bind] at h
          obtain ⟨book₁, hbook₁, hstep⟩ :=
            getBook_updateBook hu hbook (honce u List.mem_cons_self)
          obtain ⟨book', hbook', hrun⟩ :=
            ih h hbook₁ fun u hu => honce u (List.mem_cons_of_mem _ hu)
          refine ⟨book', hbook', ?_⟩
          by_cases hreach : u.Reaches uid
          · rw [if_pos hreach] at hstep
            simp only [List.filter_cons, hreach, decide_true, if_true, Book.applyUpdates,
              List.foldlM_cons, hstep, Outcome.ok_bind]
            exact hrun
          · rw [if_neg hreach] at hstep
            subst hstep
            simpa [List.filter_cons, hreach] using hrun

end Reaches

/-- An account 10 and a strategy 77. -/
def exampleApp : App := ⟨fun uid => if uid = 10 then some .TD else some .STRATEGY, "20260929"⟩

/-- A market in which no instrument is known. -/
def noInstrumentsOf (K : Type) : Market K := ⟨fun _ => none, fun _ => none⟩

def noInstruments : Market := noInstrumentsOf ℚ

end Kungfu.Wingchun
