import Kungfu.Wingchun.Resync

/-!
# Books name their holder

The asset and the asset margin of a book name the location that the book is filed under, and so
do its positions, except for one whose instrument type was not found when it was made: it was put
into the book before it was given a holder, and stays there.
-/

namespace Kungfu.Wingchun

open Longfist Logic Outcome

/-- A position names the holder of its book, or no one. -/
def NamesHolder {key : PositionKey} (uid : UInt32) (p : Position key) : Prop :=
  p.holderUid = uid ∨ p.holderUid = PUBLIC

/-- What trading in an instrument changes names the holder of the book. -/
structure Slice.Owned {key : PositionKey} (uid : UInt32) (s : Slice key) : Prop where
  asset : s.asset.holderUid = uid
  assetMargin : s.assetMargin.holderUid = uid
  position : NamesHolder uid s.position

/-- A change leaves the holder. -/
def KeepsHolder (uid : UInt32) (f : ∀ {key : PositionKey}, Slice key → Slice key) : Prop :=
  ∀ {key : PositionKey} {s : Slice key}, s.Owned uid → (f s).Owned uid

section Changes

variable {key : PositionKey} {uid : UInt32} {s : Slice key} {market : Market}
  {method : StockAccountingMethod} {frozenPrice : ℚ} {trade : Trade Details}

theorem holderUid_calculateCollateralRatio (m : AssetMargin) :
    (StockAccountingMethod.calculateCollateralRatio m).holderUid = m.holderUid := rfl

theorem holderUid_updateStockPosition (p : Position key) :
    (StockAccountingMethod.updateStockPosition p).holderUid = p.holderUid := by
  unfold StockAccountingMethod.updateStockPosition
  split <;> rfl

theorem holderUid_updatePosition (p : Position key) :
    (FutureAccountingMethod.updatePosition market p).holderUid = p.holderUid := by
  unfold FutureAccountingMethod.updatePosition
  split <;> rfl

/-- An accounting method of stocks leaves the holder of a position. -/
def KeepsPosition (method : StockAccountingMethod) : Prop :=
  ∀ {key : PositionKey} (p : Position key), (method.updatePosition p).holderUid = p.holderUid

theorem Slice.Owned.updatePosition (hmethod : KeepsPosition method) (h : s.Owned uid) :
    ({ s with position := method.updatePosition s.position } : Slice key).Owned uid := by
  refine ⟨h.asset, h.assetMargin, ?_⟩
  unfold NamesHolder
  rw [hmethod]
  exact h.position

theorem keepsPosition_stock : KeepsPosition StockAccountingMethod.stock :=
  holderUid_updateStockPosition

theorem keepsPosition_repo : KeepsPosition RepoAccountingMethod.repo := fun _ => rfl

/-! ### Stocks -/

namespace StockAccountingMethod

theorem owned_applyInput (input : OrderInput Details) (h : s.Owned uid) :
    (applyInput market input s).Owned uid := by
  unfold applyInput
  cases input.side <;> exact ⟨h.asset, h.assetMargin, h.position⟩

theorem owned_applyFinalOrder (order : Order Details) (h : s.Owned uid) :
    (applyFinalOrder market frozenPrice order s).Owned uid := by
  unfold applyFinalOrder
  cases order.side <;> exact ⟨h.asset, h.assetMargin, h.position⟩

theorem owned_applyBuy (h : s.Owned uid) :
    (applyBuy method market frozenPrice trade s).Owned uid := by
  refine ⟨h.asset, ?_, h.position⟩
  unfold applyBuy
  dsimp only
  split
  · exact h.assetMargin
  · exact h.assetMargin

theorem owned_applySell (hmethod : KeepsPosition method) (h : s.Owned uid) :
    (applySell method market trade s).Owned uid := by
  have hsold : NamesHolder uid (soldPosition method trade s.position) := by
    unfold NamesHolder soldPosition
    rw [hmethod]
    exact h.position
  refine ⟨h.asset, ?_, ?_⟩
  · unfold applySell
    dsimp only
    split
    · exact h.assetMargin
    · exact h.assetMargin
  · unfold applySell
    dsimp only
    split
    · exact hsold
    · exact hsold

theorem owned_applyMargintrade (h : s.Owned uid) :
    (applyMargintrade method market frozenPrice trade s).Owned uid :=
  ⟨h.asset, h.assetMargin, h.position⟩

theorem owned_applyShortsell (h : s.Owned uid) :
    (applyShortsell method market frozenPrice trade s).Owned uid :=
  ⟨h.asset, h.assetMargin, h.position⟩

theorem owned_applyRepaymargin (h : s.Owned uid) :
    (applyRepaymargin method market trade s).Owned uid := by
  refine ⟨h.asset, ?_, h.position⟩
  unfold applyRepaymargin
  dsimp only
  rw [holderUid_calculateCollateralRatio]
  split
  · exact h.assetMargin
  · exact h.assetMargin

theorem owned_applyRepaystock (h : s.Owned uid) :
    (applyRepaystock method market frozenPrice trade s).Owned uid :=
  ⟨h.asset, h.assetMargin, h.position⟩

end StockAccountingMethod

/-! ### Bonds and repos -/

theorem BondAccountingMethod.owned_applyConvertibleInput (input : OrderInput Details)
    (h : s.Owned uid) : (applyConvertibleInput market input s).Owned uid := by
  unfold applyConvertibleInput
  split
  · dsimp only
    split
    · exact ⟨h.asset, h.assetMargin, h.position⟩
    · exact h
  · exact ⟨h.asset, h.assetMargin, h.position⟩
  · exact h

namespace RepoAccountingMethod

theorem owned_applyInput (input : OrderInput Details) (h : s.Owned uid) :
    (applyInput market input s).Owned uid := by
  unfold applyInput
  cases input.side <;> exact ⟨h.asset, h.assetMargin, h.position⟩

theorem owned_applyFinalOrder (order : Order Details) (h : s.Owned uid) :
    (applyFinalOrder market order s).Owned uid := by
  unfold applyFinalOrder
  cases order.side <;> exact ⟨h.asset, h.assetMargin, h.position⟩

theorem owned_applySell (h : s.Owned uid) : (applySell market trade s).Owned uid :=
  ⟨h.asset, h.assetMargin, h.position⟩

end RepoAccountingMethod

/-! ### Futures -/

namespace FutureAccountingMethod

theorem namesHolder_updatePosition {p : Position key} (h : NamesHolder uid p) :
    NamesHolder uid (updatePosition market p) := by
  unfold NamesHolder
  rw [holderUid_updatePosition]
  exact h

theorem owned_applyInput (input : OrderInput Details) (offset : Offset) (h : s.Owned uid) :
    (applyInput market input offset s).Owned uid := by
  unfold applyInput
  cases offset <;> exact ⟨h.asset, h.assetMargin, namesHolder_updatePosition h.position⟩

theorem owned_applyFinalOrder (order : Order Details) (offset : Offset) (h : s.Owned uid) :
    (applyFinalOrder market order offset s).Owned uid := by
  unfold applyFinalOrder
  cases offset <;> exact ⟨h.asset, h.assetMargin, namesHolder_updatePosition h.position⟩

theorem owned_applyTradeTo (offset : Offset) (h : s.Owned uid) :
    (applyTradeTo market frozenPrice trade offset s).Owned uid := by
  unfold applyTradeTo
  cases offset <;> exact ⟨h.asset, h.assetMargin, namesHolder_updatePosition h.position⟩

end FutureAccountingMethod

end Changes

/-! ## One book -/

namespace Book

/-- The asset, the asset margin and the positions of a book name its holder. -/
structure Owned (uid : UInt32) (book : AccountBook) : Prop where
  asset : book.state.asset.holderUid = uid
  assetMargin : book.state.assetMargin.holderUid = uid
  positions : book.Forall fun p => NamesHolder uid p

/-- A computation keeps a book to its holder, also where it throws. -/
abbrev KeepsOwned (uid : UInt32) (x : Throws AccountBook) : Prop :=
  Post x (Owned uid) fun thrown => Owned uid thrown.state

section

variable {key : PositionKey} {uid : UInt32} {book : AccountBook} {direction : Direction}
  {exchangeId instrumentId : String} {market : Market} {method : Method} {data : TradingData}
  {updateTime : Int64}

theorem Owned.of_state_eq {book' : AccountBook} (h : Owned uid book)
    (hstate : book'.state = book.state) : Owned uid book' := by
  refine ⟨?_, ?_, fun key p hp => h.positions key p ?_⟩
  · rw [hstate, h.asset]
  · rw [hstate, h.assetMargin]
  · rw [← hstate, hp]

theorem Owned.setSlice (h : Owned uid book) {s : Slice key} (hs : s.Owned uid) :
    Owned uid (book.setSlice s) :=
  ⟨hs.asset, hs.assetMargin, h.positions.setSlice hs.position⟩

theorem Owned.setPosition (h : Owned uid book) {p : Position key} (hp : NamesHolder uid p) :
    Owned uid (book.setPosition p) :=
  h.setSlice (⟨h.asset, h.assetMargin, hp⟩ :
    (⟨book.state.asset, book.state.assetMargin, p⟩ : Slice key).Owned uid)

/-- The position that a book gives out names its holder; one that is not there names no one. -/
theorem Owned.onSlice (h : Owned uid book)
    {f : Slice (positionKey direction exchangeId instrumentId) →
      Slice (positionKey direction exchangeId instrumentId)}
    (hf : ∀ s, s.Owned uid → (f s).Owned uid) :
    Owned uid (book.onSlice direction exchangeId instrumentId f) := by
  refine h.setSlice (hf _ ⟨h.asset, h.assetMargin, ?_⟩)
  unfold slice position
  cases hp : book.state.positions.lookup (positionKey direction exchangeId instrumentId) with
  | none => exact .inr rfl
  | some p => exact h.positions _ p hp

theorem owned_getPosition (h : Owned uid book) :
    KeepsOwned uid (book.getPosition direction exchangeId instrumentId) := by
  unfold getPosition
  split
  · exact h
  · split
    · exact h.setPosition (.inr rfl)
    · exact h.setPosition (.inl h.asset)

theorem owned_orThrow {β : Type} (h : Owned uid book) (x : Except Fault β) :
    Post (book.orThrow x) (fun _ => True) fun thrown => Owned uid thrown.state := by
  cases x with
  | ok b => trivial
  | error fault => exact h

theorem owned_onPositionFor {f : ∀ {key : PositionKey}, Slice key → Slice key} (h : Owned uid book)
    (hf : KeepsHolder uid f) : KeepsOwned uid (book.onPositionFor data f) := by
  refine (owned_orThrow h _).bind fun direction _ => ?_
  refine (owned_getPosition h).bind fun book' h' => ?_
  exact h'.onSlice fun s hs => hf hs

theorem owned_getOffset (h : Owned uid book) : Post (FutureAccountingMethod.getOffset book data)
    (fun r => Owned uid r.2) fun thrown => Owned uid thrown.state := by
  unfold FutureAccountingMethod.getOffset
  refine post_ite (fun _ => ?_) fun _ => h
  refine (owned_orThrow h _).bind fun direction _ => ?_
  refine (owned_getPosition h).bind fun book₁ h₁ => ?_
  exact (owned_getPosition h₁).bind fun book₂ h₂ => h₂

theorem owned_onOffsetPosition {f : Offset → ∀ {key : PositionKey}, Slice key → Slice key}
    (h : Owned uid book) (hf : ∀ offset, KeepsHolder uid (f offset)) :
    KeepsOwned uid (FutureAccountingMethod.onOffsetPosition book data f) := by
  refine (owned_getOffset h).bind fun r hr => ?_
  refine (owned_orThrow hr _).bind fun direction _ => ?_
  exact (owned_getPosition hr).bind fun book' h' => h'.onSlice fun s hs => hf _ hs

theorem Owned.emplaceOrder (h : Owned uid book) (order : Order Details) :
    Owned uid (book.emplaceOrder order) :=
  h.of_state_eq (state_emplaceOrder book order)

theorem Owned.emplaceTrade (h : Owned uid book) (trade : Trade Details) :
    Owned uid (book.emplaceTrade trade) := by
  unfold Book.emplaceTrade
  split
  · exact h
  · exact h.of_state_eq rfl

/-! ### The accounting methods -/

theorem owned_applyOrder (h : Owned uid book) (order : Order Details) :
    KeepsOwned uid
      (StockAccountingMethod.applyOrder StockAccountingMethod.stock market book order) := by
  refine post_ite (fun _ => ?_) fun _ => h.emplaceOrder order
  exact owned_onPositionFor (h.emplaceOrder order) fun hs =>
    (StockAccountingMethod.owned_applyFinalOrder order hs).updatePosition keepsPosition_stock

theorem owned_applyTrade {accounting : StockAccountingMethod} (hkeeps : KeepsPosition accounting)
    (h : Owned uid book) (trade : Trade Details) :
    KeepsOwned uid (StockAccountingMethod.applyTrade accounting market book trade) := by
  unfold StockAccountingMethod.applyTrade
  cases trade.side with
  | Sell =>
      exact owned_onPositionFor h fun hs => StockAccountingMethod.owned_applySell hkeeps hs
  | Buy => exact owned_onPositionFor h fun hs => StockAccountingMethod.owned_applyBuy hs
  | MarginTrade =>
      exact owned_onPositionFor h fun hs => StockAccountingMethod.owned_applyMargintrade hs
  | ShortSell =>
      exact owned_onPositionFor h fun hs => StockAccountingMethod.owned_applyShortsell hs
  | RepayMargin =>
      exact owned_onPositionFor h fun hs => StockAccountingMethod.owned_applyRepaymargin hs
  | RepayStock =>
      exact owned_onPositionFor h fun hs => StockAccountingMethod.owned_applyRepaystock hs
  | _ => exact h

theorem Owned.addVolume (h : Owned uid book) (volume : ℤ) :
    Owned uid (CryptoAccountingMethod.addVolume book exchangeId instrumentId volume) :=
  h.onSlice fun _ hs => ⟨hs.asset, hs.assetMargin, hs.position⟩

theorem owned_applyCryptoTrade (h : Owned uid book) (trade : Trade Details) :
    KeepsOwned uid (CryptoAccountingMethod.applyTrade market book trade) := by
  refine (owned_orThrow h _).bind fun pair _ => ?_
  refine (owned_getPosition h).bind fun book₁ h₁ => ?_
  refine (owned_getPosition h₁).bind fun book₂ h₂ => ?_
  exact (owned_getPosition h₂).bind fun book₃ h₃ => ((h₃.addVolume _).addVolume _).addVolume _

/-- Every accounting method keeps a book to its holder. -/
theorem owned_apply (h : Owned uid book) : KeepsOwned uid (method.apply market book data) := by
  cases method with
  | stock =>
      cases data with
      | orderInput input =>
          exact owned_onPositionFor h fun hs => StockAccountingMethod.owned_applyInput input hs
      | order order => exact owned_applyOrder h order
      | trade trade => exact owned_applyTrade keepsPosition_stock h trade
  | bond =>
      cases data with
      | orderInput input =>
          refine post_ite (fun _ => ?_) fun _ => ?_
          · exact owned_onPositionFor h fun hs =>
              BondAccountingMethod.owned_applyConvertibleInput input hs
          · refine (owned_onPositionFor h fun hs => hs).bind fun book' h' => ?_
            exact owned_onPositionFor h' fun hs => StockAccountingMethod.owned_applyInput input hs
      | order order => exact owned_applyOrder h order
      | trade trade => exact owned_applyTrade keepsPosition_stock h trade
  | future =>
      cases data with
      | orderInput input =>
          exact owned_onOffsetPosition h fun offset _ _ hs =>
            FutureAccountingMethod.owned_applyInput input offset hs
      | order order =>
          refine post_ite (fun _ => ?_) fun _ => h.emplaceOrder order
          exact owned_onOffsetPosition (h.emplaceOrder order) fun offset _ _ hs =>
            FutureAccountingMethod.owned_applyFinalOrder order offset hs
      | trade trade =>
          exact owned_onOffsetPosition (h.emplaceTrade trade) fun offset _ _ hs =>
            FutureAccountingMethod.owned_applyTradeTo offset hs
  | repo =>
      cases data with
      | orderInput input =>
          exact owned_onPositionFor h fun hs => RepoAccountingMethod.owned_applyInput input hs
      | order order =>
          simp only [Method.apply, RepoAccountingMethod.applyOrder]
          refine owned_onPositionFor (h.emplaceOrder order) fun hs => ?_
          split
          · exact RepoAccountingMethod.owned_applyFinalOrder order hs
          · exact hs
      | trade trade =>
          simp only [Method.apply, RepoAccountingMethod.applyTrade]
          split
          · exact owned_onPositionFor h fun hs => RepoAccountingMethod.owned_applySell hs
          · exact owned_applyTrade keepsPosition_repo h trade
  | crypto =>
      cases data with
      | trade trade => exact owned_applyCryptoTrade h trade
      | _ => exact h

/-- The sums over the positions leave the holder. -/
theorem Owned.update (h : Owned uid book) : Owned uid (book.update market updateTime) :=
  ⟨h.asset, h.assetMargin, h.positions⟩

theorem Owned.finish (h : Owned uid book) :
    Owned uid (book.finish market updateTime direction data) := by
  have hstamp : Owned uid (book.stamp updateTime direction data.exchangeId data.instrumentId) :=
    h.onSlice fun _ hs => ⟨hs.asset, hs.assetMargin, hs.position⟩
  have hreplace : Owned uid
      ((book.stamp updateTime direction data.exchangeId data.instrumentId).replaceData data) := by
    cases data <;> exact ⟨hstamp.asset, hstamp.assetMargin, hstamp.positions⟩
  exact hreplace.update

/-- Trading data keeps a book to its holder, also where something is thrown on the way. -/
theorem owned_applyAndUpdate (h : Owned uid book) :
    KeepsOwned uid (book.applyAndUpdate market method updateTime data) := by
  refine (owned_orThrow h _).bind fun direction _ => ?_
  refine (owned_getPosition h).bind fun book₁ h₁ => ?_
  exact (owned_apply h₁).bind fun book₂ h₂ => h₂.finish

end

end Book

/-! ## What comes on other ways -/

namespace Book

variable {uid : UInt32} {book book' source target : AccountBook} {order : Iteration (PositionAt ℚ)}
  {market : Market} {row : Row} {rows : List Row} {guarded : Bool} {method : Method}

theorem owned_assign (h : Owned uid book) (hrow : NamesHolder uid row.2) :
    KeepsOwned uid (book.assign row) :=
  (owned_getPosition h).bind fun _ h' => h'.setPosition hrow

theorem owned_positionCompare (h : Owned uid target) : Post (positionCompare rows target)
    (fun r => Owned uid r.2) fun thrown => Owned uid thrown.state := by
  induction rows generalizing target with
  | nil => exact h
  | cons row rows ih =>
      refine (owned_getPosition h).bind fun target' h' => ?_
      exact post_ite (fun _ => h') fun _ => ih h'

theorem owned_compareTo (h : Owned uid target) : Post (compareTo order source target)
    (fun r => Owned uid r.2) fun thrown => Owned uid thrown.state := by
  refine (owned_positionCompare h).bind fun r hr => ?_
  exact post_ite (fun _ => hr) fun _ => owned_positionCompare hr

theorem owned_positionChanged {oldBook newBook : AccountBook} (hold : Owned uid oldBook)
    (hnew : Owned uid newBook) : Post (positionChanged order oldBook newBook)
      (fun r => Owned uid r.2.1 ∧ Owned uid r.2.2) fun thrown => Owned uid thrown.state := by
  refine (owned_compareTo hold).bind fun r hr => ?_
  refine post_ite (fun _ => ⟨hr, hnew⟩) fun _ => ?_
  exact (owned_compareTo hnew).bind fun r' hr' => ⟨hr, hr'⟩

theorem owned_mirrorPositionFrom (h : Owned uid book) (hsource : Owned uid source) :
    KeepsOwned uid (book.mirrorPositionFrom order source) := by
  have hcleared : Owned uid { book with state := { book.state with positions := ∅ } } :=
    ⟨h.asset, h.assetMargin, fun key p hp => by cases hp⟩
  refine post_foldlM hcleared fun b row hrow hb => owned_assign hb ?_
  rcases List.mem_append.mp hrow with hrow | hrow <;>
    exact hsource.positions row.1 row.2 (mem_rows.mp hrow).1

theorem owned_resync {oldBook newBook : AccountBook} (hold : Owned uid oldBook)
    (hnew : Owned uid newBook) : KeepsOwned uid (Bookkeeper.resync order oldBook newBook) := by
  refine (owned_positionChanged hold hnew).bind fun r hr => ?_
  exact post_ite (fun _ => owned_mirrorPositionFrom hr.1 hr.2) fun _ => hr.1

theorem owned_methodUpdatePosition (h : Owned uid book) (hrow : NamesHolder uid row.2) :
    KeepsOwned uid (method.updatePosition market book row) := by
  cases method with
  | stock | bond =>
      refine h.setPosition ?_
      unfold NamesHolder
      rw [holderUid_updateStockPosition]
      exact hrow
  | future => exact h.setPosition (FutureAccountingMethod.namesHolder_updatePosition hrow)
  | repo => exact h
  | crypto => exact owned_getPosition h

theorem owned_updatePosition (h : Owned uid book) (hrow : row.2.holderUid = uid) :
    KeepsOwned uid (Bookkeeper.updatePosition market guarded row book) := by
  refine (owned_getPosition h).bind fun book₁ h₁ => post_ite (fun _ => h₁) fun _ => ?_
  have hmerged : NamesHolder uid (Bookkeeper.mergePosition (book₁.positionFor row) row.2) :=
    .inl hrow
  dsimp only
  split
  · exact h₁.setPosition hmerged
  · exact owned_methodUpdatePosition (h₁.setPosition hmerged) hmerged

end Book

/-! ## All books -/

/-- Every book names the location that it is filed under. -/
def Filed (books : Books) : Prop := ∀ uid book, books uid = some book → book.Owned uid

section Filed

variable {app : App} {market : Market} {books books' : Books} {uid : UInt32} {book : AccountBook}
  {u : Update} {method : Method} {keeper keeper' : Bookkeeper} {event : SyncEvent}

theorem Filed.update (h : Filed books) (hbook : book.Owned uid) :
    Filed (Function.update books uid (some book)) := by
  intro uid' book' hbook'
  by_cases huid : uid' = uid
  · subst huid
    rw [Function.update_self] at hbook'
    cases hbook'
    exact hbook
  · rw [Function.update_of_ne huid] at hbook'
    exact h uid' book' hbook'

/-- A book that is made is its holder's. -/
theorem Filed.getBook (h : Filed books) (hbook : getBook app books uid = .ok book) :
    book.Owned uid := by
  unfold Wingchun.getBook at hbook
  split at hbook
  · next book' hbooks =>
    cases hbook
    exact h uid book hbooks
  · unfold makeBook at hbook
    split at hbook
    · cases hbook
    · cases hbook
      exact ⟨rfl, rfl, fun key p hp => by cases hp⟩

theorem filed_applyAndUpdateAt (h : Filed books) :
    Post (applyAndUpdateAt app market method u books uid) Filed fun thrown => Filed thrown.state := by
  unfold applyAndUpdateAt
  split
  · exact h
  · next book hbook =>
    have hkeeps : Book.KeepsOwned uid (book.applyAndUpdate market method u.updateTime u.data) :=
      Book.owned_applyAndUpdate (h.getBook hbook)
    split
    · next thrown hthrown => exact h.update (hkeeps.of_error hthrown)
    · next book' hbook' => exact h.update (hkeeps.of_ok hbook')

/-- An update by trading data keeps the books filed, also where it throws. -/
theorem filed_updateBook (h : Filed books) :
    Post (updateBook app market u books) Filed fun thrown => Filed thrown.state := by
  unfold updateBook
  split
  · exact h
  · exact (filed_applyAndUpdateAt h).bind fun books₁ h₁ =>
      post_ite (fun _ => filed_applyAndUpdateAt h₁) fun _ => h₁

theorem filed_onBook {f : AccountBook → Throws AccountBook} (h : Filed books)
    (hf : ∀ book, book.Owned uid → Book.KeepsOwned uid (f book)) :
    Post (Bookkeeper.onBook app books uid f) Filed fun _ => True := by
  refine Post.of_forall_ok fun books' hok => ?_
  obtain ⟨book, book', hbook, hbook', rfl⟩ := SyncChannel.exists_of_onBook hok
  exact h.update ((hf book (h.getBook hbook)).of_ok hbook')

theorem Filed.drop (h : Filed books) (uid : UInt32) : Filed (Function.update books uid none) := by
  intro uid' book hbook
  by_cases huid : uid' = uid
  · rw [huid, Function.update_self] at hbook
    cases hbook
  · rw [Function.update_of_ne huid] at hbook
    exact h uid' book hbook

/-- The books of a bookkeeper and their replicas are filed. -/
structure Bookkeeper.Filed (keeper : Bookkeeper) : Prop where
  books : Wingchun.Filed keeper.books
  booksReplica : Wingchun.Filed keeper.booksReplica

/-- Whatever a bookkeeper handles leaves its books filed, if other handlers do. -/
theorem Bookkeeper.filed_handle (h : keeper.Filed)
    (hother : ∀ books, event = .other books → Wingchun.Filed books) :
    Post (keeper.handle app market event) Bookkeeper.Filed fun _ => True := by
  cases event with
  | begins holderUid => exact h
  | position row =>
      refine post_ite (fun _ => h) fun _ => ?_
      refine (filed_onBook h.booksReplica fun book hbook => ?_).bind fun replica hreplica => ?_
      · exact Book.owned_assign hbook (.inl rfl)
      · exact ⟨h.books, hreplica⟩
  | positionEnd holderUid order =>
      refine post_ite (fun _ => h) fun _ => ?_
      have hnew : Post (getBook app keeper.booksReplica holderUid) (Book.Owned holderUid)
          fun _ => True := .of_forall_ok fun _ hok => h.booksReplica.getBook hok
      refine hnew.bind fun newBook hnew => ?_
      refine (filed_onBook h.books fun oldBook hold => ?_).bind fun books hbooks => ?_
      · exact Book.owned_resync hold hnew
      · exact ⟨hbooks, h.booksReplica.drop holderUid⟩
  | asset asset =>
      refine post_ite (fun _ => h) fun _ => ?_
      refine (filed_onBook h.booksReplica fun book hbook => ?_).bind fun replica hreplica => ?_
      · exact ⟨rfl, hbook.assetMargin, hbook.positions⟩
      · refine (filed_onBook h.books fun book hbook => ?_).bind fun books hbooks => ?_
        · split
          · exact ⟨rfl, hbook.assetMargin, hbook.positions⟩
          · exact hbook
        · exact ⟨hbooks, hreplica⟩
  | assetMargin assetMargin =>
      refine post_ite (fun _ => h) fun _ => ?_
      refine (filed_onBook h.booksReplica fun book hbook => ?_).bind fun replica hreplica => ?_
      · exact ⟨hbook.asset, rfl, hbook.positions⟩
      · refine (filed_onBook h.books fun book hbook => ?_).bind fun books hbooks => ?_
        · split
          · exact ⟨hbook.asset, rfl, hbook.positions⟩
          · exact hbook
        · exact ⟨hbooks, hreplica⟩
  | updateAsset asset =>
      refine post_ite (fun _ => ?_) fun _ => h
      refine (filed_onBook h.books fun book hbook => ?_).bind fun books hbooks => ?_
      · exact ⟨rfl, hbook.assetMargin, hbook.positions⟩
      · exact ⟨hbooks, h.booksReplica⟩
  | updateAssetMargin assetMargin =>
      refine post_ite (fun _ => ?_) fun _ => h
      refine (filed_onBook h.books fun book hbook => ?_).bind fun books hbooks => ?_
      · exact ⟨hbook.asset, rfl, hbook.positions⟩
      · exact ⟨hbooks, h.booksReplica⟩
  | updatePosition row =>
      refine post_ite (fun _ => ?_) fun _ => h
      refine (filed_onBook h.books fun book hbook => ?_).bind fun books hbooks => ?_
      · exact Book.owned_updatePosition hbook rfl
      · exact ⟨hbooks, h.booksReplica⟩
  | updatePositionEnd now holderUid =>
      refine (filed_onBook h.books fun book hbook => ?_).bind fun books hbooks => ?_
      · exact hbook.update
      · exact ⟨hbooks, h.booksReplica⟩
  | updateBook u =>
      refine Post.of_forall_ok fun keeper' hok => ?_
      obtain ⟨books, hbooks, hret⟩ := exists_of_bind hok
      cases hret
      exact ⟨(filed_updateBook h.books).of_ok (mapError_eq_ok.mp hbooks), h.booksReplica⟩
  | dropBook uid => exact ⟨h.books.drop uid, h.booksReplica⟩
  | other books => exact ⟨hother books rfl, h.booksReplica⟩

end Filed

end Kungfu.Wingchun
