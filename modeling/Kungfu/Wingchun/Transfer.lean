import Kungfu.Wingchun.Owner

/-!
# Books that the ledger hands over

Who asks the ledger for positions gets the books that concern it: every position with a volume,
the asset and the asset margin.  The one who asked puts them into books of its own, row by row.
So what the ledger does not send stays there: a position that it has no volume of any more, and
a last price above its own.
-/

namespace Kungfu.Wingchun

open Longfist Logic Outcome

/-- `location::SYNC`. -/
def SYNC : UInt32 := 1

/-- What the ledger tells of its books. -/
inductive LedgerData
  | position (row : Row)
  | asset (asset : Asset)
  | assetMargin (assetMargin : AssetMargin)
  | positionEnd (holderUid : UInt32)

/-- The holder of the book that it is about. -/
def LedgerData.holderUid : LedgerData → UInt32
  | position row => row.2.holderUid
  | asset a => a.holderUid
  | assetMargin m => m.holderUid
  | positionEnd uid => uid

structure LedgerFrame where
  dest : UInt32
  data : LedgerData

/-! ## What is compared -/

/-- What is compared of a position. -/
structure Shown where
  volume : ℤ
  yesterdayVolume : ℤ
  frozenTotal : ℤ
  frozenYesterday : ℤ
  avgOpenPrice : ℚ
  lastPrice : ℚ
deriving DecidableEq

/-- What is compared of a position that is not there. -/
def Shown.zero : Shown := ⟨0, 0, 0, 0, 0, 0⟩

end Kungfu.Wingchun

namespace Kungfu.Longfist.Position

open Wingchun

variable {key : PositionKey}

def shown (p : Position key) : Shown :=
  ⟨p.volume, p.yesterdayVolume, p.frozenTotal, p.frozenYesterday, p.avgOpenPrice, p.lastPrice⟩

theorem shown_updateStockPosition (p : Position key) :
    (StockAccountingMethod.updateStockPosition p).shown = p.shown := by
  unfold StockAccountingMethod.updateStockPosition
  split <;> rfl

theorem shown_updatePosition (market : Market) (p : Position key) :
    (FutureAccountingMethod.updatePosition market p).shown = p.shown := by
  unfold FutureAccountingMethod.updatePosition
  split <;> rfl

end Kungfu.Longfist.Position

namespace Kungfu.Wingchun

open Longfist Logic Outcome

namespace Book

variable {book book' : AccountBook} {key key' : PositionKey} {direction : Direction}
  {exchangeId instrumentId : String} {market : Market} {row : Row}

/-- What a book shows under a key. -/
def shown (book : AccountBook) (key : PositionKey) : Shown :=
  ((book.state.positions.lookup key).map Position.shown).getD .zero

theorem shown_of_lookup {p : Position key} (h : book.state.positions.lookup key = some p) :
    book.shown key = p.shown := by
  simp [shown, h]

theorem shown_setPosition (p : Position key) :
    (book.setPosition p).shown key' = if key' = key then p.shown else book.shown key' := by
  by_cases h : key' = key
  · subst h
    rw [if_pos rfl, shown_of_lookup (lookup_setPosition p)]
  · rw [if_neg h, shown, lookup_setPosition_of_ne p h, shown]

/-- A book is as before, as far as positions are compared. -/
structure LooksLike (book book' : AccountBook) : Prop where
  asset : book'.state.asset = book.state.asset
  assetMargin : book'.state.assetMargin = book.state.assetMargin
  shown : ∀ key, book'.shown key = book.shown key

theorem looksLike_setPosition {p : Position key} (h : p.shown = book.shown key) :
    LooksLike book (book.setPosition p) := by
  refine ⟨rfl, rfl, fun key' => ?_⟩
  rw [shown_setPosition]
  split
  · next heq => rw [heq, h]
  · rfl

/-- To ask for a position makes one that is empty at most. -/
theorem looksLike_getPosition (h : book.getPosition direction exchangeId instrumentId = .ok book') :
    LooksLike book book' := by
  obtain ⟨p, hp, rfl⟩ := gives_of_getPosition h
  apply looksLike_setPosition
  rcases hp with hp | ⟨hnone, type, -, rfl⟩
  · exact (shown_of_lookup hp).symm
  · rw [shown, hnone]
    rfl

/-- Nothing of what is compared is changed by `update_position`. -/
theorem looksLike_updatePosition {method : Method} {p : Position key}
    (hp : p.shown = book.shown key) (h : method.updatePosition market book ⟨key, p⟩ = .ok book') :
    LooksLike book book' := by
  cases method with
  | stock | bond =>
      cases h
      exact looksLike_setPosition ((Position.shown_updateStockPosition p).trans hp)
  | future =>
      cases h
      exact looksLike_setPosition ((Position.shown_updatePosition market p).trans hp)
  | repo =>
      cases h
      exact ⟨rfl, rfl, fun _ => rfl⟩
  | crypto => exact looksLike_getPosition h

/-- What a book shows of the position that a row is put in the place of. -/
theorem shown_positionFor (book : AccountBook) (row : Row) :
    (book.positionFor row).shown = book.shown row.1 := by
  have hkey : book.shown row.1 =
      book.shown (positionKey row.2.direction row.2.exchangeId row.2.instrumentId) := by
    rw [positionKey_eq]
  rw [hkey]
  unfold positionFor position shown
  cases book.state.positions.lookup
    (positionKey row.2.direction row.2.exchangeId row.2.instrumentId) <;> rfl

/-- A row takes the place of the position, with the last price that was there if that is above
its own. -/
def mergeShown (before row : Shown) : Shown :=
  { row with lastPrice := max before.lastPrice row.lastPrice }

/-- A row that is merged changes what is compared under its own key only. -/
theorem shown_of_updatePosition (h : Bookkeeper.updatePosition market false row book = .ok book') :
    book'.state.asset = book.state.asset ∧ book'.state.assetMargin = book.state.assetMargin ∧
      book'.shown row.1 = mergeShown (book.shown row.1) row.2.shown ∧
      ∀ key ≠ row.1, book'.shown key = book.shown key := by
  obtain ⟨book₁, hget, h⟩ := exists_of_bind h
  have hmade := looksLike_getPosition hget
  rw [if_neg (by simp)] at h
  have hmerged : (Bookkeeper.mergePosition (book₁.positionFor row) row.2).shown =
      mergeShown (book.shown row.1) row.2.shown := by
    rw [← hmade.shown, ← shown_positionFor]
    rfl
  suffices hlike : LooksLike
      (book₁.setPosition (Bookkeeper.mergePosition (book₁.positionFor row) row.2)) book' by
    refine ⟨hlike.asset.trans hmade.asset, hlike.assetMargin.trans hmade.assetMargin, ?_, ?_⟩
    · rw [hlike.shown, shown_setPosition, if_pos rfl, hmerged]
    · intro key hne
      rw [hlike.shown, shown_setPosition, if_neg hne, hmade.shown]
  dsimp only at h
  split at h
  · cases h
    exact ⟨rfl, rfl, fun _ => rfl⟩
  · exact looksLike_updatePosition (by rw [shown_setPosition, if_pos rfl]) h

end Book

/-! ## The ledger -/

/-- The ledger, as far as it answers requests for positions. -/
structure Ledger where
  books : Finmap fun _ : UInt32 => AccountBook
  locations : UInt32 → Option Category
  hasWriter : UInt32 → Bool
  hasChannel : UInt32 → UInt32 → Bool

namespace Ledger

variable (order : Iteration (PositionAt ℚ)) (bookOrder : Iteration fun _ : UInt32 => AccountBook)
  (l : Ledger)

/-- `Ledger::write_positions`. -/
def writePositions (dest : UInt32) (positions : List Row) : List LedgerFrame :=
  if l.hasWriter dest then
    (positions.filter fun row => 0 < row.2.volume).map fun row => ⟨row.2.holderUid, .position row⟩
  else []

/-- A book concerns the one who asks. -/
def concerns (strategyUid : UInt32) (category : Category) (book : AccountBook) : Bool :=
  let asset := book.state.asset
  let hasAccount :=
    decide (asset.ledgerCategory = .Account) && l.hasChannel asset.holderUid strategyUid
  let isStrategy := decide (category = .STRATEGY) && decide (asset.holderUid = strategyUid)
  hasAccount || isStrategy || decide (category = .SYSTEM)

/-- What is written for a book. -/
def writeBook (strategyUid : UInt32) (book : AccountBook) : List LedgerFrame :=
  l.writePositions strategyUid (book.rows order .Long) ++
    l.writePositions strategyUid (book.rows order .Short) ++
    [⟨strategyUid, .asset book.state.asset⟩, ⟨strategyUid, .assetMargin book.state.assetMargin⟩]

/-- `Ledger::write_strategy_data`. -/
def writeStrategyData (strategyUid : UInt32) : List LedgerFrame :=
  match l.locations strategyUid with
  | none => []
  | some category =>
      if l.hasWriter strategyUid then
        ((bookOrder.entries l.books).filter fun entry =>
          l.concerns strategyUid category entry.2).flatMap
            (fun entry => l.writeBook order strategyUid entry.2) ++
          [⟨strategyUid, .positionEnd strategyUid⟩]
      else []

end Ledger

/-! ## The one who asks -/

section Receiver

variable (app : App) (market : Market) (order : Iteration (PositionAt ℚ)) (now : Int64)

/-- What a bookkeeper does with a frame, which `fork` decides from where it goes to. -/
def Bookkeeper.receive (keeper : Bookkeeper) (frame : LedgerFrame) : Except Fault Bookkeeper :=
  match frame.data with
  | .position row =>
      if frame.dest = SYNC then keeper.trySyncPosition app row
      else keeper.tryUpdatePosition app market row
  | .asset asset =>
      if frame.dest = SYNC then keeper.trySyncAsset app asset else keeper.tryUpdateAsset app asset
  | .assetMargin assetMargin =>
      if frame.dest = SYNC then keeper.trySyncAssetMargin app assetMargin
      else keeper.tryUpdateAssetMargin app assetMargin
  | .positionEnd holderUid =>
      if frame.dest = SYNC then keeper.trySyncPositionEnd app order holderUid
      else keeper.tryUpdatePositionEnd app market now holderUid

/-- What a frame does to the book of its holder, unless it is guarded. -/
def LedgerData.apply (book : AccountBook) : LedgerData → Throws AccountBook
  | position row => Bookkeeper.updatePosition market false row book
  | asset a => .ok (book.setAsset a)
  | assetMargin m => .ok (book.setAssetMargin m)
  | positionEnd _ => .ok (book.update market now)

end Receiver

namespace Book

variable {book book' : AccountBook} {market : Market} {rows : List Row}

/-- Rows under different keys are merged one by one. -/
theorem shown_of_updatePositions (hkeys : (rows.map (·.1)).Nodup)
    (h : rows.foldlM (fun b row => Bookkeeper.updatePosition market false row b) book = .ok book') :
    book'.state.asset = book.state.asset ∧ book'.state.assetMargin = book.state.assetMargin ∧
      (∀ row ∈ rows, book'.shown row.1 = mergeShown (book.shown row.1) row.2.shown) ∧
      ∀ key, key ∉ rows.map (·.1) → book'.shown key = book.shown key := by
  refine foldlM_invariant (I := fun done b =>
    b.state.asset = book.state.asset ∧ b.state.assetMargin = book.state.assetMargin ∧
      (∀ row ∈ done, b.shown row.1 = mergeShown (book.shown row.1) row.2.shown) ∧
      ∀ key, key ∉ done.map (·.1) → b.shown key = book.shown key)
    ⟨rfl, rfl, fun _ h => (by cases h), fun _ _ => rfl⟩ ?_ h
  rintro done row todo b b' rfl ⟨hasset, hmargin, hdone, hrest⟩ hrow
  obtain ⟨hasset', hmargin', hown, hother⟩ := shown_of_updatePosition hrow
  have hnew : row.1 ∉ done.map (·.1) := by
    rw [List.map_append, List.map_cons] at hkeys
    exact fun hmem => List.disjoint_of_nodup_append hkeys hmem List.mem_cons_self
  refine ⟨hasset'.trans hasset, hmargin'.trans hmargin, fun r hr => ?_, fun key hkey => ?_⟩
  · rcases List.mem_append.mp hr with hr | hr
    · have hne : r.1 ≠ row.1 := fun heq => hnew (heq ▸ List.mem_map_of_mem hr)
      rw [hother _ hne, hdone r hr]
    · obtain rfl := List.mem_singleton.mp hr
      rw [hown, hrest _ hnew]
  · rw [List.map_append, List.mem_append, not_or] at hkey
    rw [hother key (fun heq => hkey.2 (by simp [heq])), hrest key hkey.1]

end Book

namespace Bookkeeper

variable {app : App} {market : Market} {order : Iteration (PositionAt ℚ)} {now : Int64}
  {keeper keeper' : Bookkeeper} {frame : LedgerFrame} {uid : UInt32}

/-- What reaches no book for synchronization changes the book of its holder. -/
structure Receives (app : App) (market : Market) (now : Int64) (keeper keeper' : Bookkeeper)
    (data : LedgerData) : Prop where
  unguarded : keeper'.positionsGuarded = false
  others : ∀ uid ≠ data.holderUid, keeper'.books uid = keeper.books uid
  own : hasLocation app data.holderUid = true → ∃ book book',
    getBook app keeper.books data.holderUid = .ok book ∧ data.apply market now book = .ok book' ∧
      keeper'.books data.holderUid = some book'

/-- What is not for synchronization changes the book of its holder, if that is known. -/
theorem receives_of_onBook (data : LedgerData) {books : Books} (hguard : keeper.positionsGuarded = false)
    (h : onBook app keeper.books data.holderUid (fun book => data.apply market now book) = .ok books) :
    Receives app market now keeper { keeper with books := books } data := by
  obtain ⟨book, book', hbook, hbook', rfl⟩ := SyncChannel.exists_of_onBook h
  refine ⟨hguard, fun uid hne => Function.update_of_ne hne .., fun _ => ?_⟩
  exact ⟨book, book', hbook, hbook', Function.update_self ..⟩

theorem receives_self {data : LedgerData} (hguard : keeper.positionsGuarded = false)
    (hunknown : hasLocation app data.holderUid = false) :
    Receives app market now keeper keeper data := by
  refine ⟨hguard, fun _ _ => rfl, fun hknown => ?_⟩
  rw [hunknown] at hknown
  cases hknown

/-- A handler for synchronization does nothing for an unknown holder. -/
theorem receives_of_unknown {data : LedgerData} {switch : Bool} {x : Except Fault Bookkeeper}
    (hguard : keeper.positionsGuarded = false) (hunknown : hasLocation app data.holderUid = false)
    (h : (if !switch || !hasLocation app data.holderUid then .ok keeper else x) = .ok keeper') :
    Receives app market now keeper keeper' data := by
  rw [if_pos (by simp [hunknown])] at h
  cases h
  exact receives_self hguard hunknown

/-- The other handlers change the book of a known holder. -/
theorem receives_of_known (data : LedgerData) {f : AccountBook → Throws AccountBook}
    (hguard : keeper.positionsGuarded = false) (hf : f = fun book => data.apply market now book)
    (h : (if hasLocation app data.holderUid then do
        let books ← onBook app keeper.books data.holderUid f
        return { keeper with books := books }
      else .ok keeper) = .ok keeper') : Receives app market now keeper keeper' data := by
  by_cases hknown : hasLocation app data.holderUid = true
  · rw [if_pos hknown] at h
    obtain ⟨books, hbooks, h⟩ := exists_of_bind h
    cases h
    exact receives_of_onBook data hguard (hf ▸ hbooks)
  · rw [if_neg hknown] at h
    cases h
    exact receives_self hguard (by simpa using hknown)

theorem receives_of_receive (hguard : keeper.positionsGuarded = false)
    (hsync : frame.dest = SYNC → hasLocation app frame.data.holderUid = false)
    (h : keeper.receive app market order now frame = .ok keeper') :
    Receives app market now keeper keeper' frame.data := by
  obtain ⟨dest, data⟩ := frame
  cases data with
  | position row =>
      simp only [receive] at h
      split at h
      · next hdest => exact receives_of_unknown hguard (hsync hdest) h
      · exact receives_of_known (.position row) hguard (by rw [hguard]; rfl) h
  | asset asset =>
      simp only [receive] at h
      split at h
      · next hdest => exact receives_of_unknown hguard (hsync hdest) h
      · exact receives_of_known (.asset asset) hguard rfl h
  | assetMargin assetMargin =>
      simp only [receive] at h
      split at h
      · next hdest => exact receives_of_unknown hguard (hsync hdest) h
      · exact receives_of_known (.assetMargin assetMargin) hguard rfl h
  | positionEnd holderUid =>
      simp only [receive] at h
      split at h
      · next hdest => exact receives_of_unknown hguard (hsync hdest) h
      · obtain ⟨books, hbooks, h⟩ := exists_of_bind h
        cases h
        exact receives_of_onBook (.positionEnd holderUid) hguard hbooks

/-- A book is changed by the frames of its holder alone. -/
theorem books_of_receiveAll {frames : List LedgerFrame} {book : AccountBook}
    (hguard : keeper.positionsGuarded = false)
    (hsync : ∀ frame ∈ frames, frame.dest = SYNC → hasLocation app frame.data.holderUid = false)
    (hknown : hasLocation app uid = true)
    (h : frames.foldlM (receive app market order now) keeper = .ok keeper')
    (hbook : getBook app keeper.books uid = .ok book) :
    ∃ book', (frames.filter (·.data.holderUid = uid)).foldlM
        (fun b frame => frame.data.apply market now b) book = .ok book' ∧
      getBook app keeper'.books uid = .ok book' := by
  induction frames generalizing keeper book with
  | nil =>
      cases h
      exact ⟨book, rfl, hbook⟩
  | cons frame frames ih =>
      rw [List.foldlM_cons] at h
      obtain ⟨keeper₁, hframe, hframes⟩ := exists_of_bind h
      obtain ⟨hguard₁, hothers, hown⟩ :=
        receives_of_receive hguard (hsync frame List.mem_cons_self) hframe
      have ih' {b : AccountBook} (hb : getBook app keeper₁.books uid = .ok b) :=
        ih hguard₁ (fun f hf => hsync f (List.mem_cons_of_mem _ hf)) hframes hb
      by_cases huid : frame.data.holderUid = uid
      · subst huid
        obtain ⟨before, after, hbefore, happly, hafter⟩ := hown hknown
        rw [hbook] at hbefore
        cases hbefore
        obtain ⟨book', hrest, hbook'⟩ := ih' (by rw [getBook, hafter])
        refine ⟨book', ?_, hbook'⟩
        rw [List.filter_cons_of_pos (by simp), List.foldlM_cons, happly, ok_bind, hrest]
      · rw [List.filter_cons_of_neg (by simpa using huid)]
        exact ih' (by rw [getBook, hothers uid (Ne.symm huid), ← getBook, hbook])

end Bookkeeper

namespace Ledger

variable {app : App} {market : Market} {order replicaOrder : Iteration (PositionAt ℚ)}
  {bookOrder : Iteration fun _ : UInt32 => AccountBook} {now : Int64} {keeper keeper' : Bookkeeper}
  {l : Ledger} {strategyUid uid : UInt32} {book : AccountBook} {direction : Direction}

/-- The uids that stand for everyone and for synchronization are no locations. -/
def Reserved (locations : UInt32 → Option Category) : Prop :=
  locations PUBLIC = none ∧ locations SYNC = none

/-- The answer to a request covers a book. -/
structure Covers (l : Ledger) (strategyUid uid : UInt32) (book : AccountBook) : Prop where
  lookup : l.books.lookup uid = some book
  hasWriter : l.hasWriter strategyUid = true
  concerns : ∃ category, l.locations strategyUid = some category ∧
    l.concerns strategyUid category book = true

/-- The position under a key is sent: it has a volume and names its holder. -/
def Sends (book : AccountBook) (uid : UInt32) (key : PositionKey) : Prop :=
  ∃ p : Position key, book.state.positions.lookup key = some p ∧ 0 < p.volume ∧ p.holderUid = uid

/-- The rows of a book that are sent. -/
def sentRows (order : Iteration (PositionAt ℚ)) (book : AccountBook) (uid : UInt32) : List Row :=
  (book.rows order .Long ++ book.rows order .Short).filter fun row =>
    0 < row.2.volume ∧ row.2.holderUid = uid

theorem mem_sentRows {row : Row} :
    row ∈ sentRows order book uid ↔ book.state.positions.lookup row.1 = some row.2 ∧
      0 < row.2.volume ∧ row.2.holderUid = uid := by
  rw [sentRows, List.mem_filter, List.mem_append, Book.mem_rows, Book.mem_rows, ← and_or_left,
    decide_eq_true_iff]
  cases row.1.direction <;> simp

theorem nodup_sentRows : ((sentRows order book uid).map (·.1)).Nodup := by
  have hsub (direction : Direction) :
      ((book.rows order direction).map (·.1)).Sublist ((order.entries book.state.positions).map (·.1)) :=
    List.filter_sublist.map _
  have hall : ((book.rows order .Long ++ book.rows order .Short).map (·.1)).Nodup := by
    rw [List.map_append]
    refine List.Nodup.append ((order.nodup_keys _).sublist (hsub .Long))
      ((order.nodup_keys _).sublist (hsub .Short)) fun key hlong hshort => ?_
    obtain ⟨row, hrow, rfl⟩ := List.mem_map.mp hlong
    obtain ⟨row', hrow', hkey⟩ := List.mem_map.mp hshort
    have h := (Book.mem_rows.mp hrow').2
    rw [hkey, (Book.mem_rows.mp hrow).2] at h
    cases h
  exact hall.sublist (List.filter_sublist.map _)

theorem filter_writePositions (hwriter : l.hasWriter strategyUid = true) (rows : List Row) :
    (l.writePositions strategyUid rows).filter (·.data.holderUid = uid) =
      (rows.filter fun row => 0 < row.2.volume ∧ row.2.holderUid = uid).map
        fun row => ⟨row.2.holderUid, .position row⟩ := by
  rw [writePositions, if_pos hwriter, List.filter_map, List.filter_filter]
  congr 2
  funext row
  rw [Bool.decide_and, Bool.and_comm]
  rfl

/-- What is written for a book about its holder. -/
theorem filter_writeBook (hwriter : l.hasWriter strategyUid = true) :
    (l.writeBook order strategyUid book).filter (·.data.holderUid = uid) =
      ((sentRows order book uid).map fun row => ⟨row.2.holderUid, .position row⟩) ++
      ([⟨strategyUid, .asset book.state.asset⟩,
        ⟨strategyUid, .assetMargin book.state.assetMargin⟩].filter (·.data.holderUid = uid)) := by
  rw [writeBook, List.filter_append, List.filter_append, filter_writePositions hwriter,
    filter_writePositions hwriter, sentRows, List.filter_append, List.map_append]

theorem filter_writeBook_of_ne (hwriter : l.hasWriter strategyUid = true) (hfiled : Filed l.books.lookup)
    {uid' : UInt32} (hbook : l.books.lookup uid' = some book) (hne : uid' ≠ uid)
    (huid : uid ≠ PUBLIC) :
    (l.writeBook order strategyUid book).filter (·.data.holderUid = uid) = [] := by
  have hrows : sentRows order book uid = [] := by
    refine List.eq_nil_iff_forall_not_mem.mpr fun row hrow => ?_
    obtain ⟨hlookup, -, hholder⟩ := mem_sentRows.mp hrow
    rcases (hfiled uid' book hbook).positions row.1 row.2 hlookup with h | h
    · exact hne (h.symm.trans hholder)
    · exact huid (hholder.symm.trans h)
  rw [filter_writeBook hwriter, hrows]
  simp [LedgerData.holderUid, (hfiled uid' book hbook).asset,
    (hfiled uid' book hbook).assetMargin, hne]

/-- What is sent of a book. -/
def sentFrames (order : Iteration (PositionAt ℚ)) (strategyUid uid : UInt32) (book : AccountBook) :
    List LedgerFrame :=
  ((sentRows order book uid).map fun row => ⟨row.2.holderUid, .position row⟩) ++
    [⟨strategyUid, .asset book.state.asset⟩, ⟨strategyUid, .assetMargin book.state.assetMargin⟩]

/-- What the answer says about the holder of a book. -/
theorem filter_writeStrategyData (hfiled : Filed l.books.lookup) (hcovers : l.Covers strategyUid uid book)
    (huid : uid ≠ PUBLIC) :
    (l.writeStrategyData order bookOrder strategyUid).filter (·.data.holderUid = uid) =
      sentFrames order strategyUid uid book ++
      if uid = strategyUid then [⟨strategyUid, .positionEnd strategyUid⟩] else [] := by
  obtain ⟨hlookup, hwriter, category, hcategory, hconcerns⟩ := hcovers
  have hmem : (⟨uid, book⟩ : Sigma fun _ : UInt32 => AccountBook) ∈
      (bookOrder.entries l.books).filter fun entry => l.concerns strategyUid category entry.2 :=
    List.mem_filter.mpr ⟨(bookOrder.mem_entries _ _).mpr hlookup, hconcerns⟩
  obtain ⟨before, after, hsplit⟩ := List.append_of_mem hmem
  have hnodup := ((bookOrder.nodup_keys l.books).sublist (List.filter_sublist.map _) :
    (((bookOrder.entries l.books).filter fun entry =>
      l.concerns strategyUid category entry.2).map (·.1)).Nodup)
  -- the other books say nothing about this holder
  have hothers : ∀ entries, entries ⊆ before ++ after → (entries.flatMap fun entry =>
      (l.writeBook order strategyUid entry.2).filter (·.data.holderUid = uid)) = [] := by
    intro entries hsub
    refine List.flatMap_eq_nil_iff.mpr fun entry hentry => ?_
    have hin : entry ∈ before ++ ⟨uid, book⟩ :: after := by
      have := hsub hentry
      simp only [List.mem_append, List.mem_cons] at this ⊢
      tauto
    rw [← hsplit] at hin
    have hentry' := (bookOrder.mem_entries _ _).mp (List.mem_filter.mp hin).1
    refine filter_writeBook_of_ne hwriter hfiled hentry' (fun heq => ?_) huid
    rw [hsplit, List.map_append, List.map_cons, List.nodup_middle, List.nodup_cons] at hnodup
    refine hnodup.1 ?_
    rw [← List.map_append]
    exact List.mem_map.mpr ⟨entry, hsub hentry, heq⟩
  rw [writeStrategyData, hcategory]
  simp only [hwriter, if_true, List.filter_append, List.filter_flatMap, hsplit,
    List.flatMap_append, List.flatMap_cons]
  rw [hothers before (List.subset_append_left ..), hothers after (List.subset_append_right ..),
    filter_writeBook hwriter, sentFrames]
  have hasset := (hfiled uid book hlookup).asset
  have hmargin := (hfiled uid book hlookup).assetMargin
  by_cases hown : uid = strategyUid
  · simp [LedgerData.holderUid, hasset, hmargin, hown]
  · simp [LedgerData.holderUid, hasset, hmargin, hown, Ne.symm hown]

/-- A frame goes to the one who asked, or to the holder that it is about. -/
theorem dest_of_mem {frame : LedgerFrame}
    (h : frame ∈ l.writeStrategyData order bookOrder strategyUid) :
    frame.dest = strategyUid ∨ frame.dest = frame.data.holderUid := by
  have hpositions (rows : List Row) (hrow : frame ∈ l.writePositions strategyUid rows) :
      frame.dest = frame.data.holderUid := by
    unfold writePositions at hrow
    split at hrow
    · obtain ⟨row, -, rfl⟩ := List.mem_map.mp hrow
      rfl
    · cases hrow
  unfold writeStrategyData at h
  split at h
  · cases h
  · split at h
    · rcases List.mem_append.mp h with h | h
      · obtain ⟨entry, -, h⟩ := List.mem_flatMap.mp h
        rw [writeBook, List.mem_append, List.mem_append] at h
        rcases h with (h | h) | h
        · exact .inr (hpositions _ h)
        · exact .inr (hpositions _ h)
        · simp only [List.mem_cons, List.not_mem_nil, or_false] at h
          rcases h with rfl | rfl <;> exact .inl rfl
      · obtain rfl := List.mem_singleton.mp h
        exact .inl rfl
    · cases h

/-- What is handed over takes the place of what was there before, position by position. -/
structure HandedOver (uid : UInt32) (book before held : AccountBook) : Prop where
  asset : held.state.asset = book.state.asset
  assetMargin : held.state.assetMargin = book.state.assetMargin
  sent : ∀ key, Sends book uid key →
    held.shown key = Book.mergeShown (before.shown key) (book.shown key)
  kept : ∀ key, ¬ Sends book uid key → held.shown key = before.shown key

/-- The rows of a book, its asset and its asset margin, one after another. -/
theorem handedOver_of_foldlM {before held : AccountBook}
    (h : (sentFrames order strategyUid uid book).foldlM
      (fun b frame => frame.data.apply market now b) before = .ok held) :
    HandedOver uid book before held := by
  rw [sentFrames, List.foldlM_append, List.foldlM_map] at h
  obtain ⟨merged, hmerged, h⟩ := exists_of_bind h
  obtain ⟨-, -, hsent, hkept⟩ := Book.shown_of_updatePositions nodup_sentRows hmerged
  cases h
  refine ⟨rfl, rfl, fun key hsends => ?_, fun key hsends => ?_⟩
  · obtain ⟨p, hlookup, hvolume, hholder⟩ := hsends
    rw [Book.shown_of_lookup hlookup]
    exact hsent ⟨key, p⟩ (mem_sentRows.mpr ⟨hlookup, hvolume, hholder⟩)
  · refine hkept key fun hmem => hsends ?_
    obtain ⟨row, hrow, rfl⟩ := List.mem_map.mp hmem
    obtain ⟨hlookup, hvolume, hholder⟩ := mem_sentRows.mp hrow
    exact ⟨row.2, hlookup, hvolume, hholder⟩

/-- After the whole answer every book that it covers has been handed over; the one who asked has
its own book valued anew. -/
theorem handed_over (hfiled : Filed l.books.lookup) (hledger : Reserved l.locations)
    (happ : Reserved app.locations) (hguard : keeper.positionsGuarded = false)
    (hcovers : l.Covers strategyUid uid book) (hknown : Bookkeeper.hasLocation app uid = true)
    (hrun : (l.writeStrategyData order bookOrder strategyUid).foldlM
      (Bookkeeper.receive app market replicaOrder now) keeper = .ok keeper') :
    ∃ before held, getBook app keeper.books uid = .ok before ∧ HandedOver uid book before held ∧
      getBook app keeper'.books uid =
        .ok (if uid = strategyUid then held.update market now else held) := by
  have hreserved : uid ≠ PUBLIC := by
    rintro rfl
    rw [Bookkeeper.hasLocation, happ.1] at hknown
    cases hknown
  have hsync : ∀ frame ∈ l.writeStrategyData order bookOrder strategyUid, frame.dest = SYNC →
      Bookkeeper.hasLocation app frame.data.holderUid = false := by
    intro frame hframe hdest
    rcases dest_of_mem hframe with h | h
    · obtain ⟨category, hcategory, -⟩ := hcovers.concerns
      rw [← h, hdest, hledger.2] at hcategory
      cases hcategory
    · rw [← h, hdest, Bookkeeper.hasLocation, happ.2]
      rfl
  obtain ⟨before, hbefore⟩ : ∃ before, getBook app keeper.books uid = .ok before := by
    unfold getBook
    split
    · exact ⟨_, rfl⟩
    · obtain ⟨category, hcategory⟩ := Option.isSome_iff_exists.mp hknown
      rw [makeBook, hcategory]
      exact ⟨_, rfl⟩
  obtain ⟨after, hafter, hbook⟩ :=
    Bookkeeper.books_of_receiveAll hguard hsync hknown hrun hbefore
  rw [filter_writeStrategyData hfiled hcovers hreserved, List.foldlM_append] at hafter
  obtain ⟨held, hheld, hafter⟩ := exists_of_bind hafter
  refine ⟨before, held, hbefore, handedOver_of_foldlM hheld, ?_⟩
  rw [hbook]
  split at hafter
  · next heq =>
    rw [if_pos heq]
    exact congrArg Except.ok (Except.ok.inj hafter).symm
  · next hne =>
    rw [if_neg hne]
    exact congrArg Except.ok (Except.ok.inj hafter).symm

/-! ### An account and a strategy -/

/-- An account 10 with some positions. -/
def exampleBook (rows : List Row) : AccountBook where
  state :=
    { asset := emptyAsset 10 .Account "20260929"
      assetMargin := emptyAssetMargin 10 .Account "20260929"
      positions := collect rows
      orderInputs := fun _ => none }
  orders := fun _ => none
  trades := fun _ => none

/-- The account 10 and a strategy 7. -/
def exampleLocations (uid : UInt32) : Option Category :=
  if uid = 10 then some .TD else if uid = 7 then some .STRATEGY else none

/-- A ledger with the account, which the strategy has a channel to. -/
def exampleLedger (rows : List Row) : Ledger where
  books := (∅ : Finmap fun _ : UInt32 => AccountBook).insert 10 (exampleBook rows)
  locations := exampleLocations
  hasWriter _ := true
  hasChannel _ _ := true

/-- Books in the order of their uids. -/
def byUid : Iteration fun _ : UInt32 => AccountBook :=
  @Iteration.sorted _ _ _ (LinearOrder.lift' UInt32.toNat fun _ _ => UInt32.toNat_inj.mp)

/-- The strategy before it asks. -/
def exampleReceiver (books : Books) : Bookkeeper := ⟨books, fun _ => none, true, true, true, false⟩

theorem filed_exampleLedger {rows : List Row} (h : ∀ row ∈ rows, row.2.holderUid = 10) :
    Filed (exampleLedger rows).books.lookup := by
  intro uid book hbook
  change ((∅ : Finmap fun _ : UInt32 => AccountBook).insert 10 (exampleBook rows)).lookup uid =
    some book at hbook
  by_cases huid : uid = 10
  · subst huid
    rw [Finmap.lookup_insert] at hbook
    cases hbook
    exact ⟨rfl, rfl, fun key p hp => .inl (h _ (mem_of_lookup_collect hp))⟩
  · rw [Finmap.lookup_insert_of_ne _ huid] at hbook
    cases hbook

/-- The strategy applies what the ledger answers it. -/
def exampleAnswered (l : Ledger) (books : Books) :
    Except Fault Bookkeeper :=
  (l.writeStrategyData .sorted byUid 7).foldlM
    (Bookkeeper.receive ⟨exampleLocations, "20260929"⟩ noInstruments .sorted 0) (exampleReceiver books)

/-- The strategy had the positions of the account as they were before. -/
def exampleBefore : Books := fun uid =>
  if uid = 10 then
    some (exampleBook [SyncChannel.exampleRow "rb2410" 9, SyncChannel.exampleRow "hc2410" 3])
  else none

theorem handed_over_held : ∃ keeper',
    exampleAnswered (exampleLedger [SyncChannel.exampleRow "rb2410" 5]) exampleBefore = .ok keeper' ∧
    ∃ before held, getBook ⟨exampleLocations, "20260929"⟩ exampleBefore 10 = .ok before ∧
      HandedOver 10 (exampleBook [SyncChannel.exampleRow "rb2410" 5]) before held ∧
      getBook ⟨exampleLocations, "20260929"⟩ keeper'.books 10 =
        .ok (if (10 : UInt32) = 7 then held.update noInstruments 0 else held) := by
  obtain ⟨keeper', hrun⟩ := exists_of_isOk
    (x := exampleAnswered (exampleLedger [SyncChannel.exampleRow "rb2410" 5]) exampleBefore)
    (by decide +kernel)
  refine ⟨keeper', hrun, ?_⟩
  exact handed_over (filed_exampleLedger (by simp [SyncChannel.exampleRow])) ⟨rfl, rfl⟩ ⟨rfl, rfl⟩
    rfl ⟨Finmap.lookup_insert _, rfl, .STRATEGY, rfl, rfl⟩ rfl hrun
/-- The ledger has nothing of an instrument any more, and the strategy keeps what it had. -/
theorem closed_stays : ∃ keeper',
    exampleAnswered (exampleLedger []) exampleBefore = .ok keeper' ∧
    ∃ book, getBook ⟨exampleLocations, "20260929"⟩ keeper'.books 10 = .ok book ∧
      ((exampleBook []).shown (positionKey .Long "SHFE" "rb2410")).volume = 0 ∧
      (book.shown (positionKey .Long "SHFE" "rb2410")).volume = 9 := by
  obtain ⟨keeper', hrun, htest⟩ := exists_of_any
    (x := exampleAnswered (exampleLedger []) exampleBefore)
    (p := fun keeper => (getBook ⟨exampleLocations, "20260929"⟩ keeper.books 10).toOption.any
      fun book => (book.shown (positionKey .Long "SHFE" "rb2410")).volume = 9) (by decide +kernel)
  obtain ⟨book, hbook, hvolume⟩ := exists_of_any htest
  exact ⟨keeper', hrun, book, hbook, rfl, of_decide_eq_true hvolume⟩

/-- A position with a last price. -/
def exampleQuoted (lastPrice : ℚ) : Row :=
  ⟨positionKey .Long "SHFE" "rb2410",
    { (SyncChannel.exampleRow "rb2410" 6).2 with lastPrice := lastPrice }⟩

/-- The ledger's last price is the lower one, and the strategy keeps the one that it had. -/
theorem larger_price_stays : ∃ keeper',
    exampleAnswered (exampleLedger [exampleQuoted 3000])
      (fun uid => if uid = 10 then some (exampleBook [exampleQuoted 3100]) else none) =
        .ok keeper' ∧
    ∃ book, getBook ⟨exampleLocations, "20260929"⟩ keeper'.books 10 = .ok book ∧
      ((exampleBook [exampleQuoted 3000]).shown (positionKey .Long "SHFE" "rb2410")).lastPrice =
        3000 ∧
      (book.shown (positionKey .Long "SHFE" "rb2410")).lastPrice = 3100 := by
  obtain ⟨keeper', hrun, htest⟩ := exists_of_any
    (x := exampleAnswered (exampleLedger [exampleQuoted 3000])
      fun uid => if uid = 10 then some (exampleBook [exampleQuoted 3100]) else none)
    (p := fun keeper => (getBook ⟨exampleLocations, "20260929"⟩ keeper.books 10).toOption.any
      fun book => (book.shown (positionKey .Long "SHFE" "rb2410")).lastPrice = 3100)
    (by decide +kernel)
  obtain ⟨book, hbook, hprice⟩ := exists_of_any htest
  exact ⟨keeper', hrun, book, hbook, by decide +kernel, of_decide_eq_true hprice⟩

/-- The strategy's own book in the ledger, whose equity is not that of its cash. -/
def exampleOwn : AccountBook :=
  { exampleBook [] with
    state := { (exampleBook []).state with
      asset := { emptyAsset 7 .Strategy "20260929" with avail := 100, dynamicEquity := 90 }
      assetMargin := emptyAssetMargin 7 .Strategy "20260929" } }

/-- The strategy values its own book anew, and has another equity than the ledger. -/
theorem own_book_revalued : ∃ keeper',
    exampleAnswered { exampleLedger [] with
      books := (∅ : Finmap fun _ : UInt32 => AccountBook).insert 7 exampleOwn } exampleBefore =
        .ok keeper' ∧
    ∃ book, getBook ⟨exampleLocations, "20260929"⟩ keeper'.books 7 = .ok book ∧
      exampleOwn.state.asset.dynamicEquity = 90 ∧ book.state.asset.dynamicEquity = 100 := by
  obtain ⟨keeper', hrun, htest⟩ := exists_of_any
    (x := exampleAnswered { exampleLedger [] with
      books := (∅ : Finmap fun _ : UInt32 => AccountBook).insert 7 exampleOwn } exampleBefore)
    (p := fun keeper => (getBook ⟨exampleLocations, "20260929"⟩ keeper.books 7).toOption.any
      fun book => book.state.asset.dynamicEquity = 100) (by decide +kernel)
  obtain ⟨book, hbook, hequity⟩ := exists_of_any htest
  exact ⟨keeper', hrun, book, hbook, rfl, of_decide_eq_true hequity⟩

/-- After the transfer a position that the ledger has closed is there, a last price is not the
ledger's, and neither is the asset of the one who asked. -/
theorem stale_after_transfer :
    (∃ keeper', exampleAnswered (exampleLedger []) exampleBefore = .ok keeper' ∧
      ∃ book, getBook ⟨exampleLocations, "20260929"⟩ keeper'.books 10 = .ok book ∧
        ((exampleBook []).shown (positionKey .Long "SHFE" "rb2410")).volume = 0 ∧
        (book.shown (positionKey .Long "SHFE" "rb2410")).volume = 9) ∧
    (∃ keeper', exampleAnswered (exampleLedger [exampleQuoted 3000])
        (fun uid => if uid = 10 then some (exampleBook [exampleQuoted 3100]) else none) =
          .ok keeper' ∧
      ∃ book, getBook ⟨exampleLocations, "20260929"⟩ keeper'.books 10 = .ok book ∧
        ((exampleBook [exampleQuoted 3000]).shown (positionKey .Long "SHFE" "rb2410")).lastPrice =
          3000 ∧
        (book.shown (positionKey .Long "SHFE" "rb2410")).lastPrice = 3100) ∧
    ∃ keeper', exampleAnswered { exampleLedger [] with
        books := (∅ : Finmap fun _ : UInt32 => AccountBook).insert 7 exampleOwn } exampleBefore =
          .ok keeper' ∧
      ∃ book, getBook ⟨exampleLocations, "20260929"⟩ keeper'.books 7 = .ok book ∧
        exampleOwn.state.asset.dynamicEquity = 90 ∧ book.state.asset.dynamicEquity = 100 :=
  ⟨closed_stays, larger_price_stays, own_book_revalued⟩

end Ledger

end Kungfu.Wingchun
