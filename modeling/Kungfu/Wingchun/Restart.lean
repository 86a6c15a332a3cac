import Kungfu.Api.Service
import Kungfu.Logic.Run
import Kungfu.Wingchun.Completion
import Kungfu.Wingchun.Mirror

/-!
# Strategies that start again

A strategy that starts asks the ledger to put its book aside, names its instruments, and asks for
its positions back.  The ledger makes a new book with an empty position for each instrument and
copies what it has put aside over those.  Then it sends the book to the strategy.  So the strategy
goes on with what it held in the instruments that it names, whatever the ledger does for others
meanwhile, and with nothing of the other instruments.
-/

namespace Kungfu.Wingchun

open Longfist Logic Outcome

/-! ## What the ledger does -/

namespace Book

/-- `Book::ensure_position`. -/
def ensurePosition (book : AccountBook) (key : Api.InstrumentKey) : Throws AccountBook := do
  let book ← (if isShortable key.instrumentType then
      book.getPosition .Short key.exchangeId key.instrumentId
    else .ok book)
  book.getPosition .Long key.exchangeId key.instrumentId

/-- The body of the loop of `rebuild_book`. -/
def rebuildPosition (triggerTime : Int64) (strategyBook : AccountBook) (row : Row) :
    Throws AccountBook :=
  if strategyBook.hasPositionFor row then do
    let strategyBook ← strategyBook.getPositionFor row
    return strategyBook.setPosition { row.2 with updateTime := triggerTime }
  else .ok strategyBook

/-- `rebuild_book` for both sides of the book that was put aside, which there may be none of. -/
def rebuild (order : Iteration (PositionAt ℚ)) (triggerTime : Int64) (strategyBook : AccountBook)
    (tmpBook : Option AccountBook) : Throws AccountBook :=
  match tmpBook with
  | none => .ok strategyBook
  | some tmpBook =>
      (tmpBook.rows order .Long ++ tmpBook.rows order .Short).foldlM (rebuildPosition triggerTime)
        strategyBook

end Book

/-- The books of the ledger, and those that it has put aside. -/
structure LedgerBooks where
  books : Books
  tmpBooks : Books

/-- What the ledger handles: requests of strategies, trading data, and anything else. -/
inductive LedgerEvent
  | keepPositions (source : UInt32)
  | resetBook (source : UInt32)
  | instrumentKey (source : UInt32) (key : Api.InstrumentKey)
  | rebuildPositions (source : UInt32) (triggerTime : Int64)
  | update (u : Update)
  | others (books : Books)

/-- A request of a strategy. -/
def LedgerEvent.IsOf (strategyUid : UInt32) : LedgerEvent → Bool
  | keepPositions source | resetBook source | instrumentKey source _ | rebuildPositions source _ =>
      source = strategyUid
  | _ => false

namespace LedgerBooks

variable (app : App) (market : Market) (order : Iteration (PositionAt ℚ)) (l : LedgerBooks)

/-- `Ledger::keep_positions`. -/
def keepPositions (strategyUid : UInt32) : LedgerBooks :=
  match l.books strategyUid with
  | none => l
  | some strategyBook =>
      { books := Function.update l.books strategyUid none
        tmpBooks := Function.update l.tmpBooks strategyUid (some strategyBook) }

/-- What `ResetBookRequest` does. -/
def resetBook (source : UInt32) : LedgerBooks :=
  { l with books := Function.update l.books source none }

/-- What an `InstrumentKey` does. -/
def updateInstrumentKey (source : UInt32) (key : Api.InstrumentKey) : Except Fault LedgerBooks := do
  let books ← Bookkeeper.onBook app l.books source (·.ensurePosition key)
  return { l with books := books }

/-- `Ledger::rebuild_positions`. -/
def rebuildPositions (triggerTime : Int64) (strategyUid : UInt32) : Except Fault LedgerBooks := do
  let books ← Bookkeeper.onBook app l.books strategyUid fun strategyBook => do
    let strategyBook ← strategyBook.rebuild order triggerTime (l.tmpBooks strategyUid)
    return strategyBook.update market triggerTime
  return { l with books := books }

def step : LedgerEvent → Except Fault LedgerBooks
  | .keepPositions source => .ok (l.keepPositions source)
  | .resetBook source => .ok (l.resetBook source)
  | .instrumentKey source key => l.updateInstrumentKey app source key
  | .rebuildPositions source triggerTime => l.rebuildPositions app market order triggerTime source
  | .update u => do
      let books ← (updateBook app market u l.books).mapError (·.fault)
      return { l with books := books }
  | .others books => .ok { l with books := books }

end LedgerBooks

/-- What a strategy that starts asks for, before it asks for its positions. -/
def conversation (strategyUid : UInt32) (keys : List Api.InstrumentKey) (triggerTime : Int64) :
    List LedgerEvent :=
  .keepPositions strategyUid :: .resetBook strategyUid ::
    (keys.map (LedgerEvent.instrumentKey strategyUid) ++ [.rebuildPositions strategyUid triggerTime])

/-! ## What is held -/

/-- What is held or frozen in a position, and at what price. -/
structure Lot where
  holderUid : UInt32
  volume : ℤ
  yesterdayVolume : ℤ
  frozenTotal : ℤ
  frozenYesterday : ℤ
  avgOpenPrice : ℚ
  positionCostPrice : ℚ
  deriving DecidableEq

end Kungfu.Wingchun

namespace Kungfu.Longfist.Position

open Wingchun

/-- A position that is blank is none to speak of. -/
def lot {key : PositionKey} (p : Position key) : Option Lot :=
  if p.volume = 0 ∧ p.yesterdayVolume = 0 ∧ p.frozenTotal = 0 ∧ p.frozenYesterday = 0 then none
  else some ⟨p.holderUid, p.volume, p.yesterdayVolume, p.frozenTotal, p.frozenYesterday,
    p.avgOpenPrice, p.positionCostPrice⟩

end Kungfu.Longfist.Position

namespace Kungfu.Wingchun

open Longfist Logic Outcome

namespace Book

variable {book book' : AccountBook} {key key' : PositionKey} {direction : Direction}
  {exchangeId instrumentId : String} {row : Row} {order : Iteration (PositionAt ℚ)} {hash : UInt32}
  {triggerTime : Int64}

theorem hasInstrument_iff :
    book.HasInstrument hash ↔ book.Has ⟨.Long, hash⟩ ∨ book.Has ⟨.Short, hash⟩ := by
  constructor
  · rintro ⟨direction, h⟩
    cases direction with
    | Long => exact .inl h
    | Short => exact .inr h
  · rintro (h | h)
    · exact ⟨_, h⟩
    · exact ⟨_, h⟩

instance (book : AccountBook) (hash : UInt32) : Decidable (book.HasInstrument hash) :=
  decidable_of_iff _ hasInstrument_iff.symm

def lot (book : AccountBook) (key : PositionKey) : Option Lot :=
  (book.state.positions.lookup key).bind Position.lot

theorem lot_of_lookup {p : Position key} (h : book.state.positions.lookup key = some p) :
    book.lot key = p.lot := by
  rw [lot, h, Option.bind_some]

theorem lot_setPosition (p : Position key) :
    (book.setPosition p).lot key' = if key' = key then p.lot else book.lot key' := by
  by_cases h : key' = key
  · subst h
    rw [if_pos rfl, lot_of_lookup (lookup_setPosition p)]
  · rw [if_neg h, lot, lookup_setPosition_of_ne p h, lot]

/-- A position in an instrument is put in. -/
theorem hasInstrument_setPosition (p : Position key) :
    (book.setPosition p).HasInstrument hash ↔ hash = key.hash ∨ book.HasInstrument hash := by
  constructor
  · rintro ⟨direction, h⟩
    rcases (has_setPosition p).mp h with rfl | h
    · exact .inl rfl
    · exact .inr ⟨direction, h⟩
  · rintro (rfl | ⟨direction, h⟩)
    · exact ⟨key.direction, (has_setPosition p).mpr (.inl rfl)⟩
    · exact ⟨direction, (has_setPosition p).mpr (.inr h)⟩

/-- To ask for a position changes nothing that is held. -/
theorem lot_getPosition (h : book.getPosition direction exchangeId instrumentId = .ok book') :
    book'.lot = book.lot ∧ ∀ hash, book'.HasInstrument hash ↔
      hash = hashInstrument exchangeId instrumentId ∨ book.HasInstrument hash := by
  obtain ⟨p, hp, rfl⟩ := gives_of_getPosition h
  refine ⟨funext fun key => ?_, fun hash => hasInstrument_setPosition p⟩
  rw [lot_setPosition]
  split
  · next heq =>
    subst heq
    rcases hp with hp | ⟨hnone, type, -, rfl⟩
    · exact (lot_of_lookup hp).symm
    · rw [lot, hnone, Option.bind_none, Position.lot, if_pos ⟨rfl, rfl, rfl, rfl⟩]
  · rfl

/-- An instrument that is ensured is there. -/
theorem lot_ensurePosition {instrumentKey : Api.InstrumentKey}
    (h : book.ensurePosition instrumentKey = .ok book') :
    book'.lot = book.lot ∧ ∀ hash, book'.HasInstrument hash ↔
      hash = hashInstrument instrumentKey.exchangeId instrumentKey.instrumentId ∨
        book.HasInstrument hash := by
  unfold ensurePosition at h
  obtain ⟨book₁, hshort, hlong⟩ := exists_of_bind h
  obtain ⟨hlot, hhas⟩ := lot_getPosition hlong
  split at hshort
  · obtain ⟨hlot₁, hhas₁⟩ := lot_getPosition hshort
    refine ⟨hlot.trans hlot₁, fun hash => ?_⟩
    rw [hhas, hhas₁, or_self_left]
  · cases hshort
    exact ⟨hlot, hhas⟩

/-! ### Copying back -/

/-- A position is copied back if there is a position in its instrument. -/
theorem lot_rebuildPosition (h : book.rebuildPosition triggerTime row = .ok book') :
    (∀ hash, book'.HasInstrument hash ↔ book.HasInstrument hash) ∧ ∀ key, book'.lot key =
      if book.HasInstrument key.hash ∧ key = row.1 then row.2.lot else book.lot key := by
  unfold rebuildPosition at h
  split at h
  · next hhas =>
    have hinstrument := hasPositionFor_iff.mp hhas
    obtain ⟨book₁, hget, h⟩ := exists_of_bind h
    cases h
    obtain ⟨hlot₁, hhas₁⟩ := lot_getPosition hget
    have hhash : hashInstrument row.2.exchangeId row.2.instrumentId = row.1.hash := row.2.hashed
    refine ⟨fun hash => ?_, fun key => ?_⟩
    · rw [hasInstrument_setPosition, hhas₁, hhash, or_self_left, or_iff_right_iff_imp]
      rintro rfl
      exact hinstrument
    · rw [lot_setPosition, hlot₁]
      by_cases hkey : key = row.1
      · subst hkey
        rw [if_pos rfl, if_pos ⟨hinstrument, rfl⟩]
        rfl
      · rw [if_neg hkey, if_neg fun h => hkey h.2]
  · next hhas =>
    cases h
    refine ⟨fun _ => Iff.rfl, fun key => ?_⟩
    rw [if_neg]
    rintro ⟨hinstrument, rfl⟩
    exact hhas (hasPositionFor_iff.mpr hinstrument)

/-- Over a book in which nothing is held, what was held in its instruments is copied back. -/
theorem lot_rebuild {tmpBook : Option AccountBook} (hnone : ∀ key, book.lot key = none)
    (h : book.rebuild order triggerTime tmpBook = .ok book') :
    (∀ hash, book'.HasInstrument hash ↔ book.HasInstrument hash) ∧ ∀ key, book'.lot key =
      if book.HasInstrument key.hash then tmpBook.bind (·.lot key) else none := by
  cases tmpBook with
  | none =>
      cases h
      refine ⟨fun _ => Iff.rfl, fun key => ?_⟩
      rw [hnone, Option.bind_none, ite_self]
  | some tmpBook =>
      have hall := foldlM_invariant (I := fun done b =>
        (∀ hash, b.HasInstrument hash ↔ book.HasInstrument hash) ∧ ∀ key, b.lot key =
          if book.HasInstrument key.hash ∧ ∃ row ∈ done, row.1 = key then tmpBook.lot key else none)
        ⟨fun _ => Iff.rfl, fun key => by simp [hnone]⟩ ?_ h
      · obtain ⟨hinstrument, hlot⟩ := hall
        refine ⟨hinstrument, fun key => ?_⟩
        rw [hlot, Option.bind_some]
        by_cases hhas : book.HasInstrument key.hash
        · simp only [hhas, true_and, if_true]
          cases hp : tmpBook.state.positions.lookup key with
          | none => 
              have : tmpBook.lot key = none := by rw [Book.lot, hp, Option.bind_none]
              rw [this, ite_self]
          | some p => 
              rw [if_pos ⟨⟨key, p⟩, (mem_rows_both order).mpr hp, rfl⟩]
        · simp [hhas]
      · rintro done row todo b b' hrows ⟨hinstrument, hlot⟩ hstep
        obtain ⟨hinstrument', hlot'⟩ := lot_rebuildPosition hstep
        have hrow : tmpBook.lot row.1 = row.2.lot :=
          lot_of_lookup ((mem_rows_both order).mp (by simp [hrows]))
        refine ⟨fun hash => (hinstrument' hash).trans (hinstrument hash), fun key => ?_⟩
        rw [hlot']
        simp only [hinstrument]
        by_cases hkey : key = row.1
        · subst hkey
          simp only [and_true, hlot, hrow]
          by_cases hhas : book.HasInstrument row.1.hash <;> simp [hhas]
        · have hne : ¬ (book.HasInstrument key.hash ∧ key = row.1) := fun h => hkey h.2
          have hmem : (∃ r ∈ done ++ [row], r.1 = key) ↔ ∃ r ∈ done, r.1 = key := by
            simp [or_and_right, exists_or, Ne.symm hkey]
          rw [if_neg hne, hlot]
          simp only [hmem]

end Book

/-- The same is held, and in the same instruments there are positions. -/
structure SameLots (book book' : AccountBook) : Prop where
  lot : book'.lot = book.lot
  hasInstrument : ∀ hash, book'.HasInstrument hash ↔ book.HasInstrument hash

theorem SameLots.refl (book : AccountBook) : SameLots book book := ⟨rfl, fun _ => Iff.rfl⟩

theorem SameLots.trans {book book' book'' : AccountBook} (h : SameLots book book')
    (h' : SameLots book' book'') : SameLots book book'' :=
  ⟨h'.lot.trans h.lot, fun hash => (h'.hasInstrument hash).trans (h.hasInstrument hash)⟩

/-! ## A strategy at the ledger -/

/-- The hashes of the instruments. -/
def hashesOf (keys : List Api.InstrumentKey) : List UInt32 :=
  keys.map fun key => hashInstrument key.exchangeId key.instrumentId

namespace LedgerBooks

variable {app : App} {market : Market} {order : Iteration (PositionAt ℚ)} {l l' : LedgerBooks}
  {strategyUid : UInt32} {keys done todo : List Api.InstrumentKey} {triggerTime : Int64}
  {event : LedgerEvent} {events rest : List LedgerEvent} {held : PositionKey → Option Lot}

/-- What the ledger holds for a strategy, or has put aside if it has no book of it. -/
def kept (l : LedgerBooks) (strategyUid : UInt32) (key : PositionKey) : Option Lot :=
  ((l.books strategyUid).or (l.tmpBooks strategyUid)).bind (·.lot key)

/-- What is put aside for a strategy. -/
def aside (l : LedgerBooks) (strategyUid : UInt32) (key : PositionKey) : Option Lot :=
  (l.tmpBooks strategyUid).bind (·.lot key)

/-- A step that is about others, and makes no book of the strategy. -/
def Apart (strategyUid : UInt32) (l : LedgerBooks) : LedgerEvent → Prop
  | .update u => ¬ u.Reaches strategyUid
  | .others books => Option.Rel SameLots (l.books strategyUid) (books strategyUid)
  | _ => True

/-- The strategy has named instruments; nothing is held in them yet. -/
structure Waiting (strategyUid : UInt32) (held : PositionKey → Option Lot)
    (keys : List Api.InstrumentKey) (l : LedgerBooks) : Prop where
  aside : l.aside strategyUid = held
  missing : l.books strategyUid = none → keys = []
  lot : ∀ book, l.books strategyUid = some book → ∀ key, book.lot key = none
  hasInstrument : ∀ book, l.books strategyUid = some book →
    ∀ hash, book.HasInstrument hash ↔ hash ∈ hashesOf keys

/-- The strategy has back what was kept for it in its instruments. -/
structure Rebuilt (held : PositionKey → Option Lot) (keys : List Api.InstrumentKey)
    (book : AccountBook) : Prop where
  lot : ∀ key, book.lot key = if key.hash ∈ hashesOf keys then held key else none
  hasInstrument : ∀ hash, book.HasInstrument hash ↔ hash ∈ hashesOf keys

/-- How far the ledger is, by what the strategy has still to ask for. -/
inductive Phase (strategyUid : UInt32) (held : PositionKey → Option Lot)
    (keys : List Api.InstrumentKey) (triggerTime : Int64) (rest : List LedgerEvent)
    (l : LedgerBooks) : Prop
  | begins (hrest : rest = conversation strategyUid keys triggerTime)
      (h : l.kept strategyUid = held)
  | putAside (hrest : .keepPositions strategyUid :: rest = conversation strategyUid keys triggerTime)
      (h : Waiting strategyUid held [] l)
  | waits (done todo : List Api.InstrumentKey) (hkeys : keys = done ++ todo)
      (hrest : rest = todo.map (LedgerEvent.instrumentKey strategyUid) ++
        [.rebuildPositions strategyUid triggerTime]) (h : Waiting strategyUid held done l)
  | ends (hrest : rest = []) (book : AccountBook) (hbook : l.books strategyUid = some book)
      (h : Rebuilt held keys book)

/-! ### Steps of others -/

/-- What a step of others leaves of a strategy. -/
structure Spared (strategyUid : UInt32) (l l' : LedgerBooks) : Prop where
  books : Option.Rel SameLots (l.books strategyUid) (l'.books strategyUid)
  tmpBooks : l'.tmpBooks strategyUid = l.tmpBooks strategyUid

theorem Spared.of_eq (hbooks : l'.books strategyUid = l.books strategyUid)
    (htmp : l'.tmpBooks strategyUid = l.tmpBooks strategyUid) : Spared strategyUid l l' := by
  refine ⟨?_, htmp⟩
  rw [hbooks]
  cases l.books strategyUid with
  | none => exact .none
  | some book => exact .some (.refl book)

theorem updateBook_of_not_reaches {u : Update} {books books' : Books}
    (h : updateBook app market u books = .ok books') (hreach : ¬ u.Reaches strategyUid) :
    books' strategyUid = books strategyUid := by
  have hat {method : Method} {books books' : Books} {uid : UInt32} (hne : strategyUid ≠ uid)
      (h : applyAndUpdateAt app market method u books uid = .ok books') :
      books' strategyUid = books strategyUid := by
    unfold applyAndUpdateAt at h
    split at h
    · cases h
    · split at h
      · cases h
      · cases h
        exact Function.update_of_ne hne ..
  have hsource : strategyUid ≠ u.source := fun heq => hreach (.inl heq.symm)
  unfold updateBook at h
  split at h
  · cases h
    rfl
  · obtain ⟨books₁, hfirst, h⟩ := exists_of_bind h
    split at h
    · next hdest =>
      have hne : strategyUid ≠ u.dest := fun heq => hreach (.inr ⟨heq.symm, hdest⟩)
      exact (hat hne h).trans (hat hsource hfirst)
    · cases h
      exact hat hsource hfirst

theorem onBook_of_ne {books books' : Books} {uid : UInt32} {f : AccountBook → Throws AccountBook}
    (h : Bookkeeper.onBook app books uid f = .ok books') (hne : strategyUid ≠ uid) :
    books' strategyUid = books strategyUid := by
  obtain ⟨book, book', -, -, rfl⟩ := SyncChannel.exists_of_onBook h
  exact Function.update_of_ne hne ..

/-- Whatever the ledger does for others leaves what it holds for a strategy. -/
theorem spared_step (hother : event.IsOf strategyUid = false) (hapart : Apart strategyUid l event)
    (h : l.step app market order event = .ok l') : Spared strategyUid l l' := by
  cases event with
  | keepPositions source =>
      have hne : strategyUid ≠ source := fun heq => by simp [LedgerEvent.IsOf, heq] at hother
      cases h
      unfold keepPositions
      split
      · exact .of_eq rfl rfl
      · exact .of_eq (Function.update_of_ne hne ..) (Function.update_of_ne hne ..)
  | resetBook source =>
      have hne : strategyUid ≠ source := fun heq => by simp [LedgerEvent.IsOf, heq] at hother
      cases h
      exact .of_eq (Function.update_of_ne hne ..) rfl
  | instrumentKey source key =>
      have hne : strategyUid ≠ source := fun heq => by simp [LedgerEvent.IsOf, heq] at hother
      obtain ⟨books, hbooks, h⟩ := exists_of_bind h
      cases h
      exact .of_eq (onBook_of_ne hbooks hne) rfl
  | rebuildPositions source time =>
      have hne : strategyUid ≠ source := fun heq => by simp [LedgerEvent.IsOf, heq] at hother
      obtain ⟨books, hbooks, h⟩ := exists_of_bind h
      cases h
      exact .of_eq (onBook_of_ne hbooks hne) rfl
  | update u =>
      obtain ⟨books, hbooks, h⟩ := exists_of_bind h
      cases h
      exact .of_eq (updateBook_of_not_reaches (mapError_eq_ok.mp hbooks) hapart) rfl
  | others books =>
      cases h
      exact ⟨hapart, rfl⟩

theorem Spared.exists_after {book : AccountBook} (h : Spared strategyUid l l')
    (hbook : l.books strategyUid = some book) :
    ∃ book', l'.books strategyUid = some book' ∧ SameLots book book' := by
  have hbooks := h.books
  rw [hbook] at hbooks
  cases hbook' : l'.books strategyUid with
  | none => simp [hbook'] at hbooks
  | some book' =>
      rw [hbook', Option.rel_some_some] at hbooks
      exact ⟨book', rfl, hbooks⟩

theorem Spared.eq_none_iff (h : Spared strategyUid l l') :
    l'.books strategyUid = none ↔ l.books strategyUid = none := by
  have hbooks := h.books
  cases hbook : l.books strategyUid with
  | none => cases hbook' : l'.books strategyUid <;> simp_all
  | some book =>
      obtain ⟨book', hbook', -⟩ := h.exists_after hbook
      simp [hbook']

theorem Spared.kept (h : Spared strategyUid l l') : l'.kept strategyUid = l.kept strategyUid := by
  funext key
  simp only [LedgerBooks.kept, h.tmpBooks]
  cases hbook : l.books strategyUid with
  | none => rw [h.eq_none_iff.mpr hbook]
  | some book =>
      obtain ⟨book', hbook', hsame⟩ := h.exists_after hbook
      simp [hbook', hsame.lot]

theorem Spared.trans {l'' : LedgerBooks} (h : Spared strategyUid l l')
    (h' : Spared strategyUid l' l'') : Spared strategyUid l l'' := by
  refine ⟨?_, h'.tmpBooks.trans h.tmpBooks⟩
  cases hbook : l.books strategyUid with
  | none =>
      rw [h'.eq_none_iff.mpr (h.eq_none_iff.mpr hbook)]
      exact .none
  | some book =>
      obtain ⟨book', hbook', hsame⟩ := h.exists_after hbook
      obtain ⟨book'', hbook'', hsame'⟩ := h'.exists_after hbook'
      rw [hbook'']
      exact .some (hsame.trans hsame')

/-- A run that is about others. -/
theorem spared_run (hothers : ∀ event ∈ events, event.IsOf strategyUid = false)
    (hapart : AlongM (step app market order) (Apart strategyUid) l events)
    (hrun : events.foldlM (step app market order) l = .ok l') : Spared strategyUid l l' :=
  (hapart.and_forall hothers).foldlM (P := Spared strategyUid l)
    (fun _ _ _ hm hsafe hstep => hm.trans (spared_step hsafe.2 hsafe.1 hstep)) hrun (.of_eq rfl rfl)

theorem Waiting.spared (h : Waiting strategyUid held done l) (hspared : Spared strategyUid l l') :
    Waiting strategyUid held done l' := by
  have hbefore {book' : AccountBook} (hbook' : l'.books strategyUid = some book') :
      ∃ book, l.books strategyUid = some book ∧ SameLots book book' := by
    cases hbook : l.books strategyUid with
    | none => simp [hspared.eq_none_iff.mpr hbook] at hbook'
    | some book =>
        obtain ⟨_, hbook'', hsame⟩ := hspared.exists_after hbook
        cases hbook'.symm.trans hbook''
        exact ⟨book, rfl, hsame⟩
  refine ⟨?_, fun hnone => h.missing (hspared.eq_none_iff.mp hnone), fun book' hbook' key => ?_,
    fun book' hbook' hash => ?_⟩
  · funext key
    rw [LedgerBooks.aside, hspared.tmpBooks]
    exact congrFun h.aside key
  · obtain ⟨book, hbook, hsame⟩ := hbefore hbook'
    rw [hsame.lot, h.lot book hbook]
  · obtain ⟨book, hbook, hsame⟩ := hbefore hbook'
    rw [hsame.hasInstrument, h.hasInstrument book hbook]

theorem Phase.spared (h : Phase strategyUid held keys triggerTime rest l)
    (hspared : Spared strategyUid l l') : Phase strategyUid held keys triggerTime rest l' := by
  cases h with
  | begins hrest h => exact .begins hrest (hspared.kept.trans h)
  | putAside hrest h => exact .putAside hrest (h.spared hspared)
  | waits done todo hkeys hrest h => exact .waits done todo hkeys hrest (h.spared hspared)
  | ends hrest book hbook h =>
      obtain ⟨book', hbook', hsame⟩ := hspared.exists_after hbook
      refine .ends hrest book' hbook' ⟨fun key => ?_, fun hash => ?_⟩
      · rw [hsame.lot, h.lot]
      · rw [hsame.hasInstrument, h.hasInstrument]

/-! ### Steps of the strategy -/

theorem Waiting.of_none (haside : l.aside strategyUid = held)
    (hnone : l.books strategyUid = none) : Waiting strategyUid held [] l := by
  refine ⟨haside, fun _ => rfl, fun book hbook => ?_, fun book hbook => ?_⟩
  · rw [hnone] at hbook
    cases hbook
  · rw [hnone] at hbook
    cases hbook

theorem Waiting.of_some {book : AccountBook} (haside : l.aside strategyUid = held)
    (hbook : l.books strategyUid = some book) (hlot : ∀ key, book.lot key = none)
    (hinstrument : ∀ hash, book.HasInstrument hash ↔ hash ∈ hashesOf done) :
    Waiting strategyUid held done l := by
  refine ⟨haside, fun hnone => ?_, fun b hb => ?_, fun b hb => ?_⟩
  · rw [hbook] at hnone
    cases hnone
  · cases hbook.symm.trans hb
    exact hlot
  · cases hbook.symm.trans hb
    exact hinstrument

theorem waiting_keepPositions (h : l.kept strategyUid = held) :
    Waiting strategyUid held [] (l.keepPositions strategyUid) := by
  refine .of_none ?_ ?_
  · rw [← h]
    funext key
    unfold keepPositions LedgerBooks.aside LedgerBooks.kept
    cases hbook : l.books strategyUid <;> simp
  · unfold keepPositions
    split
    · assumption
    · exact Function.update_self ..

theorem Waiting.resetBook (h : Waiting strategyUid held [] l) :
    Waiting strategyUid held [] (l.resetBook strategyUid) :=
  .of_none h.aside (Function.update_self ..)

/-- A book that is made has no positions. -/
theorem empty_of_makeBook {book : AccountBook} (h : makeBook app strategyUid = .ok book) :
    book.state.positions = ∅ := by
  unfold makeBook at h
  split at h
  · cases h
  · cases h
    rfl

/-- The book that a strategy has, or that is made for it. -/
theorem Waiting.getBook (h : Waiting strategyUid held done l) {book : AccountBook}
    (hbook : getBook app l.books strategyUid = .ok book) :
    (∀ key, book.lot key = none) ∧ ∀ hash, book.HasInstrument hash ↔ hash ∈ hashesOf done := by
  unfold Wingchun.getBook at hbook
  split at hbook
  · next book' hbook' =>
    cases hbook
    exact ⟨h.lot book hbook', h.hasInstrument book hbook'⟩
  · next hnone =>
    have hempty := empty_of_makeBook hbook
    rw [h.missing hnone]
    refine ⟨fun key => ?_, fun hash => ?_⟩
    · rw [Book.lot, hempty]
      rfl
    · simp [Book.HasInstrument, Book.Has, hempty, hashesOf]

theorem Waiting.updateInstrumentKey (h : Waiting strategyUid held done l) {key : Api.InstrumentKey}
    (hok : l.updateInstrumentKey app strategyUid key = .ok l') :
    Waiting strategyUid held (done ++ [key]) l' := by
  obtain ⟨books, hbooks, hok⟩ := exists_of_bind hok
  cases hok
  obtain ⟨book, book', hbook, hensure, rfl⟩ := SyncChannel.exists_of_onBook hbooks
  obtain ⟨hlot, hinstrument⟩ := h.getBook hbook
  obtain ⟨hlot', hinstrument'⟩ := Book.lot_ensurePosition hensure
  refine .of_some h.aside (Function.update_self ..) (hlot' ▸ hlot) fun hash => ?_
  rw [hinstrument', hinstrument]
  simp [hashesOf, or_comm]

theorem Waiting.rebuildPositions (h : Waiting strategyUid held keys l)
    (hok : l.rebuildPositions app market order triggerTime strategyUid = .ok l') :
    ∃ book, l'.books strategyUid = some book ∧ Rebuilt held keys book := by
  obtain ⟨books, hbooks, hok⟩ := exists_of_bind hok
  cases hok
  obtain ⟨book, book', hbook, hrebuild, rfl⟩ := SyncChannel.exists_of_onBook hbooks
  obtain ⟨rebuilt, hrebuilt, hupdate⟩ := exists_of_bind hrebuild
  cases hupdate
  obtain ⟨hlot, hinstrument⟩ := h.getBook hbook
  obtain ⟨hinstrument', hlot'⟩ := Book.lot_rebuild hlot hrebuilt
  refine ⟨_, Function.update_self .., fun key => ?_, fun hash => ?_⟩
  · refine (hlot' key).trans ?_
    simp only [hinstrument, ← h.aside]
    rfl
  · exact (hinstrument' hash).trans (hinstrument hash)

/-- The next request of the strategy is handled. -/
theorem Phase.own (h : Phase strategyUid held keys triggerTime (event :: rest) l)
    (hok : l.step app market order event = .ok l') :
    Phase strategyUid held keys triggerTime rest l' := by
  cases h with
  | begins hrest h =>
      obtain ⟨rfl, rfl⟩ := List.cons.inj hrest
      cases hok
      exact .putAside rfl (waiting_keepPositions h)
  | putAside hrest h =>
      obtain ⟨rfl, rfl⟩ := List.cons.inj (List.cons.inj hrest).2
      cases hok
      exact .waits [] keys rfl rfl h.resetBook
  | waits done todo hkeys hrest h =>
      cases todo with
      | nil =>
          obtain ⟨rfl, rfl⟩ := List.cons.inj hrest
          rw [List.append_nil] at hkeys
          subst hkeys
          obtain ⟨book, hbook, hrebuilt⟩ := h.rebuildPositions hok
          exact .ends rfl book hbook hrebuilt
      | cons key todo =>
          obtain ⟨rfl, rfl⟩ := List.cons.inj hrest
          refine .waits (done ++ [key]) todo ?_ rfl (h.updateInstrumentKey hok)
          rw [hkeys, List.append_assoc, List.singleton_append]
  | ends hrest book hbook h => cases hrest

/-- Once a strategy has asked for everything, the ledger holds for it what it held before in the
instruments that the strategy has named, and nothing else. -/
theorem rebuilt_of_run
    (hasked : events.filter (·.IsOf strategyUid) = conversation strategyUid keys triggerTime)
    (hapart : AlongM (step app market order) (Apart strategyUid) l events)
    (hrun : events.foldlM (step app market order) l = .ok l') :
    ∃ book, l'.books strategyUid = some book ∧ Rebuilt (l.kept strategyUid) keys book := by
  have hphase : Phase strategyUid (l.kept strategyUid) keys triggerTime
      (([] : List LedgerEvent).filter (·.IsOf strategyUid)) l' := by
    refine hapart.foldlM_rest (P := fun todo m => Phase strategyUid (l.kept strategyUid) keys
      triggerTime (todo.filter (·.IsOf strategyUid)) m) ?_ hrun (.begins hasked rfl)
    intro m event todo m' hm hsafe hstep
    cases hown : event.IsOf strategyUid with
    | true =>
        rw [List.filter_cons_of_pos hown] at hm
        exact hm.own hstep
    | false =>
        rw [List.filter_cons_of_neg (by simp [hown])] at hm
        exact hm.spared (spared_step hown hsafe hstep)
  cases hphase with
  | begins hrest _ => cases hrest
  | putAside hrest _ => simp [conversation] at hrest
  | waits done todo _ hrest _ => simp at hrest
  | ends _ book hbook h => exact ⟨book, hbook, h⟩

/-! ### Holders -/

/-- The books name the holders that they are filed under. -/
structure Filed (l : LedgerBooks) : Prop where
  books : Wingchun.Filed l.books
  tmpBooks : Wingchun.Filed l.tmpBooks

/-- What other handlers make of the books is filed. -/
def KeepsFiled : LedgerEvent → Prop
  | .others books => Wingchun.Filed books
  | _ => True

theorem owned_ensurePosition {uid : UInt32} {book : AccountBook} (h : book.Owned uid)
    (key : Api.InstrumentKey) : Book.KeepsOwned uid (book.ensurePosition key) := by
  unfold Book.ensurePosition
  refine Post.bind (Q := Book.Owned uid) ?_ fun book₁ h₁ => Book.owned_getPosition h₁
  exact post_ite (fun _ => Book.owned_getPosition h) fun _ => h

theorem owned_rebuild {uid : UInt32} {book : AccountBook} {tmpBook : Option AccountBook}
    (h : book.Owned uid) (htmp : ∀ b, tmpBook = some b → b.Owned uid) :
    Book.KeepsOwned uid (book.rebuild order triggerTime tmpBook) := by
  cases tmpBook with
  | none => exact h
  | some tmpBook =>
      refine post_foldlM h fun b row hrow hb => ?_
      have hholder : NamesHolder uid row.2 :=
        (htmp tmpBook rfl).positions row.1 row.2 ((mem_rows_both order).mp hrow)
      unfold Book.rebuildPosition
      refine post_ite (fun _ => ?_) fun _ => hb
      exact (Book.owned_getPosition hb).bind fun b₁ h₁ => h₁.setPosition hholder

theorem Filed.step (h : l.Filed) (hevent : KeepsFiled event)
    (hok : l.step app market order event = .ok l') : l'.Filed := by
  cases event with
  | keepPositions source =>
      cases hok
      unfold keepPositions
      split
      · exact h
      · next book hbook => exact ⟨h.books.drop source, h.tmpBooks.update (h.books source book hbook)⟩
  | resetBook source =>
      cases hok
      exact ⟨h.books.drop source, h.tmpBooks⟩
  | instrumentKey source key =>
      obtain ⟨books, hbooks, hok⟩ := exists_of_bind hok
      cases hok
      refine ⟨(filed_onBook h.books fun book hbook => ?_).of_ok hbooks, h.tmpBooks⟩
      exact owned_ensurePosition hbook key
  | rebuildPositions source triggerTime =>
      obtain ⟨books, hbooks, hok⟩ := exists_of_bind hok
      cases hok
      refine ⟨(filed_onBook h.books fun book hbook => ?_).of_ok hbooks, h.tmpBooks⟩
      exact (owned_rebuild hbook (h.tmpBooks source)).bind fun b hb => hb.update
  | update u =>
      obtain ⟨books, hbooks, hok⟩ := exists_of_bind hok
      cases hok
      exact ⟨(filed_updateBook h.books).of_ok (mapError_eq_ok.mp hbooks), h.tmpBooks⟩
  | others books =>
      cases hok
      exact ⟨hevent, h.tmpBooks⟩

theorem Filed.run (h : l.Filed) (hevents : ∀ event ∈ events, KeepsFiled event)
    (hrun : events.foldlM (LedgerBooks.step app market order) l = .ok l') : l'.Filed := by
  have hall : AlongM (LedgerBooks.step app market order) (fun _ => KeepsFiled) l events :=
    .of_forall (fun event hevent _ => hevents event hevent) l
  exact hall.foldlM (fun m event m' hm hsafe hok => hm.step hsafe hok) hrun h

end LedgerBooks

/-! ## What the strategy goes on with -/

/-- A position is shown as it was held. -/
structure Lot.ShownAs (lot : Lot) (shown : Shown) : Prop where
  volume : shown.volume = lot.volume
  yesterdayVolume : shown.yesterdayVolume = lot.yesterdayVolume
  frozenTotal : shown.frozenTotal = lot.frozenTotal
  frozenYesterday : shown.frozenYesterday = lot.frozenYesterday
  avgOpenPrice : shown.avgOpenPrice = lot.avgOpenPrice

/-- A strategy goes on with what was held under a key: it has named the instrument, and there is a
volume of its own. -/
structure Resumes (l : LedgerBooks) (strategyUid : UInt32) (keys : List Api.InstrumentKey)
    (key : PositionKey) (lot : Lot) : Prop where
  named : key.hash ∈ hashesOf keys
  kept : l.kept strategyUid key = some lot
  volume : 0 < lot.volume
  holder : lot.holderUid = strategyUid

section Restart

variable {app strategyApp : App} {market strategyMarket : Market} {order replicaOrder : Iteration (PositionAt ℚ)}
  {bookOrder : Iteration fun _ : UInt32 => AccountBook} {l l' : LedgerBooks} {ledger : Ledger}
  {strategyUid : UInt32} {keys : List Api.InstrumentKey} {triggerTime now : Int64}
  {events : List LedgerEvent} {keeper keeper' : Bookkeeper}

/-- What is sent of a book. -/
theorem sends_iff {book : AccountBook} {uid : UInt32} {key : PositionKey} :
    Ledger.Sends book uid key ↔ ∃ lot, book.lot key = some lot ∧ 0 < lot.volume ∧ lot.holderUid = uid := by
  constructor
  · rintro ⟨p, hp, hvolume, hholder⟩
    have hlot : p.lot = some ⟨p.holderUid, p.volume, p.yesterdayVolume, p.frozenTotal,
        p.frozenYesterday, p.avgOpenPrice, p.positionCostPrice⟩ :=
      if_neg fun h => hvolume.ne' h.1
    exact ⟨_, (Book.lot_of_lookup hp).trans hlot, hvolume, hholder⟩
  · rintro ⟨lot, hlot, hvolume, hholder⟩
    rw [Book.lot, Option.bind_eq_some_iff] at hlot
    obtain ⟨p, hp, hlot⟩ := hlot
    unfold Position.lot at hlot
    split at hlot
    · cases hlot
    · cases hlot
      exact ⟨p, hp, hvolume, hholder⟩

theorem shownAs_of_lot {book : AccountBook} {key : PositionKey} {lot : Lot}
    (h : book.lot key = some lot) : lot.ShownAs (book.shown key) := by
  rw [Book.lot, Option.bind_eq_some_iff] at h
  obtain ⟨p, hp, hlot⟩ := h
  unfold Position.lot at hlot
  split at hlot
  · cases hlot
  · cases hlot
    rw [Book.shown_of_lookup hp]
    exact ⟨rfl, rfl, rfl, rfl, rfl⟩

/-- What a strategy gets of its own book when it asks the ledger for its positions. -/
theorem handedOver_of_own {book : AccountBook} (hfiled : Filed ledger.books.lookup)
    (hledger : Ledger.Reserved ledger.locations) (happ : Ledger.Reserved strategyApp.locations)
    (hbook : ledger.books.lookup strategyUid = some book)
    (hcategory : ledger.locations strategyUid = some .STRATEGY)
    (hwriter : ledger.hasWriter strategyUid = true)
    (hknown : Bookkeeper.hasLocation strategyApp strategyUid = true)
    (hguard : keeper.positionsGuarded = false)
    (hanswer : (ledger.writeStrategyData order bookOrder strategyUid).foldlM
      (Bookkeeper.receive strategyApp strategyMarket replicaOrder now) keeper = .ok keeper') :
    ∃ before held, getBook strategyApp keeper.books strategyUid = .ok before ∧
      Ledger.HandedOver strategyUid book before held ∧
      getBook strategyApp keeper'.books strategyUid = .ok (held.update strategyMarket now) := by
  have hholder := (hfiled strategyUid book hbook).asset
  have hcovers : ledger.Covers strategyUid strategyUid book := by
    refine ⟨hbook, hwriter, .STRATEGY, hcategory, ?_⟩
    simp [Ledger.concerns, hholder]
  have hpublic : strategyUid ≠ PUBLIC := by
    rintro rfl
    simp [hledger.1] at hcategory
  have hnotSync : strategyUid ≠ SYNC := by
    rintro rfl
    simp [hledger.2] at hcategory
  -- only a frame about a holder that nobody knows goes where synchronization does
  have hsync : ∀ frame ∈ ledger.writeStrategyData order bookOrder strategyUid, frame.dest = SYNC →
      Bookkeeper.hasLocation strategyApp frame.data.holderUid = false := by
    intro frame hframe hdest
    rcases Ledger.dest_of_mem hframe with h | h
    · exact absurd (h.symm.trans hdest) hnotSync
    · rw [← h, hdest, Bookkeeper.hasLocation, happ.2]
      rfl
  obtain ⟨before, hbefore⟩ : ∃ before, getBook strategyApp keeper.books strategyUid = .ok before := by
    obtain ⟨category, hcategory⟩ := Option.isSome_iff_exists.mp hknown
    unfold getBook
    split
    · exact ⟨_, rfl⟩
    · rw [makeBook, hcategory]
      exact ⟨_, rfl⟩
  obtain ⟨after, hafter, hkeeper⟩ :=
    Bookkeeper.books_of_receiveAll hguard hsync hknown hanswer hbefore
  rw [Ledger.filter_writeStrategyData hfiled hcovers hpublic, if_pos rfl, List.foldlM_append] at hafter
  obtain ⟨held, hheld, hend⟩ := exists_of_bind hafter
  have hafter' : after = held.update strategyMarket now := (Except.ok.inj hend).symm
  exact ⟨before, held, hbefore, Ledger.handedOver_of_foldlM hheld, hafter' ▸ hkeeper⟩

/-- A strategy that starts again goes on with what the ledger held for it in the instruments that
it names, whatever the ledger does for others meanwhile.  Under other keys it has what it had
itself. -/
theorem restarted
    (hasked : events.filter (·.IsOf strategyUid) = conversation strategyUid keys triggerTime)
    (hapart : AlongM (LedgerBooks.step app market order) (LedgerBooks.Apart strategyUid) l events)
    (hfiled : l.Filed) (hevents : ∀ event ∈ events, LedgerBooks.KeepsFiled event)
    (hrun : events.foldlM (LedgerBooks.step app market order) l = .ok l')
    (hbooks : ledger.books.lookup = l'.books) (hledger : Ledger.Reserved ledger.locations)
    (happ : Ledger.Reserved strategyApp.locations)
    (hcategory : ledger.locations strategyUid = some .STRATEGY)
    (hwriter : ledger.hasWriter strategyUid = true)
    (hknown : Bookkeeper.hasLocation strategyApp strategyUid = true)
    (hguard : keeper.positionsGuarded = false)
    (hanswer : (ledger.writeStrategyData order bookOrder strategyUid).foldlM
      (Bookkeeper.receive strategyApp strategyMarket replicaOrder now) keeper = .ok keeper') :
    ∃ before after, getBook strategyApp keeper.books strategyUid = .ok before ∧
      getBook strategyApp keeper'.books strategyUid = .ok after ∧ ∀ key,
        (∀ lot, Resumes l strategyUid keys key lot → lot.ShownAs (after.shown key)) ∧
        ((∀ lot, ¬ Resumes l strategyUid keys key lot) → after.shown key = before.shown key) := by
  obtain ⟨book, hbook, hrebuilt⟩ := LedgerBooks.rebuilt_of_run hasked hapart hrun
  have hfiled' : Filed ledger.books.lookup := by
    rw [hbooks]
    exact (hfiled.run hevents hrun).books
  obtain ⟨before, held, hbefore, hover, hafter⟩ := handedOver_of_own hfiled' hledger happ
    (hbooks ▸ hbook) hcategory hwriter hknown hguard hanswer
  refine ⟨before, _, hbefore, hafter, fun key => ⟨fun lot h => ?_, fun h => ?_⟩⟩
  · have hlot : book.lot key = some lot := by rw [hrebuilt.lot, if_pos h.named, h.kept]
    have hsends := sends_iff.mpr ⟨lot, hlot, h.volume, h.holder⟩
    have hshown : (held.update strategyMarket now).shown key =
        Book.mergeShown (before.shown key) (book.shown key) := hover.sent key hsends
    obtain ⟨hvolume, hyesterday, htotal, hfrozen, hprice⟩ := shownAs_of_lot hlot
    rw [hshown]
    exact ⟨hvolume, hyesterday, htotal, hfrozen, hprice⟩
  · refine hover.kept key fun hsends => ?_
    obtain ⟨lot, hlot, hvolume, hholder⟩ := sends_iff.mp hsends
    rw [hrebuilt.lot] at hlot
    split at hlot
    · next hnamed => exact h lot ⟨hnamed, hlot, hvolume, hholder⟩
    · cases hlot

end Restart

/-! ### Two instruments -/

/-- A strategy 7 that holds 5 contracts of one instrument and 3 of another. -/
def exampleStrategyBook : AccountBook where
  state :=
    { asset := emptyAsset 7 .Strategy "20260929"
      assetMargin := emptyAssetMargin 7 .Strategy "20260929"
      positions := collect
        [⟨_, { (SyncChannel.exampleRow "rb2410" 5).2 with holderUid := 7 }⟩,
          ⟨_, { (SyncChannel.exampleRow "rb2501" 3).2 with holderUid := 7 }⟩]
      orderInputs := fun _ => none }
  orders := fun _ => none
  trades := fun _ => none

def exampleLedgerBooks : LedgerBooks where
  books uid := if uid = 7 then some exampleStrategyBook else none
  tmpBooks _ := none

/-- The strategy names one of the instruments; an order of the account 10 comes meanwhile. -/
def exampleConversation : List LedgerEvent :=
  [.keepPositions 7,
    .update ⟨4, 10, 0, .orderInput ⟨1, 0, "rb2410", "SHFE", .Future, 100, 100, 2, .Buy, .Limit,
      ⟨.Open, .Speculation, 0, 0, 0⟩⟩⟩,
    .resetBook 7, .instrumentKey 7 ⟨hashInstrument "SHFE" "rb2410", "rb2410", "SHFE", .Future⟩,
    .rebuildPositions 7 5]

def exampleLedgerApp : App := ⟨Ledger.exampleLocations, "20260929"⟩

/-- The books of the uids in a list. -/
def tableOf (books : Books) : List UInt32 → BookTable
  | [] => ∅
  | uid :: uids => match books uid with
    | none => tableOf books uids
    | some book => (tableOf books uids).insert uid book

theorem lookup_tableOf {books : Books} {uids : List UInt32} (h : ∀ uid ∉ uids, books uid = none) :
    (tableOf books uids).lookup = books := by
  have hlookup : ∀ uid, (tableOf books uids).lookup uid = if uid ∈ uids then books uid else none := by
    intro uid
    clear h
    induction uids with
    | nil => rfl
    | cons other uids ih =>
        unfold tableOf
        by_cases heq : uid = other
        · subst heq
          cases hbook : books uid with
          | none => simp [ih, hbook]
          | some book => simp
        · cases books other with
          | none => simp [ih, heq]
          | some book => simp [Finmap.lookup_insert_of_ne _ heq, ih, heq]
  funext uid
  rw [hlookup]
  split
  · rfl
  · next huid => exact (h uid huid).symm

end Kungfu.Wingchun
