import Kungfu.Wingchun.UpdateBook

/-!
# When an update completes

An update of a book throws if there is no direction, if the position is not there and cannot
be made, or if a pair of crypto currencies is not known.  Otherwise it completes, whatever
the accounting method.
-/

namespace Kungfu.Wingchun

open Longfist

namespace Book

variable {market : Market} {book book' : AccountBook} {key : PositionKey} {direction : Direction}
  {exchangeId instrumentId : String} {data : TradingData} {method : Method} {updateTime : Int64}

/-! ## Positions that are found -/

/-- A position is there, or can be made. -/
def Finds (book : AccountBook) (direction : Direction) (exchangeId instrumentId : String) : Prop :=
  book.Has (positionKey direction exchangeId instrumentId) ∨
    (getInstrumentType exchangeId instrumentId).isOk

theorem has_iff_exists : book.Has key ↔ ∃ p, book.state.positions.lookup key = some p :=
  Option.isSome_iff_exists

theorem has_setPosition_self (p : Position key) : (book.setPosition p).Has key := by simp [Has]

theorem has_setPosition (p : Position key) {k : PositionKey} :
    (book.setPosition p).Has k ↔ k = key ∨ book.Has k := by
  by_cases h : k = key
  · subst h
    simp [Has]
  · simp [Has, lookup_setPosition_of_ne p h, h]

/-- A position that is found is given out. -/
theorem exists_getPosition (h : book.Finds direction exchangeId instrumentId) :
    ∃ p, book.Gives direction exchangeId instrumentId p ∧
      book.getPosition direction exchangeId instrumentId = .ok (book.setPosition p) := by
  have hok : ∃ book', book.getPosition direction exchangeId instrumentId = .ok book' := by
    by_cases hhas : book.Has (positionKey direction exchangeId instrumentId)
    · exact ⟨book, if_pos hhas⟩
    · obtain ⟨type, htype⟩ := Outcome.exists_of_isOk (h.resolve_left hhas)
      refine ⟨book.setPosition (book.newPosition direction exchangeId instrumentId type), ?_⟩
      unfold getPosition
      rw [if_neg (by exact hhas), htype]
  obtain ⟨book', hbook'⟩ := hok
  obtain ⟨p, hp, rfl⟩ := gives_of_getPosition hbook'
  exact ⟨p, hp, hbook'⟩

/-- What is thrown for a position that is not found leaves an entry behind. -/
theorem exists_error_getPosition (h : ¬ book.Finds direction exchangeId instrumentId) :
    ∃ fault, book.getPosition direction exchangeId instrumentId =
      .error ⟨fault, book.setPosition (book.emptyPosition direction exchangeId instrumentId)⟩ := by
  obtain ⟨hhas, htype⟩ := not_or.mp h
  cases hfault : getInstrumentType exchangeId instrumentId with
  | ok type => exact absurd (by rw [hfault]; rfl) htype
  | error fault =>
      refine ⟨fault, ?_⟩
      unfold getPosition
      rw [if_neg (by exact hhas), hfault]

/-- A position that is there is changed without fail. -/
theorem onPositionFor_of_lookup
    (hdirection : getDirection data.instrumentType data.side data.offset = .ok direction)
    {p : Position (positionKey direction data.exchangeId data.instrumentId)}
    (hp : book.state.positions.lookup _ = some p) (f : ∀ {key : PositionKey}, Slice key → Slice key) :
    book.onPositionFor data f =
      .ok (book.setSlice (f ⟨book.state.asset, book.state.assetMargin, p⟩)) := by
  have hset : (book.setPosition p).onPositionFor data f = _ :=
    onPositionFor_setPosition hdirection p f
  rwa [setPosition_of_lookup hp] at hset

/-- A computation completes and keeps the entries of a book. -/
def Completes (book : AccountBook) (x : Throws AccountBook) : Prop :=
  ∃ book', x = .ok book' ∧ Grows book book'

variable (data) in
theorem completes_onPositionFor
    (hdirection : getDirection data.instrumentType data.side data.offset = .ok direction)
    (h : book.Has (positionKey direction data.exchangeId data.instrumentId))
    (f : ∀ {key : PositionKey}, Slice key → Slice key) :
    book.Completes (book.onPositionFor data f) := by
  obtain ⟨p, hp⟩ := has_iff_exists.mp h
  exact ⟨_, onPositionFor_of_lookup hdirection hp f, grows_setSlice _⟩

theorem Completes.of_state_eq {x : Throws AccountBook} (hstate : book'.state = book.state)
    (h : book'.Completes x) : book.Completes x := by
  obtain ⟨book'', hx, hgrows⟩ := h
  exact ⟨book'', hx, (Grows.of_state_eq hstate).trans hgrows⟩

/-! ## Accounting of stocks, bonds, repos and futures -/

/-- Only on one exchange is there no type for some instruments. -/
theorem isOk_getInstrumentType {instrumentId : String} (h : exchangeId ≠ "HK") :
    (getInstrumentType exchangeId instrumentId).isOk := by
  unfold getInstrumentType
  rw [if_neg h]
  split_ifs <;> rfl

theorem finds_of_merge {instrumentId : String}
    (h : FutureAccountingMethod.ableLongShortPositionMerge exchangeId = true) :
    book.Finds direction exchangeId instrumentId := by
  apply Or.inr (isOk_getInstrumentType ?_)
  rintro rfl
  revert h
  decide

section Methods

open FutureAccountingMethod

variable (hdirection : getDirection data.instrumentType data.side data.offset = .ok direction)
  (h : book.Has (positionKey direction data.exchangeId data.instrumentId))

include hdirection h

/-- What an offset is decided from is there or can be made. -/
theorem exists_getOffset : ∃ offset book', getOffset book data = .ok (offset, book') ∧
    Grows book book' ∧ (ableLongShortPositionMerge data.exchangeId →
      book'.Has (positionKey (opposite direction) data.exchangeId data.instrumentId)) ∧
    ∃ decided, getDirection data.instrumentType data.side offset = .ok decided ∧
      book'.Finds decided data.exchangeId data.instrumentId := by
  unfold getOffset
  split
  · rename_i hmerge
    have hopposite : book.Finds (opposite direction) data.exchangeId data.instrumentId :=
      finds_of_merge hmerge
    obtain ⟨p, -, hp⟩ := exists_getPosition hopposite
    have hown : (book.setPosition p).Finds direction data.exchangeId data.instrumentId :=
      finds_of_merge hmerge
    obtain ⟨q, -, hq⟩ := exists_getPosition hown
    simp only [hdirection, orThrow, Except.mapError, Outcome.ok_bind, hp, hq]
    obtain ⟨decided, hdecided⟩ := exists_getDirection_offset
      hdirection
    exact ⟨_, _, rfl, (grows_setPosition p).trans (grows_setPosition q),
      fun _ => grows_setPosition q (has_setPosition_self p), decided, hdecided,
      finds_of_merge hmerge⟩
  · rename_i hmerge
    exact ⟨_, _, rfl, Grows.refl book, fun h => absurd h hmerge, direction, hdirection, .inl h⟩

/-- A change of a position by what is decided completes, and has made what it was decided from. -/
theorem exists_onOffsetPosition (f : Offset → ∀ {key : PositionKey}, Slice key → Slice key) :
    ∃ book', onOffsetPosition book data f = .ok book' ∧ Grows book book' ∧
      (ableLongShortPositionMerge data.exchangeId →
        book'.Has (positionKey (opposite direction) data.exchangeId data.instrumentId)) := by
  obtain ⟨offset, book', hoffset, hgrows, hopposite, decided, hdecided, hfinds⟩ :=
    exists_getOffset hdirection h
  obtain ⟨p, -, hp⟩ := exists_getPosition hfinds
  have hlater : Grows book'
      ((book'.setPosition p).onSlice decided data.exchangeId data.instrumentId (f offset)) :=
    (grows_setPosition p).trans (grows_setSlice _)
  refine ⟨_, ?_, hgrows.trans hlater, fun hmerge => hlater (hopposite hmerge)⟩
  simp only [onOffsetPosition, hoffset, Outcome.ok_bind, hdecided, orThrow, Except.mapError, hp]
  rfl

theorem completes_onOffsetPosition (f : Offset → ∀ {key : PositionKey}, Slice key → Slice key) :
    book.Completes (onOffsetPosition book data f) := by
  obtain ⟨book', hbook', hgrows, -⟩ := exists_onOffsetPosition hdirection h f
  exact ⟨book', hbook', hgrows⟩

end Methods

section Methods

open FutureAccountingMethod

/-- What is done first to the orders and the trades does not touch the positions. -/
theorem Completes.emplaceOrder {order : Order Details} {x : Throws AccountBook}
    (h : (book.emplaceOrder order).Completes x) : book.Completes x :=
  .of_state_eq (state_emplaceOrder book order) h

theorem has_emplaceOrder {order : Order Details} (h : book.Has key) :
    (book.emplaceOrder order).Has key := by
  rw [Has, state_emplaceOrder]
  exact h

theorem completes_applyOrder {order : Order Details} (accounting : StockAccountingMethod)
    (hdirection : getDirection order.instrumentType order.side order.details.offset = .ok direction)
    (h : book.Has (positionKey direction order.exchangeId order.instrumentId)) :
    book.Completes (StockAccountingMethod.applyOrder accounting market book order) := by
  apply Completes.emplaceOrder
  unfold StockAccountingMethod.applyOrder
  split
  · exact completes_onPositionFor (.order order) hdirection (has_emplaceOrder h) _
  · exact ⟨_, rfl, Grows.refl _⟩

theorem completes_applyTrade {trade : Trade Details} (accounting : StockAccountingMethod)
    (hdirection : getDirection trade.instrumentType trade.side trade.details.offset = .ok direction)
    (h : book.Has (positionKey direction trade.exchangeId trade.instrumentId)) :
    book.Completes (StockAccountingMethod.applyTrade accounting market book trade) := by
  have hposition := fun f : ∀ {key : PositionKey}, Slice key → Slice key =>
    completes_onPositionFor (.trade trade) hdirection h f
  unfold StockAccountingMethod.applyTrade
  cases trade.side <;> first
    | exact hposition _
    | exact ⟨book, rfl, Grows.refl book⟩

theorem completes_bond {input : OrderInput Details}
    (hdirection : getDirection input.instrumentType input.side input.details.offset = .ok direction)
    (h : book.Has (positionKey direction input.exchangeId input.instrumentId)) :
    book.Completes (BondAccountingMethod.applyOrderInput market book input) := by
  unfold BondAccountingMethod.applyOrderInput
  split
  · exact completes_onPositionFor (.orderInput input) hdirection h _
  · obtain ⟨book₁, hid, hgrows⟩ :=
      completes_onPositionFor (.orderInput input) hdirection h id
    obtain ⟨book₂, hinput, hgrows'⟩ :=
      completes_onPositionFor (.orderInput input) hdirection (hgrows h)
        (StockAccountingMethod.applyInput market input)
    rw [hid, Outcome.ok_bind]
    exact ⟨book₂, hinput, hgrows.trans hgrows'⟩

/-- On a position that is there, all accounting methods but the one of crypto currencies
complete. -/
theorem completes_apply (hcrypto : method ≠ .crypto)
    (hdirection : getDirection data.instrumentType data.side data.offset = .ok direction)
    (h : book.Has (positionKey direction data.exchangeId data.instrumentId)) :
    book.Completes (method.apply market book data) := by
  cases method with
  | crypto => exact absurd rfl hcrypto
  | stock =>
      cases data with
      | orderInput input =>
          exact completes_onPositionFor _ hdirection h (StockAccountingMethod.applyInput market input)
      | order order => exact completes_applyOrder _ hdirection h
      | trade trade => exact completes_applyTrade _ hdirection h
  | bond =>
      cases data with
      | orderInput input => exact completes_bond hdirection h
      | order order => exact completes_applyOrder _ hdirection h
      | trade trade => exact completes_applyTrade _ hdirection h
  | repo =>
      cases data with
      | orderInput input =>
          exact completes_onPositionFor _ hdirection h (RepoAccountingMethod.applyInput market input)
      | order order =>
          apply Completes.emplaceOrder
          simp only [Method.apply, RepoAccountingMethod.applyOrder]
          exact completes_onPositionFor _ hdirection (has_emplaceOrder h) _
      | trade trade =>
          simp only [Method.apply, RepoAccountingMethod.applyTrade]
          split
          · exact completes_onPositionFor _ hdirection h _
          · exact completes_applyTrade _ hdirection h
  | future =>
      cases data with
      | orderInput input =>
          exact completes_onOffsetPosition hdirection h fun offset =>
            FutureAccountingMethod.applyInput market input offset
      | order order =>
          apply Completes.emplaceOrder
          simp only [Method.apply, FutureAccountingMethod.applyOrder]
          split
          · exact completes_onOffsetPosition hdirection (has_emplaceOrder h) _
          · exact ⟨_, rfl, Grows.refl _⟩
      | trade trade =>
          have hstate : (book.emplaceTrade trade).state = book.state := by
            unfold emplaceTrade
            split <;> rfl
          apply Completes.of_state_eq hstate
          simp only [Method.apply, FutureAccountingMethod.applyTrade]
          refine completes_onOffsetPosition hdirection ?_ _
          rw [Has, hstate]
          exact h

end Methods

/-! ## Accounting of crypto currencies -/

/-- Long positions are there or can be made one after another, when some have been made. -/
def FindsEach (book : AccountBook) (exchangeId : String) : List PositionKey → List String → Prop
  | _, [] => True
  | made, instrumentId :: rest =>
      (positionKey .Long exchangeId instrumentId ∈ made ∨ book.Finds .Long exchangeId instrumentId) ∧
        FindsEach book exchangeId (positionKey .Long exchangeId instrumentId :: made) rest

/-- A computation throws and leaves an entry behind that was not there. -/
def LeavesEntry (book : AccountBook) (x : Throws AccountBook) : Prop :=
  ∃ fault book', x = .error ⟨fault, book'⟩ ∧ ∃ key, book'.Has key ∧ ¬ book.Has key

theorem LeavesEntry.of_grows {x : Throws AccountBook} (hgrows : Grows book book')
    (h : book'.LeavesEntry x) : book.LeavesEntry x := by
  obtain ⟨fault, book'', hx, key, hhas, hnot⟩ := h
  exact ⟨fault, book'', hx, key, hhas, fun hkey => hnot (hgrows hkey)⟩

theorem leavesEntry_getPosition (h : ¬ book.Finds direction exchangeId instrumentId) :
    book.LeavesEntry (book.getPosition direction exchangeId instrumentId) := by
  obtain ⟨fault, herror⟩ := exists_error_getPosition h
  exact ⟨fault, _, herror, _, has_setPosition_self _, fun hhas => h (.inl hhas)⟩

/-- Positions are made one after another. -/
theorem foldlM_getPosition (book : AccountBook) {made : List PositionKey}
    {instruments : List String} {b : AccountBook}
    (hmade : ∀ key, b.Has key ↔ key ∈ made ∨ book.Has key) :
    (book.FindsEach exchangeId made instruments →
      b.Completes (instruments.foldlM (fun b i => getPosition b .Long exchangeId i) b)) ∧
    (¬ book.FindsEach exchangeId made instruments →
      b.LeavesEntry (instruments.foldlM (fun b i => getPosition b .Long exchangeId i) b)) := by
  induction instruments generalizing made b with
  | nil => exact ⟨fun _ => ⟨b, rfl, Grows.refl b⟩, fun h => absurd trivial h⟩
  | cons i rest ih =>
      have hfinds : b.Finds .Long exchangeId i ↔
          positionKey .Long exchangeId i ∈ made ∨ book.Finds .Long exchangeId i := by
        rw [Finds, hmade, or_assoc, ← Finds]
      by_cases hi : b.Finds .Long exchangeId i
      · obtain ⟨p, -, hp⟩ := exists_getPosition hi
        have hnext : ∀ key, (b.setPosition p).Has key ↔
            key ∈ positionKey .Long exchangeId i :: made ∨ book.Has key := by
          intro key
          rw [has_setPosition, hmade, List.mem_cons, or_assoc]
        obtain ⟨hok, herror⟩ := ih hnext
        rw [List.foldlM_cons, hp, Outcome.ok_bind]
        constructor
        · intro h
          obtain ⟨b', hb', hgrows⟩ := hok h.2
          exact ⟨b', hb', (grows_setPosition p).trans hgrows⟩
        · intro h
          have hrest := herror fun hrest => h ⟨hfinds.mp hi, hrest⟩
          exact hrest.of_grows (grows_setPosition p)
      · refine ⟨fun h => absurd (hfinds.mpr h.1) hi, fun _ => ?_⟩
        obtain ⟨fault, b', herror, key, hhas, hnot⟩ := leavesEntry_getPosition hi
        rw [List.foldlM_cons, herror]
        exact ⟨fault, b', rfl, key, hhas, hnot⟩

open CryptoAccountingMethod in
/-- What accounting of crypto currencies needs. -/
def FindsPair (market : Market) (book : AccountBook) (own : PositionKey) (trade : Trade Details) :
    Prop :=
  ∃ pair, getInstrument market trade = .ok pair ∧ book.FindsEach trade.exchangeId [own]
    [pair.instrumentA, pair.instrumentB, pair.instrumentCommission]

open CryptoAccountingMethod in
theorem applyTrade_eq_bind {trade : Trade Details} {pair : Pair}
    (h : getInstrument market trade = .ok pair) :
    CryptoAccountingMethod.applyTrade market book trade =
      ([pair.instrumentA, pair.instrumentB, pair.instrumentCommission].foldlM
        (fun b i => getPosition b .Long trade.exchangeId i) book) >>=
        fun book' => .ok (moveVolumes trade pair book') := by
  simp only [CryptoAccountingMethod.applyTrade, h, orThrow, Except.mapError, Outcome.ok_bind,
    List.foldlM_cons, List.foldlM_nil, bind_assoc, pure_bind]
  rfl

theorem grows_moveVolumes (trade : Trade Details) (pair : CryptoAccountingMethod.Pair) :
    Grows book (CryptoAccountingMethod.moveVolumes trade pair book) :=
  (grows_setSlice _).trans ((grows_setSlice _).trans (grows_setSlice _))

/-- A trade in crypto currencies after its own position was found. -/
theorem crypto_cases {trade : Trade Details} {own : PositionKey} (p : Position own) :
    (book.FindsPair market own trade →
      (book.setPosition p).Completes
        (CryptoAccountingMethod.applyTrade market (book.setPosition p) trade)) ∧
    (¬ book.FindsPair market own trade →
      (∃ fault, CryptoAccountingMethod.getInstrument market trade = .error fault ∧
        CryptoAccountingMethod.applyTrade market (book.setPosition p) trade =
          .error ⟨fault, book.setPosition p⟩) ∨
      (CryptoAccountingMethod.getInstrument market trade).isOk = true ∧
        (book.setPosition p).LeavesEntry
          (CryptoAccountingMethod.applyTrade market (book.setPosition p) trade)) := by
  cases hpair : CryptoAccountingMethod.getInstrument market trade with
  | error fault =>
      constructor
      · rintro ⟨pair, hok, -⟩
        rw [hpair] at hok
        cases hok
      · intro _
        refine .inl ⟨fault, rfl, ?_⟩
        simp only [CryptoAccountingMethod.applyTrade, hpair, orThrow, Except.mapError]
        rfl
  | ok pair =>
      obtain ⟨hok, herror⟩ := foldlM_getPosition book (b := book.setPosition p)
        (fun key => by rw [has_setPosition, List.mem_singleton])
      rw [applyTrade_eq_bind hpair]
      constructor
      · rintro ⟨pair', hok', hfinds⟩
        rw [hpair] at hok'
        cases hok'
        obtain ⟨b', hb', hgrows⟩ := hok hfinds
        rw [hb', Outcome.ok_bind]
        exact ⟨_, rfl, hgrows.trans (grows_moveVolumes trade pair)⟩
      · intro hnot
        refine .inr ⟨rfl, ?_⟩
        obtain ⟨fault, b', hb', hleft⟩ := herror fun hfinds => hnot ⟨pair, hpair, hfinds⟩
        rw [hb']
        exact ⟨fault, b', rfl, hleft⟩

/-! ## Updates of a book -/

/-- What an update needs: a direction, a position, and for crypto currencies their pair. -/
def Ready (market : Market) (book : AccountBook) (method : Method) (data : TradingData) : Prop :=
  ∃ direction, getDirection data.instrumentType data.side data.offset = .ok direction ∧
    book.Finds direction data.exchangeId data.instrumentId ∧
    ∀ trade, method = .crypto → data = .trade trade →
      book.FindsPair market (positionKey direction data.exchangeId data.instrumentId) trade

/-- What an update may lack without leaving anything behind. -/
def Harmless (market : Market) (book : AccountBook) (method : Method) (data : TradingData) : Prop :=
  ∀ direction, getDirection data.instrumentType data.side data.offset = .ok direction →
    book.Has (positionKey direction data.exchangeId data.instrumentId) ∧
    ∃ trade, method = .crypto ∧ data = .trade trade ∧
      CryptoAccountingMethod.getInstrument market trade = .error .outOfRange

theorem FindsEach.mono (hgrows : Grows book book') {made : List PositionKey}
    {instruments : List String} (h : book.FindsEach exchangeId made instruments) :
    book'.FindsEach exchangeId made instruments := by
  induction instruments generalizing made with
  | nil => trivial
  | cons i rest ih => exact ⟨h.1.imp_right fun hi => hi.imp_left (hgrows ·), ih h.2⟩

/-- What was ready stays ready. -/
theorem Ready.mono (hgrows : Grows book book') (h : book.Ready market method data) :
    book'.Ready market method data := by
  obtain ⟨direction, hdirection, hfinds, hpair⟩ := h
  refine ⟨direction, hdirection, hfinds.imp_left (hgrows ·), ?_⟩
  intro trade hmethod htrade
  obtain ⟨pair, hinstrument, heach⟩ := hpair trade hmethod htrade
  exact ⟨pair, hinstrument, heach.mono hgrows⟩

theorem grows_finish : Grows book (book.finish market updateTime direction data) := by
  intro k hk
  rw [Has, positions_finish]
  exact grows_setSlice _ hk

theorem updateTime_finish :
    (book.finish market updateTime direction data).state.asset.updateTime = updateTime := rfl

/-- An update that is ready completes. -/
theorem exists_applyAndUpdate (h : book.Ready market method data) :
    ∃ book', book.applyAndUpdate market method updateTime data = .ok book' ∧ Grows book book' ∧
      book'.state.asset.updateTime = updateTime := by
  obtain ⟨direction, hdirection, hfinds, hpair⟩ := h
  obtain ⟨p, -, hp⟩ := exists_getPosition hfinds
  have happly : (book.setPosition p).Completes (method.apply market (book.setPosition p) data) := by
    by_cases hcrypto : method = .crypto
    · subst hcrypto
      cases data with
      | trade trade => exact (crypto_cases p).1 (hpair trade rfl rfl)
      | _ => exact ⟨_, rfl, Grows.refl _⟩
    · exact completes_apply hcrypto hdirection (has_setPosition_self p)
  obtain ⟨book₁, hbook₁, hgrows⟩ := happly
  refine ⟨book₁.finish market updateTime direction data, ?_,
    (grows_setPosition p).trans (hgrows.trans grows_finish), updateTime_finish⟩
  simp only [applyAndUpdate, hdirection, orThrow, Except.mapError, Outcome.ok_bind, hp, hbook₁]
  rfl

/-- An update that is not ready throws and leaves an entry behind, or overruns an array, unless that is
harmless. -/
theorem exists_error_applyAndUpdate (updateTime : Int64) (h : ¬ book.Ready market method data) :
    ∃ fault book', book.applyAndUpdate market method updateTime data = .error ⟨fault, book'⟩ ∧
      (book.Harmless market method data → fault ≠ .overrun ∧ book' = book) ∧
      (¬ book.Harmless market method data →
        fault = .overrun ∨ ∃ key, book'.Has key ∧ ¬ book.Has key) := by
  cases hdirection : getDirection data.instrumentType data.side data.offset with
  | error fault =>
      have hharmless : book.Harmless market method data := by
        intro direction hok
        rw [hdirection] at hok
        cases hok
      refine ⟨fault, book, ?_, fun _ => ⟨getDirection_ne_overrun hdirection, rfl⟩,
        fun hnot => absurd hharmless hnot⟩
      simp only [applyAndUpdate, hdirection, orThrow, Except.mapError]
      rfl
  | ok direction =>
      by_cases hfinds : book.Finds direction data.exchangeId data.instrumentId
      · -- the position is found, so it is the pair that is missing
        have hnot : ∃ trade, method = .crypto ∧ data = .trade trade ∧
            ¬ book.FindsPair market (positionKey direction data.exchangeId data.instrumentId)
              trade := by
          by_contra hall
          apply h ⟨direction, hdirection, hfinds, ?_⟩
          intro trade hmethod htrade
          by_contra hpair
          exact hall ⟨trade, hmethod, htrade, hpair⟩
        obtain ⟨trade, rfl, rfl, hpair⟩ := hnot
        obtain ⟨p, hgives, hp⟩ := exists_getPosition hfinds
        have hrun : ∀ fault book', CryptoAccountingMethod.applyTrade market (book.setPosition p) trade =
            .error ⟨fault, book'⟩ → book.applyAndUpdate market .crypto updateTime (.trade trade) =
              .error ⟨fault, book'⟩ := by
          intro fault book' herror
          simp only [applyAndUpdate, hdirection, orThrow, Except.mapError, Outcome.ok_bind, hp,
            Method.apply, herror]
          rfl
        rcases (crypto_cases p).2 hpair with ⟨fault, hunknown, herror⟩ |
          ⟨hknown, fault, book', herror, key, hhas, hnothas⟩
        · refine ⟨fault, _, hrun fault _ herror, ?_, ?_⟩
          · intro hharmless
            obtain ⟨hhas, trade', -, htrade, hunknown'⟩ := hharmless direction hdirection
            cases htrade
            rw [hunknown] at hunknown'
            cases hunknown'
            refine ⟨by simp, ?_⟩
            rcases hgives with hlookup | ⟨hnone, -⟩
            · exact setPosition_of_lookup hlookup
            · rw [Has, hnone] at hhas
              cases hhas
          · intro hnot
            rcases CryptoAccountingMethod.getInstrument_eq_error hunknown with rfl | rfl
            · refine .inr ⟨_, has_setPosition_self p, fun hhas => hnot ?_⟩
              intro direction' hdirection'
              rw [hdirection] at hdirection'
              cases hdirection'
              exact ⟨hhas, trade, rfl, rfl, hunknown⟩
            · exact .inl rfl
        · refine ⟨fault, book', hrun fault book' herror, ?_, ?_⟩
          · intro hharmless
            obtain ⟨-, trade', -, htrade, hunknown⟩ := hharmless direction hdirection
            cases htrade
            rw [hunknown] at hknown
            cases hknown
          · intro _
            exact .inr ⟨key, hhas, fun hkey => hnothas (grows_setPosition p hkey)⟩
      · obtain ⟨fault, book', herror, key, hhas, hnot⟩ := leavesEntry_getPosition hfinds
        refine ⟨fault, book', ?_, ?_, fun _ => .inr ⟨key, hhas, hnot⟩⟩
        · simp only [applyAndUpdate, hdirection, orThrow, Except.mapError, Outcome.ok_bind, herror]
          rfl
        · intro hharmless
          exact absurd (Or.inl (hharmless direction hdirection).1) hfinds

theorem grows_applyAndUpdate
    (h : book.applyAndUpdate market method updateTime data = .ok book') : Grows book book' := by
  by_cases hready : book.Ready market method data
  · obtain ⟨book'', hok, hgrows, -⟩ := exists_applyAndUpdate hready
    rw [h] at hok
    cases hok
    exact hgrows
  · obtain ⟨fault, book'', herror, -⟩ :=
      exists_error_applyAndUpdate updateTime hready
    rw [h] at herror
    cases herror

end Book

end Kungfu.Wingchun
