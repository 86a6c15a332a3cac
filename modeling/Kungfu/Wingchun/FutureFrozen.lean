import Kungfu.Logic.Binary64
import Kungfu.Wingchun.Holdings
import Kungfu.Wingchun.Outstanding

/-!
# What a futures account freezes

An order to open freezes margin and an order to close freezes volume of a position, each for
the volume that it still has.  This is so at every point of a run, if for every message of an
order the same is decided as for its input: whether it opens or closes.
-/

namespace Kungfu.Wingchun

open Logic (Binary64)
open Longfist TradingData FutureAccountingMethod

/-! ## Volumes -/

namespace Volumes

variable {m : TradingData} {offset : Offset} {v : Volumes}

/-- Messages that open freeze no volume. -/
theorem apply_open (v : Volumes) : ∃ volume, apply .Open m v = { v with volume := volume } := by
  cases m with
  | orderInput i => exact ⟨v.volume, rfl⟩
  | order o =>
      refine ⟨v.volume, ?_⟩
      simp only [apply]
      split <;> rfl
  | trade t => exact ⟨_, rfl⟩

/-- A message that closes changes the frozen volume by what it adds to its order, as long as
the volume frozen for all orders stays positive. -/
theorem frozenTotal_apply (hclose : offset ≠ .Open) (h : 0 ≤ v.frozenTotal + m.outstanding) :
    (apply offset m v).frozenTotal = v.frozenTotal + m.outstanding := by
  cases m with
  | orderInput i => cases offset <;> first | exact absurd rfl hclose | rfl
  | order o =>
      by_cases hfinal : isFinalStatus o.status
      · simp only [outstanding, hfinal, if_true] at h ⊢
        cases offset with
        | Open => exact absurd rfl hclose
        | CloseToday =>
            simp only [apply, hfinal, if_true, unfreezeToday]
            rw [if_pos (by omega)]
            rfl
        | _ =>
            simp only [apply, hfinal, if_true, unfreeze]
            rw [max_eq_left (by omega)]
            rfl
      · simp [apply, outstanding, hfinal]
  | trade t => cases offset <;> first | exact absurd rfl hclose | rfl

/-- What is frozen of yesterday's volume is there, and is not more than a bound. -/
structure Within (v : Volumes) (bound : ℤ) : Prop where
  nonneg : 0 ≤ v.frozenYesterday
  le_volume : v.frozenYesterday ≤ v.yesterdayVolume
  le_bound : v.frozenYesterday ≤ bound

/-- What is frozen of yesterday's volume stays there and within what is outstanding. -/
theorem Within.apply {bound : ℤ} (h : v.Within bound) (hclose : offset ≠ .Open)
    (hcounted : m.Counted) (hinput : ∀ i, m = .orderInput i → 0 ≤ i.volume.toInt)
    (htoday : ∀ t, m = .trade t → (t.details.offset = .CloseToday ↔ offset = .CloseToday))
    (hbound : 0 ≤ bound + if offset = .CloseToday then 0 else m.outstanding) :
    (Volumes.apply offset m v).Within
      (bound + if offset = .CloseToday then 0 else m.outstanding) := by
  obtain ⟨hnonneg, hvolume, hle⟩ := h
  cases m with
  | orderInput i =>
      have hi := hinput i rfl
      cases offset with
      | Open => exact absurd rfl hclose
      | CloseToday =>
          simp only [Volumes.apply, freezeToday]
          exact ⟨hnonneg, hvolume, by simpa using hle⟩
      | _ =>
          simp only [outstanding, reduceCtorEq, if_false, Volumes.apply, freeze] at hbound ⊢
          split
          · constructor <;> dsimp only <;> omega
          · constructor <;> dsimp only <;> omega
  | order o =>
      by_cases hfinal : isFinalStatus o.status
      · have hleft : 0 ≤ o.volumeLeft.toInt := Int64.le_iff_toInt_le.mp (hcounted hfinal)
        cases offset with
        | Open => exact absurd rfl hclose
        | CloseToday =>
            simp only [Volumes.apply, hfinal, if_true, unfreezeToday]
            exact ⟨hnonneg, hvolume, by simpa using hle⟩
        | _ =>
            simp only [outstanding, hfinal, if_true, reduceCtorEq, if_false, Volumes.apply,
              unfreeze] at hbound ⊢
            constructor <;> dsimp only <;> omega
      · simp only [Volumes.apply, outstanding, hfinal, Bool.false_eq_true, if_false, ite_self,
          add_zero]
        exact ⟨hnonneg, hvolume, hle⟩
  | trade t =>
      have ht := htoday t rfl
      have hn : 0 ≤ t.volume.toInt := Int64.le_iff_toInt_le.mp hcounted
      cases offset with
      | Open => exact absurd rfl hclose
      | CloseToday =>
          simp only [Volumes.apply, closed, ht, if_true, decide_true]
          exact ⟨hnonneg, hvolume, by simpa using hle⟩
      | _ =>
          simp only [outstanding, reduceCtorEq, if_false, Volumes.apply, closed, ht,
            decide_false, Bool.false_eq_true] at hbound ⊢
          constructor <;> dsimp only <;> omega

end Volumes

/-! ## What is decided for orders -/

/-- The side of the positions that a message of futures is about, when it opens or closes. -/
def directionOf (side : Side) (offset : Offset) : Direction :=
  match getDirection .Future side offset with
  | .ok direction => direction
  | .error _ => .Long

theorem eq_directionOf {type : InstrumentType} {side : Side} {offset : Offset}
    {direction : Direction} (hmethod : Method.ofInstrumentType type = some .future)
    (h : getDirection type side offset = .ok direction) : direction = directionOf side offset := by
  have hfuture : getDirection .Future side offset = .ok direction := by
    cases type <;> first
      | exact h
      | exact absurd hmethod (by decide)
      | (cases side <;> cases offset <;> first | exact h | cases h)
  simp only [directionOf, hfuture]

/-- A message for which it matters whether it opens or closes. -/
def Decides : TradingData → Prop
  | .order o => isFinalStatus o.status ∧ o.volumeLeft ≠ 0
  | _ => True

instance : DecidablePred Decides
  | .orderInput _ => isTrue trivial
  | .order _ => inferInstanceAs (Decidable (_ ∧ _))
  | .trade _ => isTrue trivial

theorem outstanding_of_not_decides {m : TradingData} (h : ¬ Decides m) : m.outstanding = 0 := by
  cases m with
  | order o =>
      by_cases hfinal : isFinalStatus o.status
      · have hleft : o.volumeLeft = 0 := not_not.mp fun hleft => h ⟨hfinal, hleft⟩
        simp [outstanding, hfinal, hleft]
      · simp [outstanding, hfinal]
  | _ => exact absurd trivial h

/-- The other messages change nothing, whatever is decided. -/
theorem Volumes.apply_of_not_decides {m : TradingData} {offset : Offset} {v : Volumes}
    (h : ¬ Decides m) (htotal : 0 ≤ v.frozenTotal) (hyesterday : 0 ≤ v.frozenYesterday) :
    Volumes.apply offset m v = v := by
  cases m with
  | order o =>
      by_cases hfinal : isFinalStatus o.status
      · have hleft : o.volumeLeft = 0 := not_not.mp fun hleft => h ⟨hfinal, hleft⟩
        cases offset <;>
          simp [Volumes.apply, hfinal, hleft, unfreeze, unfreezeToday, htotal, hyesterday]
      · simp [Volumes.apply, hfinal]
  | _ => exact absurd trivial h

/-- To close today's volume is not decided, unless it is what the message says. -/
theorem eq_closeToday_iff {holdings : Holdings} {m : TradingData}
    (h : decidedOffset holdings m ≠ .Open) :
    m.offset = .CloseToday ↔ decidedOffset holdings m = .CloseToday := by
  unfold decidedOffset at h ⊢
  split at h
  · rename_i hmerge
    rw [if_pos hmerge]
    split at h
    · unfold decideOffset at h ⊢
      grind
    · rfl
  · rename_i hmerge
    rw [if_neg hmerge]

/-- Messages of futures: they have an accounting of futures, and their volumes are counts. -/
structure FutureMessage (m : TradingData) : Prop where
  method : Method.ofInstrumentType m.instrumentType = some .future
  counted : m.Counted

instance : DecidablePred FutureMessage := fun m =>
  decidable_of_iff (Method.ofInstrumentType m.instrumentType = some .future ∧ m.Counted)
    ⟨fun ⟨h₁, h₂⟩ => ⟨h₁, h₂⟩, fun ⟨h₁, h₂⟩ => ⟨h₁, h₂⟩⟩

section Shares

variable (market : Market) (ms : List TradingData) (decision : UInt64 → Offset)
  (key : PositionKey) (m : TradingData)

/-- The position that an order acts on by the decision. -/
def keyOf : PositionKey :=
  positionKey (directionOf m.side (decision m.orderId)) m.exchangeId m.instrumentId

/-- What a message of a run adds to the frozen margin. -/
def marginShareIn : ℚ :=
  marginShare market (directionOf m.side (decision m.orderId)) (decision m.orderId)
    (frozenPriceOf ms m.orderId) m

/-- What a message adds to the frozen volume of a position. -/
def closingShare : ℤ :=
  if decision m.orderId ≠ .Open ∧ keyOf decision m = key then m.outstanding else 0

/-- What a message adds to the volume of a position that yesterday's volume is frozen for. -/
def yesterdayShare : ℤ :=
  if (decision m.orderId ≠ .Open ∧ decision m.orderId ≠ .CloseToday) ∧ keyOf decision m = key then
    m.outstanding
  else 0

end Shares

variable {market : Market} {ms done todo : List TradingData} {decision : UInt64 → Offset}
  {key : PositionKey} {m : TradingData} {start book book' : AccountBook}

/-- All messages of an order act on one position. -/
theorem keyOf_congr (hcomplete : Complete ms) (hm : m ∈ ms) {m' : TradingData} (hm' : m' ∈ ms)
    (hid : m'.orderId = m.orderId) : keyOf decision m' = keyOf decision m := by
  obtain ⟨hexchange, hinstrument, hside⟩ := hcomplete.balanced.agree hm hm' hid
  rw [keyOf, keyOf, hid, hexchange, hinstrument, hside]

/-- The messages of an order that closes a position are about that position. -/
theorem closing_congr (hcomplete : Complete ms) (key : PositionKey) (offsets : Offset → Prop) :
    ∀ m ∈ ms, ∀ m' ∈ ms, m'.orderId = m.orderId →
      (offsets (decision m'.orderId) ∧ keyOf decision m' = key ↔
        offsets (decision m.orderId) ∧ keyOf decision m = key) := by
  intro m hm m' hm' hid
  rw [hid, keyOf_congr hcomplete hm hm' hid]

/-- What orders freeze of a position is never less than nothing. -/
theorem sum_closingShare_nonneg (decision : UInt64 → Offset) (key : PositionKey)
    (hcomplete : Complete ms) (hms : ms = done ++ todo)
    (hcounted : ∀ m ∈ ms, m.Counted) : 0 ≤ (done.map (closingShare decision key)).sum :=
  hcomplete.balanced.sum_ite_outstanding_nonneg hms hcounted
    (closing_congr hcomplete key fun offset => offset ≠ .Open)

theorem sum_yesterdayShare_nonneg (decision : UInt64 → Offset) (key : PositionKey)
    (hcomplete : Complete ms) (hms : ms = done ++ todo)
    (hcounted : ∀ m ∈ ms, m.Counted) : 0 ≤ (done.map (yesterdayShare decision key)).sum :=
  hcomplete.balanced.sum_ite_outstanding_nonneg hms hcounted
    (closing_congr hcomplete key fun offset => offset ≠ .Open ∧ offset ≠ .CloseToday)

/-! ## Runs -/

/-- A book after a part of the messages of a run. -/
structure FrozenAfter (market : Market) (ms : List TradingData) (decision : UInt64 → Offset)
    (start : AccountBook) (done : List TradingData) (book : AccountBook) : Prop where
  frozenMargin : book.state.asset.frozenMargin = start.state.asset.frozenMargin +
    (done.map (marginShareIn market ms decision)).sum
  frozenCash : book.state.asset.frozenCash = start.state.asset.frozenCash +
    (done.map (marginShareIn market ms decision)).sum
  frozenTotal : ∀ key, (book.holdings key).frozenTotal = (done.map (closingShare decision key)).sum
  frozenYesterday : ∀ key, (book.holdings key).Within (done.map (yesterdayShare decision key)).sum
  orders : KnowsOrders ms done book

/-- What a message of a run does, when the same is decided for it as for its order. -/
theorem FrozenAfter.exists_step {updateTime : Int64} (hcomplete : Complete ms)
    (hms : ms = done ++ m :: todo) (hcounted : ∀ m ∈ ms, m.Counted) (hfuture : FutureMessage m)
    (hbook : FrozenAfter market ms decision start done book)
    (hdecided : Decides m → decidedOffset book.holdings m = decision m.orderId)
    (h : book.applyAndUpdate market .future updateTime m = .ok book') :
    book'.holdings = Function.update book.holdings (keyOf decision m)
        (Volumes.apply (decision m.orderId) m (book.holdings (keyOf decision m))) ∧
      book'.state.asset.frozenMargin =
        book.state.asset.frozenMargin + marginShareIn market ms decision m ∧
      book'.state.asset.frozenCash =
        book.state.asset.frozenCash + marginShareIn market ms decision m ∧
      KnowsOrders ms (done ++ [m]) book' := by
  have hmem : m ∈ ms := by rw [hms]; simp
  obtain ⟨direction, hdirection, hholdings, hmargin, hcash, horders⟩ :=
    Book.applyAndUpdate_future h
  have hprice : frozenPriceFor (book.getFrozenPrice m.orderId) m = frozenPriceOf ms m.orderId := by
    cases m with
    | orderInput i => exact hcomplete.frozenPrice_orderInput hmem
    | order o => exact hcomplete.frozenPrice_order hmem
    | trade t => exact hbook.orders.getFrozenPrice_trade hcomplete hms
  have hknown := hbook.orders.step hcomplete hmem horders
  by_cases hdecides : Decides m
  · rw [hdecided hdecides] at hdirection hholdings hmargin hcash
    rw [eq_directionOf hfuture.method hdirection] at hholdings hmargin hcash
    rw [hprice] at hmargin hcash
    exact ⟨hholdings, hmargin, hcash, hknown⟩
  · -- the message does nothing, whatever is decided
    have happly : ∀ offset key, Volumes.apply offset m (book.holdings key) = book.holdings key := by
      intro offset key
      apply Volumes.apply_of_not_decides hdecides
      · rw [hbook.frozenTotal key]
        exact sum_closingShare_nonneg _ _ hcomplete hms hcounted
      · exact (hbook.frozenYesterday key).nonneg
    have hzero : ∀ direction offset price, marginShare market direction offset price m = 0 := by
      simp [marginShare, outstanding_of_not_decides hdecides, marginFor]
    simp only [happly, Function.update_eq_self, hzero, add_zero] at hholdings hmargin hcash
    simp only [happly, Function.update_eq_self, marginShareIn, hzero, add_zero]
    exact ⟨hholdings, hmargin, hcash, hknown⟩

/-- The frozen volume of a position after a message of a run. -/
theorem frozenTotal_update {holdings : Holdings} {total : ℤ}
    (htotal : (holdings key).frozenTotal = total)
    (hnonneg : 0 ≤ total + closingShare decision key m) :
    (Function.update holdings (keyOf decision m)
        (Volumes.apply (decision m.orderId) m (holdings (keyOf decision m))) key).frozenTotal =
      total + closingShare decision key m := by
  by_cases hkey : keyOf decision m = key
  · subst hkey
    rw [Function.update_self]
    by_cases hopen : decision m.orderId = .Open
    · obtain ⟨volume, happly⟩ := Volumes.apply_open (m := m) (holdings (keyOf decision m))
      rw [hopen, happly, closingShare, if_neg (by simp [hopen]), add_zero]
      exact htotal
    · have hshare : closingShare decision (keyOf decision m) m = m.outstanding := if_pos ⟨hopen, rfl⟩
      rw [hshare, ← htotal] at hnonneg ⊢
      exact Volumes.frozenTotal_apply hopen hnonneg
  · rw [Function.update_of_ne (Ne.symm hkey), closingShare, if_neg (by simp [hkey]), add_zero]
    exact htotal

/-- What is frozen of yesterday's volume after a message of a run. -/
theorem within_update {holdings : Holdings} {bound : ℤ} (hwithin : (holdings key).Within bound)
    (hcounted : m.Counted) (hinput : ∀ i, m = .orderInput i → 0 ≤ i.volume.toInt)
    (htoday : ∀ t, m = .trade t → decision m.orderId ≠ .Open →
      (t.details.offset = .CloseToday ↔ decision m.orderId = .CloseToday))
    (hnonneg : 0 ≤ bound + yesterdayShare decision key m) :
    (Function.update holdings (keyOf decision m)
        (Volumes.apply (decision m.orderId) m (holdings (keyOf decision m))) key).Within
      (bound + yesterdayShare decision key m) := by
  by_cases hkey : keyOf decision m = key
  · subst hkey
    rw [Function.update_self]
    by_cases hopen : decision m.orderId = .Open
    · obtain ⟨volume, happly⟩ := Volumes.apply_open (m := m) (holdings (keyOf decision m))
      rw [hopen, happly, yesterdayShare, if_neg (by simp [hopen]), add_zero]
      exact ⟨hwithin.nonneg, hwithin.le_volume, hwithin.le_bound⟩
    · have hshare : yesterdayShare decision (keyOf decision m) m =
          if decision m.orderId = .CloseToday then 0 else m.outstanding := by
        by_cases htoday : decision m.orderId = .CloseToday <;> simp [yesterdayShare, hopen, htoday]
      rw [hshare] at hnonneg ⊢
      exact hwithin.apply hopen hcounted hinput (fun t ht => htoday t ht hopen) hnonneg
  · rw [Function.update_of_ne (Ne.symm hkey), yesterdayShare, if_neg (by simp [hkey]), add_zero]
    exact hwithin

/-- Every message keeps account of what is frozen. -/
theorem FrozenAfter.step {updateTime : Int64} (hcomplete : Complete ms)
    (hms : ms = done ++ m :: todo) (hfuture : ∀ m ∈ ms, FutureMessage m)
    (hbook : FrozenAfter market ms decision start done book)
    (hdecided : Decides m → decidedOffset book.holdings m = decision m.orderId)
    (h : book.applyAndUpdate market .future updateTime m = .ok book') :
    FrozenAfter market ms decision start (done ++ [m]) book' := by
  have hmem : m ∈ ms := by rw [hms]; simp
  have hcounted : ∀ m ∈ ms, m.Counted := fun m hm => (hfuture m hm).counted
  have hsplit : ms = (done ++ [m]) ++ todo := by rw [hms]; simp
  have hsum : ∀ {M : Type} [AddCommMonoid M] (f : TradingData → M),
      ((done ++ [m]).map f).sum = (done.map f).sum + f m := by
    intro M _ f
    simp
  obtain ⟨hholdings, hmargin, hcash, hknown⟩ :=
    hbook.exists_step hcomplete hms hcounted (hfuture m hmem) hdecided h
  refine ⟨?_, ?_, ?_, ?_, hknown⟩
  · rw [hmargin, hbook.frozenMargin, hsum, add_assoc]
  · rw [hcash, hbook.frozenCash, hsum, add_assoc]
  · intro k
    have hnonneg := sum_closingShare_nonneg decision k hcomplete hsplit hcounted
    rw [hsum] at hnonneg ⊢
    rw [hholdings]
    exact frozenTotal_update (hbook.frozenTotal k) hnonneg
  · intro k
    have hnonneg := sum_yesterdayShare_nonneg decision k hcomplete hsplit hcounted
    rw [hsum] at hnonneg ⊢
    rw [hholdings]
    apply within_update (hbook.frozenYesterday k) (hcounted m hmem) ?_ ?_ hnonneg
    · rintro i rfl
      exact hcomplete.balanced.volume_nonneg hcounted hmem
    · rintro t rfl hopen
      have hdecide := hdecided trivial
      have hiff := eq_closeToday_iff (hdecide ▸ hopen)
      rw [hdecide] at hiff
      exact hiff

/-- Nothing is frozen of any position. -/
def Unfrozen (book : AccountBook) : Prop :=
  book.Forall fun p => p.frozenTotal = 0 ∧ p.frozenYesterday = 0 ∧ 0 ≤ p.yesterdayVolume

/-- For every message that reaches a book in a run, the same is decided as for its order. -/
def DecidedAlike (app : App) (market : Market) (uid : UInt32) (decision : UInt64 → Offset) :
    List Update → Books → Prop
  | [], _ => True
  | u :: us, books =>
      (u.Reaches uid → Decides u.data → ∀ book ∈ (getBook app books uid).toOption,
        decidedOffset book.holdings u.data = decision u.data.orderId) ∧
      ∀ books' ∈ (updateBook app market u books).toOption,
        DecidedAlike app market uid decision us books'

instance decidableDecidedAlike (app : App) (market : Market) (uid : UInt32)
    (decision : UInt64 → Offset) :
    ∀ us books, Decidable (DecidedAlike app market uid decision us books)
  | [], _ => isTrue trivial
  | u :: us, books =>
      have := decidableDecidedAlike app market uid decision us
      inferInstanceAs (Decidable ((u.Reaches uid → Decides u.data →
        ∀ book ∈ (getBook app books uid).toOption,
          decidedOffset book.holdings u.data = decision u.data.orderId) ∧
        ∀ books' ∈ (updateBook app market u books).toOption,
          DecidedAlike app market uid decision us books'))

variable {app : App} {us : List Update} {books books' : Books} {uid : UInt32}

theorem FrozenAfter.init (hunfrozen : Unfrozen start) (hprices : KnowsPrices ms start) :
    FrozenAfter market ms decision start [] start := by
  have hvolumes : ∀ key, (start.holdings key).frozenTotal = 0 ∧
      (start.holdings key).frozenYesterday = 0 ∧ 0 ≤ (start.holdings key).yesterdayVolume := by
    intro key
    cases hp : start.state.positions.lookup key with
    | some p =>
        rw [Book.holdings_of_lookup hp]
        exact hunfrozen key p hp
    | none => simp [Book.holdings, hp, Volumes.nothing]
  refine ⟨by simp, by simp, fun key => (hvolumes key).1, fun key => ?_, ⟨hprices, by simp⟩⟩
  obtain ⟨-, hfrozen, hvolume⟩ := hvolumes key
  constructor <;> simp [hfrozen, hvolume]

theorem decidedAlike_of_forall (h : ∀ u ∈ us, u.Reaches uid → ∀ holdings,
    decidedOffset holdings u.data = decision u.data.orderId) :
    DecidedAlike app market uid decision us books := by
  induction us generalizing books with
  | nil => trivial
  | cons u us ih =>
      constructor
      · intro hreach _ book _
        exact h u List.mem_cons_self hreach book.holdings
      · intro books' _
        exact ih fun u hu => h u (List.mem_cons_of_mem _ hu)

/-- Further updates keep account of what is frozen. -/
theorem FrozenAfter.updateBooks {before : List TradingData}
    (hfrozen : FrozenAfter market ms decision start before book)
    (hbook : getBook app books uid = .ok book) (hcomplete : Complete ms)
    (hms : ms = before ++ messagesTo uid us ++ todo) (hfuture : ∀ m ∈ ms, FutureMessage m)
    (honce : ∀ u ∈ us, u.ReachesOnce uid) (hdecided : DecidedAlike app market uid decision us books)
    (hrun : updateBooks app market us books = .ok books') :
    ∃ book', getBook app books' uid = .ok book' ∧
      FrozenAfter market ms decision start (before ++ messagesTo uid us) book' := by
  induction us generalizing books book before with
  | nil =>
      cases hrun
      exact ⟨book, hbook, by simpa [messagesTo] using hfrozen⟩
  | cons u us ih =>
      obtain ⟨hhere, hlater⟩ := hdecided
      cases hu : updateBook app market u books with
      | error thrown => simp [Wingchun.updateBooks, hu, bind, Except.bind] at hrun
      | ok books₁ =>
          rw [Wingchun.updateBooks, List.foldlM_cons, hu, Outcome.ok_bind] at hrun
          obtain ⟨book₁, hbook₁, heffect⟩ :=
            getBook_updateBook hu hbook (honce u List.mem_cons_self)
          have hlater := hlater books₁ (by rw [hu]; rfl)
          have honce := fun u hu => honce u (List.mem_cons_of_mem _ hu)
          by_cases hreach : u.Reaches uid
          · rw [messagesTo_cons, if_pos hreach, ← List.append_assoc] at hms ⊢
            rw [if_pos hreach] at heffect
            have hsplit : ms = before ++ u.data :: (messagesTo uid us ++ todo) := by
              rw [hms]
              simp
            have hmem : u.data ∈ ms := by rw [hsplit]; simp
            rw [Book.applyUpdate, (hfuture u.data hmem).method] at heffect
            have hdecides := fun hd => hhere hreach hd book (by rw [hbook]; rfl)
            exact ih (hfrozen.step hcomplete hsplit hfuture hdecides heffect) hbook₁ hms honce
              hlater hrun
          · rw [messagesTo_cons, if_neg hreach, List.nil_append] at hms ⊢
            rw [if_neg hreach] at heffect
            subst heffect
            exact ih hfrozen hbook₁ hms honce hlater hrun

/-! ## What orders freeze -/

/-- The margin that is frozen for the orders that open and are not through. -/
def openMargin (market : Market) (decision : UInt64 → Offset) (ms : List TradingData) : ℚ :=
  ((ordersPlaced ms).map fun i =>
    if decision i.orderId = .Open then
      marginFor (getInstrumentContractMultiplierAndMarginRatio market
        (hashInstrument i.exchangeId i.instrumentId) (directionOf i.side .Open)) i.frozenPrice
        (outstandingVolume i.orderId ms)
    else 0).sum

/-- The volume of the orders that close a position and are not through. -/
def closingVolume (decision : UInt64 → Offset) (key : PositionKey) (ms : List TradingData) : ℤ :=
  ((ordersPlaced ms).map fun i =>
    if decision i.orderId ≠ .Open ∧ keyOf decision (.orderInput i) = key then
      outstandingVolume i.orderId ms
    else 0).sum

theorem sum_marginShareIn (hcomplete : Complete ms) (hms : ms = done ++ todo) :
    (done.map (marginShareIn market ms decision)).sum = openMargin market decision done := by
  let rate (i : OrderInput Details) : ℚ :=
    let cmMr := getInstrumentContractMultiplierAndMarginRatio market
      (hashInstrument i.exchangeId i.instrumentId) (directionOf i.side .Open)
    if decision i.orderId = .Open then
      cmMr.contractMultiplier * i.frozenPrice * cmMr.exchangeRate * cmMr.marginRatio
    else 0
  rw [hcomplete.balanced.sum_eq_mul hms rate, openMargin]
  · apply congrArg List.sum
    apply List.map_congr_left
    intro i hi
    simp only [rate]
    split
    · simp only [marginFor]
      ring
    · rw [zero_mul]
  · intro i hi m hm hid
    have hprice := hcomplete.frozenPrice_orderInput hi
    obtain ⟨hexchange, hinstrument, hside⟩ := hcomplete.balanced.agree hi hm hid
    change m.exchangeId = i.exchangeId at hexchange
    change m.instrumentId = i.instrumentId at hinstrument
    change m.side = i.side at hside
    rw [marginShareIn, marginShare, hid, hexchange, hinstrument, hside, ← hprice]
    simp only [rate]
    split
    · rename_i hopen
      simp only [marginFor, hopen]
      ring
    · rw [zero_mul]

theorem sum_closingShare (hcomplete : Complete ms) (hms : ms = done ++ todo) :
    (done.map (closingShare decision key)).sum = closingVolume decision key done :=
  hcomplete.balanced.sum_ite_outstanding hms
    (closing_congr hcomplete key fun offset => offset ≠ .Open)

theorem openMargin_eq_zero (hcomplete : Complete ms) : openMargin market decision ms = 0 := by
  refine hcomplete.balanced.sum_ordersPlaced_eq_zero fun i hzero => ?_
  simp [hzero, marginFor]

theorem closingVolume_eq_zero (hcomplete : Complete ms) : closingVolume decision key ms = 0 := by
  refine hcomplete.balanced.sum_ordersPlaced_eq_zero fun i hzero => ?_
  simp [hzero]

theorem sum_yesterdayShare (hcomplete : Complete ms) :
    (ms.map (yesterdayShare decision key)).sum = 0 := by
  apply hcomplete.balanced.sum_eq_zero
  intro m hm
  refine ⟨if (decision m.orderId ≠ .Open ∧ decision m.orderId ≠ .CloseToday) ∧
    keyOf decision m = key then 1 else 0, ?_⟩
  intro m' hm' hid
  rw [yesterdayShare, hid, keyOf_congr hcomplete hm hm' hid]
  split <;> simp

/-- What a book freezes, by the orders that are not through. -/
theorem FrozenAfter.eq_outstanding (hbook : FrozenAfter market ms decision start done book)
    (hcomplete : Complete ms) (hms : ms = done ++ todo) :
    book.state.asset.frozenMargin =
        start.state.asset.frozenMargin + openMargin market decision done ∧
      book.state.asset.frozenCash =
        start.state.asset.frozenCash + openMargin market decision done ∧
      book.Forall fun {key} p => p.frozenTotal = closingVolume decision key done ∧
        0 ≤ p.frozenYesterday ∧ p.frozenYesterday ≤ p.yesterdayVolume := by
  rw [← sum_marginShareIn hcomplete hms]
  refine ⟨hbook.frozenMargin, hbook.frozenCash, ?_⟩
  intro key p hp
  have htotal := hbook.frozenTotal key
  have hwithin := hbook.frozenYesterday key
  rw [Book.holdings_of_lookup hp] at htotal hwithin
  rw [← sum_closingShare hcomplete hms]
  exact ⟨htotal, hwithin.nonneg, hwithin.le_volume⟩

/-- When all orders are through, nothing is frozen for them. -/
theorem FrozenAfter.settled (hbook : FrozenAfter market ms decision start done book)
    (hcomplete : Complete ms) (hms : ms = done ++ todo) (hdone : Complete done) :
    book.state.asset.frozenMargin = start.state.asset.frozenMargin ∧
      book.state.asset.frozenCash = start.state.asset.frozenCash ∧
      book.Forall fun p => p.frozenTotal = 0 ∧ p.frozenYesterday = 0 := by
  obtain ⟨hmargin, hcash, hpositions⟩ := hbook.eq_outstanding hcomplete hms
  rw [openMargin_eq_zero hdone, add_zero] at hmargin hcash
  refine ⟨hmargin, hcash, ?_⟩
  intro key p hp
  obtain ⟨htotal, hnonneg, -⟩ := hpositions key p hp
  have hbound := (hbook.frozenYesterday key).le_bound
  rw [Book.holdings_of_lookup hp, sum_yesterdayShare hdone] at hbound
  rw [closingVolume_eq_zero hdone] at htotal
  exact ⟨htotal, le_antisymm hbound hnonneg⟩

/-! ## Ordinary exchanges -/

/-- The offset that an order was placed with. -/
def placedOffset (ms : List TradingData) (id : UInt64) : Offset :=
  match inputOf ms id with
  | some input => input.details.offset
  | none => .Open

/-- On exchanges where positions of both sides do not offset each other, a futures account
freezes at every point the margin and the volume of the orders that are not through, and in
the end nothing for them. -/
theorem future_frozen {done todo : List Update} {books' : Books}
    (hrun : updateBooks app market done books = .ok books')
    (hstart : getBook app books uid = .ok start) (honce : ∀ u ∈ done, u.ReachesOnce uid)
    (hms : ms = messagesTo uid (done ++ todo)) (hcomplete : Complete ms)
    (hfuture : ∀ m ∈ ms, FutureMessage m)
    (hordinary : ∀ m ∈ ms, ableLongShortPositionMerge m.exchangeId = false)
    (hoffset : ∀ m ∈ ms, m.offset = placedOffset ms m.orderId)
    (hunfrozen : Unfrozen start) (hprices : KnowsPrices ms start) :
    ∃ book, getBook app books' uid = .ok book ∧
      let margin := openMargin market (placedOffset ms) (messagesTo uid done)
      book.state.asset.frozenMargin = start.state.asset.frozenMargin + margin ∧
      book.state.asset.frozenCash = start.state.asset.frozenCash + margin ∧
      (book.Forall fun {key} p =>
        p.frozenTotal = closingVolume (placedOffset ms) key (messagesTo uid done) ∧
          0 ≤ p.frozenYesterday ∧ p.frozenYesterday ≤ p.yesterdayVolume) ∧
      (Complete (messagesTo uid done) →
        book.state.asset.frozenMargin = start.state.asset.frozenMargin ∧
        book.state.asset.frozenCash = start.state.asset.frozenCash ∧
        book.Forall fun p => p.frozenTotal = 0 ∧ p.frozenYesterday = 0) := by
  rw [messagesTo_append] at hms
  have hdecided : DecidedAlike app market uid (placedOffset ms) done books := by
    apply decidedAlike_of_forall
    intro u hu hreach holdings
    have hmem : u.data ∈ ms := by
      rw [hms]
      exact List.mem_append_left _ (mem_messagesTo hu hreach)
    rw [decidedOffset, hordinary u.data hmem, hoffset u.data hmem]
    rfl
  obtain ⟨book, hbook, hfrozen⟩ := (FrozenAfter.init hunfrozen hprices).updateBooks hstart
    hcomplete hms hfuture honce hdecided hrun
  obtain ⟨hmargin, hcash, hpositions⟩ := hfrozen.eq_outstanding hcomplete hms
  exact ⟨book, hbook, hmargin, hcash, hpositions, hfrozen.settled hcomplete hms⟩

/-- An order to buy 10 contracts, of which 4 are bought, and one to sell 3 of them again. -/
def exampleFutures : List Update :=
  let details : Details := ⟨.Open, .Speculation, 0, 0, 0⟩
  let today : Details := ⟨.CloseToday, .Speculation, 0, 0, 0⟩
  let buy : OrderInput Details := ⟨1, 0, "rb2610", "SHFE", .Future, 100, 100, 10, .Buy, .Limit, details⟩
  let sell : OrderInput Details := ⟨2, 0, "rb2610", "SHFE", .Future, 101, 101, 3, .Sell, .Limit, today⟩
  let order := orderFromInput buy
  [⟨1, 77, 10, .orderInput buy⟩, ⟨2, 10, 77, .order order⟩,
    ⟨3, 10, 77, .trade ⟨8, 1, "", "", "rb2610", "SHFE", .Future, .Buy, 4,
      ⟨.Open, .Speculation, 99, 0, 0⟩⟩⟩,
    ⟨4, 77, 10, .orderInput sell⟩]

/-- The end of the two orders: 6 contracts are not bought any more, 3 are sold. -/
def exampleFuturesRest : List Update :=
  let details : Details := ⟨.Open, .Speculation, 0, 0, 0⟩
  let today : Details := ⟨.CloseToday, .Speculation, 101, 0, 0⟩
  let buy : OrderInput Details := ⟨1, 0, "rb2610", "SHFE", .Future, 100, 100, 10, .Buy, .Limit, details⟩
  let sell : OrderInput Details := ⟨2, 0, "rb2610", "SHFE", .Future, 101, 101, 3, .Sell, .Limit, today⟩
  [⟨5, 10, 77, .order { orderFromInput buy with volumeLeft := 6, status := .Cancelled }⟩,
    ⟨6, 10, 77, .order { orderFromInput sell with volumeLeft := 0, status := .Filled }⟩,
    ⟨7, 10, 77, .trade ⟨9, 2, "", "", "rb2610", "SHFE", .Future, .Sell, 3, today⟩⟩]

/-- For 6 contracts at 100 there are 600 frozen, and 3 contracts are frozen to be sold. -/
theorem future_frozen_example :
    ∃ books' book, updateBooks exampleApp noInstruments exampleFutures (fun _ => none) = .ok books' ∧
      getBook exampleApp books' 10 = .ok book ∧ book.state.asset.frozenMargin = 600 ∧
      ∀ p, book.state.positions.lookup (positionKey .Long "SHFE" "rb2610") = some p →
        p.frozenTotal = 3 ∧ 0 ≤ p.frozenYesterday ∧ p.frozenYesterday ≤ p.yesterdayVolume := by
  let ms := messagesTo 10 (exampleFutures ++ exampleFuturesRest)
  obtain ⟨books', hrun⟩ := Outcome.exists_of_isOk
    (show (updateBooks exampleApp noInstruments exampleFutures fun _ => none).isOk = true by
      decide +kernel)
  have hstart : getBook exampleApp (fun _ => none) 10 = makeBook exampleApp 10 := rfl
  have hms : ms = messagesTo 10 (exampleFutures ++ exampleFuturesRest) := rfl
  obtain ⟨book, hbook, hmargin, -, hpositions, -⟩ := future_frozen hrun hstart
    (by decide +kernel) hms (by decide +kernel) (by decide +kernel) (by decide +kernel)
    (by decide +kernel) (fun _ _ h => by cases h) fun _ _ _ h => by cases h
  refine ⟨books', book, hrun, hbook, ?_, ?_⟩
  · rw [hmargin]
    decide +kernel
  · intro p hp
    obtain ⟨htotal, hnonneg, hle⟩ := hpositions _ p hp
    refine ⟨?_, hnonneg, hle⟩
    rw [htotal]
    decide +kernel

/-- Contracts that need 0.13 of what they are worth as margin. -/
def exampleContracts (K : Type) [Div K] [∀ n, OfNat K n] : Market K where
  instruments _ := some ⟨"rb2610", "SHFE", .Future, 10, 0, false, 13 / 100, 13 / 100, 1, 1⟩
  commissions _ := none

/-- An order to buy 3 contracts that is filled by two trades. -/
def exampleFill {K : Type} [∀ n, OfNat K n] (exchangeId instrumentId : String) (price : K) :
    List (TradingData K) :=
  let details : Details K := ⟨.Open, .Speculation, price, 0, 0⟩
  let buy : OrderInput (Details K) K :=
    ⟨1, 0, instrumentId, exchangeId, .Future, price, price, 3, .Buy, .Limit, details⟩
  [.orderInput buy, .order (orderFromInput buy),
    .trade ⟨8, 1, "", "", instrumentId, exchangeId, .Future, .Buy, 1, details⟩,
    .trade ⟨9, 1, "", "", instrumentId, exchangeId, .Future, .Buy, 2, details⟩,
    .order { orderFromInput buy with volumeLeft := 0, status := .Filled }]

/-- When the order is through, nothing is frozen for it.  With numbers that are rounded, something
is left. -/
theorem future_frozen_rounds :
    Complete (exampleFill "SHFE" "rb2610" 3001) ∧
      (∀ m ∈ exampleFill "SHFE" "rb2610" 3001,
        FutureMessage m ∧ ableLongShortPositionMerge m.exchangeId = false ∧ m.offset = .Open) ∧
      (∃ book, (exampleFill "SHFE" "rb2610" 3001).foldlM (applyData (exampleContracts ℚ))
          (emptyBook 10 .Account "20260929") = .ok book ∧
        book.state.asset.frozenMargin = 0 ∧ book.state.asset.frozenCash = 0) ∧
      ∃ book, (exampleFill "SHFE" "rb2610" 3001).foldlM (applyData (exampleContracts Binary64))
          (emptyBook 10 .Account "20260929") = .ok book ∧
        book.state.asset.frozenMargin ≠ 0 ∧ book.state.asset.frozenCash ≠ 0 := by
  refine ⟨by decide +kernel, by decide +kernel, ?_, ?_⟩
  · obtain ⟨book, hrun, hzero⟩ := Outcome.exists_of_any
      (x := (exampleFill "SHFE" "rb2610" 3001).foldlM (applyData (exampleContracts ℚ))
        (emptyBook 10 .Account "20260929"))
      (p := fun book => book.state.asset.frozenMargin = 0 ∧ book.state.asset.frozenCash = 0)
      (by decide +kernel)
    exact ⟨book, hrun, of_decide_eq_true hzero⟩
  · obtain ⟨book, hrun, hleft⟩ := Outcome.exists_of_any
      (x := (exampleFill "SHFE" "rb2610" 3001).foldlM (applyData (exampleContracts Binary64))
        (emptyBook 10 .Account "20260929"))
      (p := fun book => book.state.asset.frozenMargin ≠ 0 ∧ book.state.asset.frozenCash ≠ 0)
      (by decide +kernel)
    exact ⟨book, hrun, of_decide_eq_true hleft⟩

end Kungfu.Wingchun
