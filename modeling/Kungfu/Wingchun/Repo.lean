import Kungfu.Logic.Binary64
import Kungfu.Wingchun.Outstanding
import Mathlib.Tactic.Linarith

/-!
# What repos lend

To sell a repo is to lend.  An order freezes the cash that it may lend, a trade turns frozen cash
into a volume lent and is charged a fee, and the final order makes the rest available again.  So
cash, frozen cash, what is lent and the fees together stay what they were, however the messages of
many orders are mixed.
-/

namespace Kungfu.Wingchun

open Logic (Binary64)
open Longfist TradingData

variable {market : Market} {key : PositionKey} {ms : List TradingData} {m : TradingData}

/-- The exchange rate of what a message is about. -/
def lendingRate (market : Market) (m : TradingData) : ℚ :=
  market.exchangeRate (hashInstrument m.exchangeId m.instrumentId)

/-- The volume that a message lends. -/
def lentVolume : TradingData → ℤ
  | .trade t => t.volume.toInt
  | _ => 0

/-- What a message is charged. -/
def repoFee (market : Market) : TradingData → ℚ
  | .trade t =>
      t.volume.toInt * RepoAccountingMethod.getRepoCommissionRate t.instrumentId *
        lendingRate market (.trade t)
  | _ => 0

/-- What a message adds to the frozen cash. -/
def repoFrozen (market : Market) (m : TradingData) : ℚ := lendingRate market m * m.outstanding

/-! ## One message -/

namespace RepoAccountingMethod

/-- All that the method changes of the asset and of a position for a message of an order to
sell. -/
def effect (market : Market) (data : TradingData) (s : Slice key) : Slice key :=
  match data with
  | .orderInput i => applyInput market i s
  | .order o => if isFinalStatus o.status then applyFinalOrder market o s else s
  | .trade t => applySell market t s

variable (market) in
/-- What a message to sell changes. -/
theorem effect_sell (hkey : key.hash = hashInstrument m.exchangeId m.instrumentId)
    (hside : m.side = .Sell) (s : Slice key) :
    let s' := effect market m s
    s'.asset.frozenCash = s.asset.frozenCash + repoFrozen market m ∧
      s'.asset.avail = s.asset.avail - repoFrozen market m -
        lendingRate market m * lentVolume m - repoFee market m ∧
      s'.asset.accumulatedFee = s.asset.accumulatedFee + repoFee market m ∧
      s'.asset.intradayFee = s.asset.intradayFee + repoFee market m ∧
      s'.position.volume = s.position.volume + lentVolume m := by
  have hrate : (StockAccountingMethod.getInstrConversionMarginRate market s.position).exchangeRate =
      lendingRate market m := by
    rw [StockAccountingMethod.exchangeRate_getInstrConversionMarginRate, hkey, lendingRate]
  cases m with
  | orderInput i =>
      change i.side = .Sell at hside
      simp only [effect, applyInput, hside, StockAccountingMethod.freezeCash, hrate, repoFrozen,
        outstanding, lentVolume, repoFee]
      refine ⟨?_, ?_, ?_, ?_, ?_⟩ <;> push_cast <;> ring
  | order o =>
      change o.side = .Sell at hside
      by_cases hfinal : isFinalStatus o.status
      · simp only [effect, applyFinalOrder, hfinal, if_true, hside,
          StockAccountingMethod.freezeCash, hrate, repoFrozen, outstanding, lentVolume, repoFee]
        refine ⟨?_, ?_, ?_, ?_, ?_⟩ <;> push_cast <;> ring
      · simp [effect, hfinal, repoFrozen, outstanding, lentVolume, repoFee]
  | trade t =>
      simp only [effect, applySell, hrate, repoFrozen, outstanding, lentVolume, repoFee, repo,
        add_zero]
      refine ⟨?_, ?_, trivial, trivial, trivial⟩ <;> push_cast <;> ring

end RepoAccountingMethod

namespace Book

variable {book book' : AccountBook} {direction : Direction} {updateTime : Int64}

/-- On a position that is in the book, accounting of repos never throws. -/
theorem apply_repo_setPosition (hside : m.side = .Sell)
    (hdirection : getDirection m.instrumentType m.side m.offset = .ok direction)
    (p : Position (positionKey direction m.exchangeId m.instrumentId)) :
    Method.repo.apply market (book.setPosition p) m =
      .ok ((book.emplace m).setSlice (RepoAccountingMethod.effect market m
        ⟨book.state.asset, book.state.assetMargin, p⟩)) := by
  cases m with
  | orderInput i =>
      exact onPositionFor_setPosition hdirection p (RepoAccountingMethod.applyInput market i)
  | order o =>
      simp only [Method.apply, RepoAccountingMethod.applyOrder, emplaceOrder_setPosition]
      rw [onPositionFor_setPosition hdirection]
      simp [RepoAccountingMethod.effect, emplace]
  | trade t =>
      change t.side = .Sell at hside
      simp only [Method.apply, RepoAccountingMethod.applyTrade, hside]
      exact onPositionFor_setPosition hdirection p (RepoAccountingMethod.applySell market t)

/-- What an update of a book by accounting of repos does. -/
theorem applyAndUpdate_repo (hside : m.side = .Sell)
    (h : book.applyAndUpdate market .repo updateTime m = .ok book') :
    ∃ direction p, book.Gives direction m.exchangeId m.instrumentId p ∧
      book' = ((book.emplace m).setSlice (RepoAccountingMethod.effect market m
        ⟨book.state.asset, book.state.assetMargin, p⟩)).finish market updateTime direction m := by
  obtain ⟨direction, p, book₁, hdirection, hp, happly, rfl⟩ := exists_of_applyAndUpdate h
  rw [apply_repo_setPosition hside hdirection p] at happly
  cases happly
  exact ⟨direction, p, hp, rfl⟩

/-- What a book has lent on all its positions. -/
def lent (market : Market) (book : AccountBook) : ℚ :=
  sumPositions book.state fun {key} p => market.exchangeRate key.hash * p.volume

variable (market updateTime direction m) in
theorem fees_finish (book : AccountBook) :
    let asset := (book.finish market updateTime direction m).state.asset
    asset.accumulatedFee = book.state.asset.accumulatedFee ∧
      asset.intradayFee = book.state.asset.intradayFee := by
  cases m <;> exact ⟨rfl, rfl⟩

end Book

/-! ## Runs -/

/-- A book after a part of the messages of a run. -/
structure RepoAfter (market : Market) (start : AccountBook) (done : List TradingData)
    (book : AccountBook) : Prop where
  frozenCash : book.state.asset.frozenCash =
    start.state.asset.frozenCash + (done.map (repoFrozen market)).sum
  lent : book.lent market =
    start.lent market + (done.map fun m => lendingRate market m * lentVolume m).sum
  accumulatedFee : book.state.asset.accumulatedFee =
    start.state.asset.accumulatedFee + (done.map (repoFee market)).sum
  intradayFee : book.state.asset.intradayFee =
    start.state.asset.intradayFee + (done.map (repoFee market)).sum
  conserved : book.state.asset.avail + book.state.asset.frozenCash + book.lent market +
      (done.map (repoFee market)).sum =
    start.state.asset.avail + start.state.asset.frozenCash + start.lent market

variable {start book book' : AccountBook} {done : List TradingData}

theorem RepoAfter.init : RepoAfter market start [] start := by
  constructor <;> simp

/-- Every message to sell keeps account of the cash. -/
theorem RepoAfter.step {updateTime : Int64} (hside : m.side = .Sell)
    (hbook : RepoAfter market start done book)
    (h : book.applyAndUpdate market .repo updateTime m = .ok book') :
    RepoAfter market start (done ++ [m]) book' := by
  obtain ⟨direction, p, hp, rfl⟩ := Book.applyAndUpdate_repo hside h
  let s : Slice (positionKey direction m.exchangeId m.instrumentId) :=
    ⟨book.state.asset, book.state.assetMargin, p⟩
  let s' := RepoAccountingMethod.effect market m s
  obtain ⟨hfrozen, havail, hfee, hfee', hvolume⟩ :=
    RepoAccountingMethod.effect_sell market rfl hside s
  obtain ⟨havail', hfrozen', -⟩ :=
    Book.asset_finish market updateTime direction m ((book.emplace m).setSlice s')
  obtain ⟨hfees, hfees'⟩ :=
    Book.fees_finish market m direction updateTime ((book.emplace m).setSlice s')
  have hrate : market.exchangeRate (positionKey direction m.exchangeId m.instrumentId).hash =
      lendingRate market m := rfl
  have hothers : (book.emplace m).sumOthers (fun {key} p => market.exchangeRate key.hash * p.volume)
      (positionKey direction m.exchangeId m.instrumentId) =
        book.sumOthers (fun {key} p => market.exchangeRate key.hash * p.volume)
          (positionKey direction m.exchangeId m.instrumentId) := by
    rw [Book.sumOthers, Book.state_emplace, Book.sumOthers]
  have hlent : (((book.emplace m).setSlice s').finish market updateTime direction m).lent market =
      book.lent market + lendingRate market m * lentVolume m := by
    have hbefore := hp.sumPositions (f := fun {key} p => market.exchangeRate key.hash * p.volume)
      fun _ => mul_zero _
    rw [Book.lent, Book.lent, Book.sumPositions_finish fun _ _ => rfl, Book.sumPositions_setSlice,
      hothers, hbefore, hrate]
    rw [show s'.position.volume = p.volume + lentVolume m from hvolume]
    push_cast
    ring
  have hsum : ∀ f : TradingData → ℚ, ((done ++ [m]).map f).sum = (done.map f).sum + f m := by
    intro f
    simp
  have hconserved := hbook.conserved
  refine ⟨?_, ?_, ?_, ?_, ?_⟩
  · rw [hfrozen', hsum, ← add_assoc, ← hbook.frozenCash]
    exact hfrozen
  · rw [hlent, hsum, ← add_assoc, ← hbook.lent]
  · rw [hfees, hsum, ← add_assoc, ← hbook.accumulatedFee]
    exact hfee
  · rw [hfees', hsum, ← add_assoc, ← hbook.intradayFee]
    exact hfee'
  · rw [havail', hfrozen', hlent, hsum, ← hconserved]
    change s'.asset.avail + s'.asset.frozenCash + _ + _ = _
    rw [havail, hfrozen]
    simp only [s]
    ring

/-- An order to sell a repo. -/
structure RepoMessage (m : TradingData) : Prop where
  method : Method.ofInstrumentType m.instrumentType = some .repo
  side : m.side = .Sell

instance : DecidablePred RepoMessage := fun m =>
  decidable_of_iff (Method.ofInstrumentType m.instrumentType = some .repo ∧ m.side = .Sell)
    ⟨fun ⟨h₁, h₂⟩ => ⟨h₁, h₂⟩, fun ⟨h₁, h₂⟩ => ⟨h₁, h₂⟩⟩

/-- A book after the messages that reach it. -/
theorem repoAfter_applyUpdates {us : List Update} (hrepo : ∀ u ∈ us, RepoMessage u.data)
    (h : start.applyUpdates market us = .ok book) :
    RepoAfter market start (us.map (·.data)) book := by
  refine Outcome.foldlM_invariant
    (I := fun done book => RepoAfter market start (done.map (·.data)) book) .init ?_ h
  intro before u after b b' hus hbefore hstep
  have hmessage := hrepo u (by rw [hus]; simp)
  rw [Book.applyUpdate, hmessage.method] at hstep
  rw [List.map_append]
  exact hbefore.step hmessage.side hstep

/-! ## Orders -/

/-- The cash that the orders freeze that are not through. -/
def lendingCash (market : Market) (ms : List TradingData) : ℚ :=
  ((ordersPlaced ms).map fun i =>
    lendingRate market (.orderInput i) * outstandingVolume i.orderId ms).sum

theorem sum_repoFrozen {todo : List TradingData} (hbalanced : Balanced ms)
    (hms : ms = done ++ todo) : (done.map (repoFrozen market)).sum = lendingCash market done := by
  refine hbalanced.sum_eq_mul hms (fun i => lendingRate market (.orderInput i)) ?_
  intro i hi m hm hid
  obtain ⟨hexchange, hinstrument, -⟩ := hbalanced.agree hi hm hid
  rw [repoFrozen, lendingRate, lendingRate, hexchange, hinstrument]

/-- Nothing stays frozen for orders that are through. -/
theorem lendingCash_eq_zero (hbalanced : Balanced ms) : lendingCash market ms = 0 := by
  refine hbalanced.sum_ordersPlaced_eq_zero fun i hzero => ?_
  rw [hzero, Int.cast_zero, mul_zero]

/-- After every message the cash, the frozen cash, what is lent and the fees are together what they
were; every trade is charged once, and what is frozen is what the orders may still lend. -/
theorem repo_conserved {app : App} {done todo : List Update} {books books' : Books} {uid : UInt32}
    (hrun : updateBooks app market done books = .ok books')
    (hstart : getBook app books uid = .ok start)
    (honce : ∀ u ∈ done, u.ReachesOnce uid)
    (hbalanced : Balanced (messagesTo uid (done ++ todo)))
    (hrepo : ∀ m ∈ messagesTo uid done, RepoMessage m) :
    ∃ book, getBook app books' uid = .ok book ∧
      let fees := ((messagesTo uid done).map (repoFee market)).sum
      book.state.asset.avail + book.state.asset.frozenCash + book.lent market + fees =
        start.state.asset.avail + start.state.asset.frozenCash + start.lent market ∧
      book.lent market = start.lent market +
        ((messagesTo uid done).map fun m => lendingRate market m * lentVolume m).sum ∧
      book.state.asset.accumulatedFee = start.state.asset.accumulatedFee + fees ∧
      book.state.asset.intradayFee = start.state.asset.intradayFee + fees ∧
      book.state.asset.frozenCash =
        start.state.asset.frozenCash + lendingCash market (messagesTo uid done) ∧
      (Balanced (messagesTo uid done) →
        book.state.asset.frozenCash = start.state.asset.frozenCash) := by
  obtain ⟨book, hbook, happly⟩ := applyUpdates_of_updateBooks hrun hstart honce
  have hmessage : ∀ u ∈ done.filter fun u => u.Reaches uid, RepoMessage u.data := by
    intro u hu
    exact hrepo _ (List.mem_map_of_mem hu)
  have hafter : RepoAfter market start (messagesTo uid done) book :=
    repoAfter_applyUpdates hmessage happly
  have hfrozen := hafter.frozenCash
  rw [sum_repoFrozen hbalanced (messagesTo_append uid done todo)] at hfrozen
  refine ⟨book, hbook, hafter.conserved, hafter.lent, hafter.accumulatedFee, hafter.intradayFee,
    hfrozen, ?_⟩
  intro hdone
  rw [hfrozen, lendingCash_eq_zero hdone, add_zero]

/-- Orders to lend 1000 for a day and 500 for a week; of the first 600 are lent before its end is
reported. -/
def exampleRepos : List Update :=
  let details : Details := ⟨.Open, .Speculation, 0, 0, 0⟩
  let day : OrderInput Details := ⟨1, 0, "204001", "SSE", .Repo, 2, 2, 1000, .Sell, .Limit, details⟩
  let week : OrderInput Details := ⟨2, 0, "204007", "SSE", .Repo, 2, 2, 500, .Sell, .Limit, details⟩
  let order := orderFromInput day
  [⟨1, 77, 10, .orderInput day⟩, ⟨2, 77, 10, .orderInput week⟩, ⟨3, 10, 77, .order order⟩,
    ⟨4, 10, 77, .trade ⟨8, 1, "", "", "204001", "SSE", .Repo, .Sell, 600, details⟩⟩,
    ⟨5, 10, 77, .order { order with volumeLeft := 400, status := .PartialFilledNotActive }⟩]

/-- The end of the order for a week, of which all is lent. -/
def exampleReposRest : List Update :=
  let details : Details := ⟨.Open, .Speculation, 0, 0, 0⟩
  let week : OrderInput Details := ⟨2, 0, "204007", "SSE", .Repo, 2, 2, 500, .Sell, .Limit, details⟩
  [⟨6, 10, 77, .order { orderFromInput week with volumeLeft := 0, status := .Filled }⟩,
    ⟨7, 10, 77, .trade ⟨9, 2, "", "", "204007", "SSE", .Repo, .Sell, 500, details⟩⟩]

/-- There are 600 lent, for a fee of 0.006, and 500 frozen. -/
theorem repo_conserved_example :
    ∃ books' book, updateBooks exampleApp noInstruments exampleRepos (fun _ => none) = .ok books' ∧
      getBook exampleApp books' 10 = .ok book ∧ book.lent noInstruments = 600 ∧
      book.state.asset.accumulatedFee = 6 / 1000 ∧ book.state.asset.frozenCash = 500 := by
  obtain ⟨books', hrun⟩ := Outcome.exists_of_isOk
    (x := updateBooks exampleApp noInstruments exampleRepos fun _ => none) (by decide +kernel)
  have hstart : getBook exampleApp (fun _ => none) 10 = makeBook exampleApp 10 := rfl
  have hbalanced : Balanced (messagesTo 10 (exampleRepos ++ exampleReposRest)) := by decide +kernel
  obtain ⟨book, hbook, -, hlent, hfee, -, hfrozen, -⟩ :=
    repo_conserved hrun hstart (by decide +kernel) hbalanced (by decide +kernel)
  refine ⟨books', book, hrun, hbook, ?_, ?_, ?_⟩
  · rw [hlent]
    decide +kernel
  · rw [hfee]
    decide +kernel
  · rw [hfrozen]
    decide +kernel

/-- What accounting of repos does with an order to lend 482000 for a day, all of which is lent. -/
def exampleLending (K : Type) [Add K] [Sub K] [Mul K] [Div K] [Neg K] [IntCast K] [Max K] [LT K]
    [DecidableLT K] [LE K] [DecidableLE K] [∀ n, OfNat K n] : ThrowsOf K (AccountBook K) := do
  let details : Details K := ⟨.Open, .Speculation, 2, 0, 0⟩
  let day : OrderInput (Details K) K :=
    ⟨1, 0, "204001", "SSE", .Repo, 2, 2, 482000, .Sell, .Limit, details⟩
  let trade : Trade (Details K) := ⟨8, 1, "", "", "204001", "SSE", .Repo, .Sell, 482000, details⟩
  let book ← RepoAccountingMethod.applyOrderInput (noInstrumentsOf K) (emptyBook 10 .Account "20260929") day
  let book ← RepoAccountingMethod.applyOrder (noInstrumentsOf K) book (orderFromInput day)
  let book ← book.onPositionFor (.trade trade) (RepoAccountingMethod.applySell (noInstrumentsOf K) trade)
  RepoAccountingMethod.applyOrder (noInstrumentsOf K) book
    { orderFromInput day with volumeLeft := 0, status := .Filled }

/-- An account without cash lends 482000 for a fee of 4.82.  Cash, frozen cash, what is lent and the
fees are together nothing, but not with numbers that are rounded. -/
theorem repo_conserved_rounds :
    (∃ book, exampleLending ℚ = .ok book ∧
      (book.position .Long "SSE" "204001").volume = 482000 ∧
      book.state.asset.avail + book.state.asset.frozenCash + 482000 +
        book.state.asset.accumulatedFee = 0) ∧
      ∃ book, exampleLending Binary64 = .ok book ∧
        (book.position .Long "SSE" "204001").volume = 482000 ∧
        book.state.asset.avail.val + book.state.asset.frozenCash.val + 482000 +
          book.state.asset.accumulatedFee.val ≠ 0 := by
  constructor
  · obtain ⟨book, hrun, htest⟩ := Outcome.exists_of_any (x := exampleLending ℚ)
      (p := fun book => (book.position .Long "SSE" "204001").volume = 482000 ∧
        book.state.asset.avail + book.state.asset.frozenCash + 482000 +
          book.state.asset.accumulatedFee = 0) (by decide +kernel)
    exact ⟨book, hrun, of_decide_eq_true htest⟩
  · obtain ⟨book, hrun, htest⟩ := Outcome.exists_of_any (x := exampleLending Binary64)
      (p := fun book => (book.position .Long "SSE" "204001").volume = 482000 ∧
        book.state.asset.avail.val + book.state.asset.frozenCash.val + 482000 +
          book.state.asset.accumulatedFee.val ≠ 0) (by decide +kernel)
    exact ⟨book, hrun, of_decide_eq_true htest⟩

end Kungfu.Wingchun
