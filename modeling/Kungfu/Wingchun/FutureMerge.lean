import Kungfu.Wingchun.FutureFrozen

/-!
# Futures accounts that offset positions

Where positions of both sides offset each other, it is decided anew for every message of an
order whether it opens or closes, from the positions that are held at that moment.  As long
as this comes out as it did for the order's input, what was frozen is given back.  An order
of the other side that trades in between can turn it around: then the margin stays frozen.
-/

namespace Kungfu.Wingchun

open Logic (Binary64)
open Longfist TradingData FutureAccountingMethod

variable {app : App} {market : Market} {decision : UInt64 → Offset} {books : Books} {uid : UInt32}
  {start : AccountBook}

/-- If the same is decided for all messages of an order, the margin frozen for it is the one
for its outstanding volume, and no position has less than nothing frozen. -/
theorem merged_future_frozen {ms : List TradingData} {done todo : List Update} {books' : Books}
    (hrun : updateBooks app market done books = .ok books')
    (hstart : getBook app books uid = .ok start) (honce : ∀ u ∈ done, u.ReachesOnce uid)
    (hms : ms = messagesTo uid (done ++ todo)) (hcomplete : Complete ms)
    (hfuture : ∀ m ∈ ms, FutureMessage m) (hunfrozen : Unfrozen start)
    (hprices : KnowsPrices ms start) (hdecided : DecidedAlike app market uid decision done books) :
    ∃ book, getBook app books' uid = .ok book ∧
      let margin := openMargin market decision (messagesTo uid done)
      book.state.asset.frozenMargin = start.state.asset.frozenMargin + margin ∧
      book.state.asset.frozenCash = start.state.asset.frozenCash + margin ∧
      (∀ m ∈ ms, messagesOf m.orderId (messagesTo uid done) = messagesOf m.orderId ms →
        outstandingVolume m.orderId (messagesTo uid done) = 0) ∧
      (book.Forall fun p => 0 ≤ p.frozenTotal) ∧
      (Complete (messagesTo uid done) →
        book.state.asset.frozenMargin = start.state.asset.frozenMargin ∧
        book.state.asset.frozenCash = start.state.asset.frozenCash) := by
  rw [messagesTo_append] at hms
  obtain ⟨book, hbook, hfrozen⟩ := (FrozenAfter.init hunfrozen hprices).updateBooks hstart
    hcomplete hms hfuture honce hdecided hrun
  rw [List.nil_append] at hfrozen
  obtain ⟨hmargin, hcash, hpositions⟩ := hfrozen.eq_outstanding hcomplete hms
  refine ⟨book, hbook, hmargin, hcash, ?_, ?_, ?_⟩
  · intro m hm hall
    have hzero : ((messagesOf m.orderId ms).map outstanding).sum = 0 :=
      hcomplete.balanced.total_outstanding hm
    rw [← hall] at hzero
    exact hzero
  · intro key p hp
    obtain ⟨htotal, -, -⟩ := hpositions key p hp
    rw [htotal, ← sum_closingShare hcomplete hms]
    exact sum_closingShare_nonneg _ _ hcomplete hms fun m hm => (hfuture m hm).counted
  · intro hdone
    obtain ⟨hmargin', hcash', -⟩ := hfrozen.settled hcomplete hms hdone
    exact ⟨hmargin', hcash'⟩

/-- An order to open 2 contracts, of which 1 is traded. -/
def exampleMerged : List Update :=
  let details : Details := ⟨.Open, .Speculation, 100, 0, 0⟩
  let buy : OrderInput Details := ⟨1, 0, "HSI2610", "HKFUT", .Future, 100, 100, 2, .Buy, .Limit, details⟩
  let order := orderFromInput buy
  [⟨1, 77, 10, .orderInput buy⟩, ⟨2, 10, 77, .order order⟩,
    ⟨3, 10, 77, .trade ⟨8, 1, "", "", "HSI2610", "HKFUT", .Future, .Buy, 1, details⟩⟩,
    ⟨4, 10, 77, .order { order with volumeLeft := 1, status := .Cancelled }⟩]

/-- All of its messages open, and its margin is given back. -/
theorem merged_future_frozen_example :
    ∃ books' book, updateBooks exampleApp noInstruments exampleMerged (fun _ => none) = .ok books' ∧
      getBook exampleApp books' 10 = .ok book ∧ book.state.asset.frozenMargin = 0 ∧
      book.Forall fun p => 0 ≤ p.frozenTotal := by
  obtain ⟨books', hrun⟩ := Outcome.exists_of_isOk
    (show (updateBooks exampleApp noInstruments exampleMerged fun _ => none).isOk = true by
      decide +kernel)
  have hstart : getBook exampleApp (fun _ => none) 10 = makeBook exampleApp 10 := rfl
  have hdecided : DecidedAlike exampleApp noInstruments 10 (fun _ => .Open) exampleMerged
      fun _ => none := by decide +kernel
  have hms : messagesTo 10 exampleMerged = messagesTo 10 (exampleMerged ++ []) := rfl
  obtain ⟨book, hbook, -, -, -, hpositions, hend⟩ :=
    merged_future_frozen hrun hstart (by decide +kernel) hms
      (by decide +kernel) (by decide +kernel) (fun _ _ h => by cases h)
      (fun _ _ _ h => by cases h) hdecided
  exact ⟨books', book, hrun, hbook, (hend (by decide +kernel)).1, hpositions⟩

/-- An order to buy a contract and one to sell it, both of which open when they are placed.
The trade of the first makes the trade of the second close. -/
def exampleOpposite : List Update :=
  let details : Details := ⟨.Open, .Speculation, 100, 0, 0⟩
  let buy : OrderInput Details := ⟨1, 0, "HSI2610", "HKFUT", .Future, 100, 100, 1, .Buy, .Limit, details⟩
  let sell : OrderInput Details := ⟨2, 0, "HSI2610", "HKFUT", .Future, 100, 100, 1, .Sell, .Limit, details⟩
  let order := orderFromInput buy
  let order' := orderFromInput sell
  [⟨1, 77, 10, .orderInput buy⟩, ⟨2, 77, 10, .orderInput sell⟩, ⟨3, 10, 77, .order order⟩,
    ⟨4, 10, 77, .order order'⟩,
    ⟨5, 10, 77, .trade ⟨8, 1, "", "", "HSI2610", "HKFUT", .Future, .Buy, 1, details⟩⟩,
    ⟨6, 10, 77, .order { order with volumeLeft := 0, status := .Filled }⟩,
    ⟨7, 10, 77, .trade ⟨9, 2, "", "", "HSI2610", "HKFUT", .Future, .Sell, 1, details⟩⟩,
    ⟨8, 10, 77, .order { order' with volumeLeft := 0, status := .Filled }⟩]

/-- Both orders are through, but margin of 100 stays frozen, and a position has less than
nothing frozen.  With numbers that are rounded, something may be left of the margin of a single order,
too. -/
theorem merged_future_stays_frozen :
    Complete (messagesTo 10 exampleOpposite) ∧
      (∀ m ∈ messagesTo 10 exampleOpposite,
        FutureMessage m ∧ ableLongShortPositionMerge m.exchangeId = true) ∧
      (∃ books' book,
        updateBooks exampleApp noInstruments exampleOpposite (fun _ => none) = .ok books' ∧
        getBook exampleApp books' 10 = .ok book ∧ book.state.asset.frozenMargin = 100 ∧
        (book.position .Long "HKFUT" "HSI2610").frozenTotal = -1) ∧
      ∃ book : AccountBook Binary64,
        (exampleFill "HKFUT" "HSI2610" (1001 / 10)).foldlM (applyData (noInstrumentsOf Binary64))
          (emptyBook 10 .Account "20260929") = .ok book ∧ book.state.asset.frozenMargin ≠ 0 := by
  refine ⟨by decide +kernel, by decide +kernel, ?_, ?_⟩
  · obtain ⟨books', hrun, hbooks'⟩ := Outcome.exists_of_any
      (p := fun books' => (getBook exampleApp books' 10).toOption.any fun book =>
        book.state.asset.frozenMargin = 100 ∧
          (book.position .Long "HKFUT" "HSI2610").frozenTotal = -1)
      (show (updateBooks exampleApp noInstruments exampleOpposite fun _ => none).toOption.any _ = true
        by decide +kernel)
    obtain ⟨book, hbook, hfrozen⟩ := Outcome.exists_of_any hbooks'
    obtain ⟨hmargin, htotal⟩ := of_decide_eq_true hfrozen
    exact ⟨books', book, hrun, hbook, hmargin, htotal⟩
  · obtain ⟨book, hrun, hleft⟩ := Outcome.exists_of_any
      (p := fun book => book.state.asset.frozenMargin ≠ 0)
      (show ((exampleFill "HKFUT" "HSI2610" (1001 / 10 : Binary64)).foldlM (applyData (noInstrumentsOf Binary64))
        (emptyBook 10 .Account "20260929")).toOption.any _ = true by decide +kernel)
    exact ⟨book, hrun, of_decide_eq_true hleft⟩

end Kungfu.Wingchun
