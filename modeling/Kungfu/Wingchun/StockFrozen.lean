import Kungfu.Wingchun.Holdings
import Kungfu.Wingchun.Outstanding

/-!
# What positions of stocks freeze

An order that closes a position freezes its volume.  Its trades and its final order give back what
they take from it, with what they take cut off at zero.  The cuts never take effect: at every point
a position freezes what the orders that close it still have, and of yesterday's volume no more than
there is.
-/

namespace Kungfu.Wingchun

open Longfist TradingData

/-- Sides that close a position of stocks. -/
def closes : Side → Bool
  | .Sell | .RepayMargin | .RepayStock => true
  | _ => false

/-- Sides that open one. -/
def opens : Side → Bool
  | .Buy | .MarginTrade | .ShortSell => true
  | _ => false

/-! ## Volumes -/

namespace Volumes

/-- A volume is closed, and nothing falls below zero. -/
def sold (n : ℤ) (v : Volumes) : Volumes :=
  { v.unfreeze n with
    volume := max (v.volume - n) 0
    yesterdayVolume := max (v.yesterdayVolume - n) 0 }

/-- What a message does in accounting of stocks. -/
def applyStock : TradingData → Volumes → Volumes
  | .orderInput i, v => if closes i.side then v.freeze i.volume.toInt else v
  | .order o, v =>
      if isFinalStatus o.status ∧ closes o.side then v.unfreeze o.volumeLeft.toInt else v
  | .trade t, v =>
      if closes t.side then v.sold t.volume.toInt
      else if opens t.side then v.opened t.volume.toInt
      else v

end Volumes

section Effect

variable {key : PositionKey}

open StockAccountingMethod

@[simp] theorem ofPosition_updateStockPosition (p : Position key) :
    Volumes.ofPosition (updateStockPosition p) = Volumes.ofPosition p := by
  unfold updateStockPosition
  split <;> rfl

/-- The volumes change as `Volumes.applyStock` says. -/
theorem ofPosition_effect_stock (market : Market) (frozenPrice : ℚ) (m : TradingData)
    (s : Slice key) : Volumes.ofPosition (effect stock market frozenPrice m s).position =
      Volumes.applyStock m (Volumes.ofPosition s.position) := by
  cases m with
  | orderInput i =>
      simp only [effect, applyInput, Volumes.applyStock]
      cases i.side <;> rfl
  | order o =>
      by_cases hfinal : isFinalStatus o.status
      · simp only [effect, hfinal, if_true, Volumes.applyStock, true_and]
        refine (ofPosition_updateStockPosition _).trans ?_
        simp only [applyFinalOrder]
        cases o.side <;> rfl
      · simp [effect, Volumes.applyStock, hfinal]
  | trade t =>
      simp only [effect, Volumes.applyStock]
      cases hside : t.side with
      | Sell =>
          simp only [applySell]
          split <;> exact ofPosition_updateStockPosition _
      | _ => rfl

end Effect

/-! ## Runs of one accounting method -/

/-- A message for an accounting method, with the instruments that are known when it comes. -/
structure Accounted where
  market : Market
  updateTime : Int64
  data : TradingData

namespace Book

variable {book book' : AccountBook} {key : PositionKey} {method : Method} {a : Accounted}
  {as : List Accounted} {f : TradingData → Volumes → Volumes}

def account (method : Method) (book : AccountBook) (a : Accounted) : Throws AccountBook :=
  book.applyAndUpdate a.market method a.updateTime a.data

/-- One message after another. -/
def accountAll (method : Method) (as : List Accounted) (book : AccountBook) : Throws AccountBook :=
  as.foldlM (account method) book

/-- The messages that reach a position. -/
def messagesAt (key : PositionKey) (ms : List TradingData) : List TradingData :=
  ms.filter (messageKey · = some key)

/-- A method whose messages change the volumes of the position that they reach, each by a function
of these volumes. -/
def Tracks (method : Method) (f : TradingData → Volumes → Volumes) : Prop :=
  ∀ ⦃book book' : AccountBook⦄ ⦃a : Accounted⦄, account method book a = .ok book' →
    ∃ key, messageKey a.data = some key ∧
      book'.holdings = Function.update book.holdings key (f a.data (book.holdings key))

/-- A position changes by the messages that reach it. -/
theorem holdings_accountAll (hmethod : Tracks method f) (key : PositionKey)
    (hrun : accountAll method as book = .ok book') :
    book'.holdings key =
      (messagesAt key (as.map (·.data))).foldl (fun v m => f m v) (book.holdings key) := by
  refine Outcome.foldlM_invariant (I := fun done book' => book'.holdings key =
    (messagesAt key (done.map (·.data))).foldl (fun v m => f m v) (book.holdings key)) rfl ?_ hrun
  rintro done a todo book₁ book₂ - hdone hstep
  obtain ⟨key', hkey', hholdings⟩ := hmethod hstep
  rw [hholdings, messagesAt, List.map_append, List.filter_append, List.foldl_append,
    ← messagesAt, ← hdone]
  by_cases hkey : key' = key
  · subst hkey
    simp [hkey']
  · have hne : messageKey a.data ≠ some key := by
      rw [hkey']
      exact fun heq => hkey (Option.some.inj heq)
    simp [hne, Ne.symm hkey]

theorem tracks_stock : Tracks .stock Volumes.applyStock := by
  intro book book' a h
  obtain ⟨direction, p, hdirection, hp, rfl⟩ := applyAndUpdate_stock h
  refine ⟨_, by rw [messageKey, hdirection], ?_⟩
  rw [holdings_finish, holdings_setSlice, ofPosition_effect_stock, hp.ofPosition]
  · rw [holdings_congr (congrArg Account.positions (state_emplace book a.data))]
  · simp [Has]

end Book

/-! ## What closing orders still have -/

/-- What a message adds to the volume that its order is yet to close. -/
def stockShare (m : TradingData) : ℤ := if closes m.side then m.outstanding else 0

/-- The volume of the orders that close a position, as far as it is neither traded nor released. -/
def closingOutstanding (ms : List TradingData) : ℤ :=
  ((ordersPlaced ms).map fun i => if closes i.side then outstandingVolume i.orderId ms else 0).sum

section Orders

variable {ms done todo : List TradingData} {m : TradingData} {v : Volumes}

theorem closes_congr (hbalanced : Balanced ms) : ∀ m ∈ ms, ∀ m' ∈ ms, m'.orderId = m.orderId →
    (closes m'.side ↔ closes m.side) := by
  intro m hm m' hm' hid
  obtain ⟨-, -, hside⟩ := hbalanced.agree hm hm' hid
  rw [hside]

theorem sum_stockShare_nonneg (hbalanced : Balanced ms) (hms : ms = done ++ todo)
    (hcounted : ∀ m ∈ ms, m.Counted) : 0 ≤ (done.map stockShare).sum :=
  hbalanced.sum_ite_outstanding_nonneg hms hcounted (closes_congr hbalanced)

theorem sum_stockShare (hbalanced : Balanced ms) (hms : ms = done ++ todo) :
    (done.map stockShare).sum = closingOutstanding done :=
  hbalanced.sum_ite_outstanding hms (closes_congr hbalanced)

/-- What is frozen of yesterday's volume is there, and is not more than what is frozen. -/
structure Volumes.Sound (v : Volumes) : Prop where
  nonneg : 0 ≤ v.frozenYesterday
  le_total : v.frozenYesterday ≤ v.frozenTotal
  le_volume : v.frozenYesterday ≤ v.yesterdayVolume

/-- A message changes what is frozen by what it adds to its order, if that leaves something. -/
theorem frozenTotal_applyStock (hnonneg : 0 ≤ v.frozenTotal + stockShare m) :
    (Volumes.applyStock m v).frozenTotal = v.frozenTotal + stockShare m := by
  cases m with
  | orderInput i =>
      by_cases hcloses : closes i.side
      · simp [Volumes.applyStock, stockShare, outstanding, TradingData.side, hcloses, Volumes.freeze]
      · simp [Volumes.applyStock, stockShare, TradingData.side, hcloses]
  | order o =>
      by_cases happlies : isFinalStatus o.status ∧ closes o.side
      · obtain ⟨hfinal, hcloses⟩ := happlies
        have hshare : stockShare (.order o) = -o.volumeLeft.toInt := by
          simp [stockShare, outstanding, TradingData.side, hfinal, hcloses]
        rw [hshare] at hnonneg ⊢
        rw [Volumes.applyStock, if_pos ⟨hfinal, hcloses⟩]
        exact max_eq_left (by omega)
      · have hshare : stockShare (.order o) = 0 := by
          rw [not_and] at happlies
          by_cases hfinal : isFinalStatus o.status
          · simp [stockShare, TradingData.side, happlies hfinal]
          · simp [stockShare, outstanding, hfinal]
        rw [hshare, Volumes.applyStock, if_neg happlies, add_zero]
  | trade t =>
      by_cases hcloses : closes t.side
      · have hshare : stockShare (.trade t) = -t.volume.toInt := by
          simp [stockShare, outstanding, TradingData.side, hcloses]
        rw [hshare] at hnonneg ⊢
        rw [Volumes.applyStock, if_pos hcloses]
        exact max_eq_left (by omega)
      · have hshare : stockShare (.trade t) = 0 := by simp [stockShare, TradingData.side, hcloses]
        rw [hshare, Volumes.applyStock, if_neg hcloses, add_zero]
        split <;> rfl

/-- What is frozen of yesterday's volume stays there. -/
theorem Volumes.Sound.applyStock (h : v.Sound) (hcounted : m.Counted)
    (hinput : ∀ i, m = .orderInput i → 0 ≤ i.volume.toInt) : (Volumes.applyStock m v).Sound := by
  obtain ⟨hnonneg, htotal, hvolume⟩ := h
  cases m with
  | orderInput i =>
      have hi := hinput i rfl
      rw [Volumes.applyStock]
      split
      · simp only [freeze]
        constructor <;> dsimp only <;> split <;> omega
      · exact ⟨hnonneg, htotal, hvolume⟩
  | order o =>
      rw [Volumes.applyStock]
      split
      · rename_i hfinal
        have hleft : 0 ≤ o.volumeLeft.toInt := Int64.le_iff_toInt_le.mp (hcounted hfinal.1)
        simp only [unfreeze]
        constructor <;> dsimp only <;> omega
      · exact ⟨hnonneg, htotal, hvolume⟩
  | trade t =>
      have hn : 0 ≤ t.volume.toInt := Int64.le_iff_toInt_le.mp hcounted
      rw [Volumes.applyStock]
      split
      · simp only [sold, unfreeze]
        constructor <;> dsimp only <;> omega
      · split <;> exact ⟨hnonneg, htotal, hvolume⟩

/-- Nothing of a position is frozen. -/
def Volumes.Unfrozen (v : Volumes) : Prop :=
  v.frozenTotal = 0 ∧ v.frozenYesterday = 0 ∧ 0 ≤ v.yesterdayVolume

instance (v : Volumes) : Decidable v.Unfrozen := inferInstanceAs (Decidable (_ ∧ _))

/-- What is frozen after a part of the messages of a position. -/
theorem frozen_foldl (hbalanced : Balanced ms) (hcounted : ∀ m ∈ ms, m.Counted)
    (hms : ms = done ++ todo) (hstart : v.Unfrozen) :
    let v' := done.foldl (fun v m => Volumes.applyStock m v) v
    v'.frozenTotal = (done.map stockShare).sum ∧ v'.Sound := by
  induction done using List.reverseRecOn generalizing todo with
  | nil =>
      obtain ⟨htotal, hyesterday, hvolume⟩ := hstart
      exact ⟨by simpa using htotal, by constructor <;> simp [htotal, hyesterday, hvolume]⟩
  | append_singleton done m ih =>
      obtain ⟨htotal, hsound⟩ := ih (by rw [hms, List.append_assoc, List.singleton_append])
      have hmem : m ∈ ms := by simp [hms]
      have hnonneg := sum_stockShare_nonneg hbalanced hms hcounted
      simp only [List.foldl_append, List.map_append, List.sum_append, List.foldl_cons, List.map_cons,
        List.foldl_nil, List.map_nil, List.sum_cons, List.sum_nil, add_zero] at hnonneg ⊢
      refine ⟨?_, hsound.applyStock (hcounted m hmem) ?_⟩
      · rw [← htotal] at hnonneg ⊢
        exact frozenTotal_applyStock hnonneg
      · rintro i rfl
        exact hbalanced.volume_nonneg hcounted hmem

/-- Without an order that still has to close something, nothing is to be closed. -/
theorem closingOutstanding_eq_zero
    (h : ∀ i ∈ ordersPlaced ms, closes i.side → outstandingVolume i.orderId ms = 0) :
    closingOutstanding ms = 0 := by
  apply List.sum_eq_zero
  intro n hn
  obtain ⟨i, hi, rfl⟩ := List.mem_map.mp hn
  split
  · exact h i hi ‹_›
  · rfl

end Orders

section Runs

open Book

variable {book book' : AccountBook} {key : PositionKey} {done todo : List Accounted}
  {p : Position key}

/-- At every point of a run a position freezes the volume of the orders that close it, as far as
it is neither traded nor released.  Of yesterday's volume it freezes no more than this and than
there is, and what comes next takes away no more than is frozen. -/
theorem stock_frozen (hbalanced : Balanced (messagesAt key ((done ++ todo).map (·.data))))
    (hcounted : ∀ m ∈ messagesAt key ((done ++ todo).map (·.data)), m.Counted)
    (hstart : (book.holdings key).Unfrozen) (hrun : accountAll .stock done book = .ok book')
    (hp : book'.state.positions.lookup key = some p) :
    p.frozenTotal = closingOutstanding (messagesAt key (done.map (·.data))) ∧
      0 ≤ p.frozenYesterday ∧ p.frozenYesterday ≤ min p.frozenTotal p.yesterdayVolume ∧
      ((∀ i ∈ ordersPlaced (messagesAt key (done.map (·.data))), closes i.side →
          outstandingVolume i.orderId (messagesAt key (done.map (·.data))) = 0) →
        p.frozenTotal = 0 ∧ p.frozenYesterday = 0) ∧
      ∀ a ∈ todo.head?, messageKey a.data = some key → closes a.data.side →
        0 ≤ p.frozenTotal + a.data.outstanding := by
  have hms : messagesAt key ((done ++ todo).map (·.data)) =
      messagesAt key (done.map (·.data)) ++ messagesAt key (todo.map (·.data)) := by
    simp [messagesAt]
  obtain ⟨htotal, hsound⟩ := frozen_foldl hbalanced hcounted hms hstart
  rw [← holdings_accountAll tracks_stock key hrun, holdings_of_lookup hp] at htotal hsound
  have hclosing := htotal.trans (sum_stockShare hbalanced hms)
  refine ⟨hclosing, hsound.nonneg, le_min hsound.le_total hsound.le_volume, ?_, ?_⟩
  · intro hsettled
    have hzero : p.frozenTotal = 0 := hclosing.trans (closingOutstanding_eq_zero hsettled)
    exact ⟨hzero, le_antisymm (hsound.le_total.trans hzero.le) hsound.nonneg⟩
  · intro a ha hkey hcloses
    obtain ⟨rest, rfl⟩ := List.head?_eq_some_iff.mp ha
    have hnext : messagesAt key ((done ++ a :: rest).map (·.data)) =
        (messagesAt key (done.map (·.data)) ++ [a.data]) ++ messagesAt key (rest.map (·.data)) := by
      simp [messagesAt, hkey]
    have hnonneg := sum_stockShare_nonneg hbalanced hnext hcounted
    rw [List.map_append, List.sum_append, ← htotal] at hnonneg
    change 0 ≤ p.frozenTotal + _ at hnonneg
    simpa [stockShare, hcloses] using hnonneg

/-- 10 shares of yesterday. -/
def exampleShares : AccountBook :=
  let book := emptyBook 10 .Account "20260929"
  book.setPosition { book.emptyPosition .Long "SSE" "600000" with
    volume := 10
    yesterdayVolume := 10 }

def exampleSell (orderId : UInt64) (volume : Int64) : OrderInput Details :=
  ⟨orderId, 0, "600000", "SSE", .Stock, 100, 100, volume, .Sell, .Limit,
    ⟨.Close, .Speculation, 0, 0, 0⟩⟩

/-- Orders to sell 4 and 3 of the shares, of which 2 are sold. -/
def exampleSales : List Accounted :=
  [⟨noInstruments, 1, .orderInput (exampleSell 1 4)⟩,
    ⟨noInstruments, 2, .orderInput (exampleSell 2 3)⟩,
    ⟨noInstruments, 3, .trade ⟨8, 1, "", "", "600000", "SSE", .Stock, .Sell, 2,
      ⟨.Close, .Speculation, 100, 0, 0⟩⟩⟩]

/-- The other 2 of the first order are not sold, the second order is filled. -/
def exampleSalesRest : List Accounted :=
  [⟨noInstruments, 4, .order { orderFromInput (exampleSell 1 4) with
      volumeLeft := 2
      status := .Cancelled }⟩,
    ⟨noInstruments, 5, .order { orderFromInput (exampleSell 2 3) with
      volumeLeft := 0
      status := .Filled }⟩,
    ⟨noInstruments, 6, .trade ⟨9, 2, "", "", "600000", "SSE", .Stock, .Sell, 3,
      ⟨.Close, .Speculation, 100, 0, 0⟩⟩⟩]

theorem stock_frozen_example : ∃ book', accountAll .stock exampleSales exampleShares = .ok book' ∧
    ∃ p : Position (positionKey .Long "SSE" "600000"), book'.state.positions.lookup _ = some p ∧
      p.frozenTotal = 5 ∧ 0 ≤ p.frozenYesterday ∧ p.frozenYesterday ≤ p.yesterdayVolume := by
  have hany : (accountAll .stock exampleSales exampleShares).toOption.any (fun book' =>
      (book'.state.positions.lookup (positionKey .Long "SSE" "600000")).isSome) = true := by
    decide +kernel
  obtain ⟨book', hrun, hlookup⟩ := Outcome.exists_of_any hany
  obtain ⟨p, hp⟩ := Option.isSome_iff_exists.mp hlookup
  obtain ⟨htotal, hnonneg, hle, -⟩ :=
    @stock_frozen exampleShares book' _ exampleSales exampleSalesRest p (by decide +kernel)
      (by decide +kernel) (by decide +kernel) hrun hp
  refine ⟨book', hrun, p, hp, ?_, hnonneg, hle.trans (min_le_right ..)⟩
  rw [htotal]
  decide +kernel

end Runs

end Kungfu.Wingchun
